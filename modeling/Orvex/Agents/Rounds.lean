import Orvex.Agents.Brain

/-!
# Runs of the agent brain

A run makes as many rounds as it is allowed, and what it proposes was selected
by a model.  The trajectory lists the steps that led to the proposal.
-/

namespace Orvex
namespace AgentBrain

open ToolRegistry (Intact OneOutcome)

variable {env : Environment} {b b' : Brain}

/-! ## What a run leaves -/

/-- The events of the searches, by whether a result was recorded. -/
def searchTypes (recorded : List Bool) : List SessionState.EventType :=
  recorded.flatMap fun result =>
    [.toolCall, if result then .toolResult else .toolError]

/-- The types of the events, with one search for each round. -/
def Searched (b : Brain) (later : List SessionState.EventType) : Prop :=
  ∃ recorded : List Bool, recorded.length = b.state.iterations ∧
    b.events.map SessionState.TrajectoryEvent.eventType =
      [.intentCreated, .planCreated] ++ searchTypes recorded ++ later

/-- A piece of evidence is untrusted and refers to the outcome of its
search. -/
structure Evidence.Sound (events : List SessionState.TrajectoryEvent)
    (evidence : Evidence) : Prop where
  untrusted : evidence.source.trustLevel = .untrusted
  underived : evidence.derivedFrom = []
  recorded : ∃ event ∈ events,
    evidence.trajectoryEventIds = [event.eventId] ∧
      (event.eventType = .toolResult ∨ event.eventType = .toolError)

/-- What every node keeps. -/
structure Kept (env : Environment) (b : Brain) : Prop where
  intact : Intact env.session.lib b.events
  ids : b.state.evidenceIds = b.evidence.map Evidence.evidenceId
  sources : b.evidence.map (fun e => e.source.sourceId) =
    b.state.observations.map SearchResult.url
  sound : ∀ e ∈ b.evidence, e.Sound b.events

/-- An answer of a model contains the candidate. -/
def Selected (env : Environment) (asked : ℕ) (candidate : PyDict) : Prop :=
  ∃ place < asked, ∃ data, ask env place = .ok data ∧
    extractCandidate data = some candidate

/-- The number of the rounds. -/
def InRounds (env : Environment) (b : Brain) : Prop :=
  1 ≤ b.state.iterations ∧
    (b.state.iterations : ℤ) ≤ max 1 env.maxIterations

/-- What a run ends with: a proposal that was built from a candidate of a
model, or none when the rounds are used up. -/
structure Outcome (env : Environment) (b : Brain) : Prop where
  kept : Kept env b
  rounds : InRounds env b
  asked : b.asked ≤ 1 + 2 * b.state.iterations
  proposed :
    match b.state.proposal with
    | none =>
        Searched b [.observation] ∧ env.maxIterations ≤ b.state.iterations
    | some proposal =>
        Searched b [.observation, .proposalCreated] ∧
          ∃ candidate, Selected env b.asked candidate ∧
            buildProposal env.py env.proposalId b.state.intentId env.agentId
              candidate b.state.evidenceIds
              (b.events.dropLast.map SessionState.TrajectoryEvent.eventId) =
            .ok proposal

/-- What holds where the brain is at a node. -/
def AtNode (env : Environment) : Node → Brain → Prop
  | .loadIntent, b =>
      b.events = [] ∧ b.state.iterations = 0 ∧ b.asked = 0 ∧ Kept env b
  | .plan, b =>
      b.events.map SessionState.TrajectoryEvent.eventType = [.intentCreated] ∧
        b.state.iterations = 0 ∧ b.asked = 0 ∧ Kept env b
  | .research, b =>
      Searched b [] ∧
        (b.state.iterations = 0 ∨
          (b.state.iterations : ℤ) < env.maxIterations) ∧
        b.asked ≤ 1 + 2 * b.state.iterations ∧ Kept env b
  | .compare, b =>
      Searched b [] ∧ InRounds env b ∧
        b.asked + 1 ≤ 2 * b.state.iterations ∧ Kept env b
  | .propose, b =>
      InRounds env b ∧ b.asked ≤ 1 + 2 * b.state.iterations ∧ Kept env b ∧
        match b.state.selectedCandidate with
        | none => Searched b [] ∧ env.maxIterations ≤ b.state.iterations
        | some candidate =>
            Searched b [.observation] ∧ Selected env b.asked candidate
  | .finish, b => Outcome env b

/-! ## The nodes -/

@[simp] theorem record_types (env : Environment)
    (eventType : SessionState.EventType) (action : Json)
    (events : List SessionState.TrajectoryEvent) :
    (record env eventType action events).map
        SessionState.TrajectoryEvent.eventType =
      events.map SessionState.TrajectoryEvent.eventType ++ [eventType] := by
  simp [record, SessionState.append]

theorem record_dropLast (env : Environment) (eventType : SessionState.EventType)
    (action : Json) (events : List SessionState.TrajectoryEvent) :
    (record env eventType action events).dropLast = events := by
  simp [record, SessionState.append]

theorem mem_record {event : SessionState.TrajectoryEvent}
    {events : List SessionState.TrajectoryEvent} (h : event ∈ events)
    (eventType : SessionState.EventType) (action : Json) :
    event ∈ record env eventType action events :=
  List.mem_append_left _ h

theorem Evidence.Sound.mono {events later : List SessionState.TrajectoryEvent}
    {e : Evidence} (h : e.Sound events)
    (hsubset : ∀ event ∈ events, event ∈ later) : e.Sound later := by
  obtain ⟨event, hevent, hids, htype⟩ := h.recorded
  exact ⟨h.untrusted, h.underived, event, hsubset event hevent, hids, htype⟩

/-- A node that records an event and leaves the evidence. -/
theorem Kept.record (h : Kept env b) (eventType : SessionState.EventType)
    (action : Json)
    (hevents : b'.events = AgentBrain.record env eventType action b.events)
    (hids : b'.state.evidenceIds = b.state.evidenceIds)
    (hevidence : b'.evidence = b.evidence)
    (hobservations : b'.state.observations = b.state.observations) :
    Kept env b' := by
  constructor
  · rw [hevents]
    exact h.intact.append _ _
  · rw [hids, hevidence]
    exact h.ids
  · rw [hevidence, hobservations]
    exact h.sources
  · rw [hevidence, hevents]
    intro e he
    exact (h.sound e he).mono
      (fun event hevent => mem_record hevent eventType action)

theorem loadIntent_atPlan (h : AtNode env .loadIntent b) :
    AtNode env .plan (loadIntent env b) := by
  obtain ⟨hevents, hiterations, hasked, hkept⟩ := h
  refine ⟨?_, hiterations, hasked, hkept.record _ _ rfl rfl rfl rfl⟩
  simp [loadIntent, hevents]

theorem plan_atResearch (h : AtNode env .plan b)
    (hrun : plan env b = .ok b') : AtNode env .research b' := by
  obtain ⟨hevents, hiterations, hasked, hkept⟩ := h
  unfold plan at hrun
  cases hdata : ask env b.asked with
  | error exception =>
      rw [hdata] at hrun
      contradiction
  | ok data =>
      rw [hdata] at hrun
      have hstate := (Except.ok.inj hrun).symm
      subst hstate
      refine ⟨⟨[], ?_, ?_⟩, Or.inl hiterations, ?_,
        hkept.record _ _ rfl rfl rfl rfl⟩
      · exact hiterations.symm
      · simp [hevents, searchTypes]
      · simp [hasked, hiterations]

theorem searchTypes_append (recorded : List Bool) (result : Bool) :
    searchTypes (recorded ++ [result]) =
      searchTypes recorded ++
        [.toolCall, if result then .toolResult else .toolError] := by
  simp [searchTypes]

/-- The evidence of a search whose outcome is an event. -/
def foundEvidence (env : Environment) (b : Brain)
    (outcome : SessionState.TrajectoryEvent) (found : List SearchResult) :
    List Evidence :=
  found.mapIdx fun i hit =>
    evidenceOf env [outcome.eventId] (b.evidence.length + i) hit

/-- A search adds its two events and its evidence. -/
structure Researched (env : Environment) (b b' : Brain)
    (first second : SessionState.TrajectoryEvent)
    (found : List SearchResult) : Prop where
  called : b'.events =
    (ToolRegistry.call env.session b.events (searchCall env b)).events
  events : b'.events = b.events ++ [first, second]
  begun : first.eventType = .toolCall
  ended : second.eventType = .toolResult ∨ second.eventType = .toolError
  iterations : b'.state.iterations = b.state.iterations + 1
  observations : b'.state.observations = b.state.observations ++ found
  evidence : b'.evidence = b.evidence ++ foundEvidence env b second found
  evidenceIds : b'.state.evidenceIds = b.state.evidenceIds ++
    (foundEvidence env b second found).map Evidence.evidenceId
  asked : b'.asked = b.asked

theorem research_ok (hrun : research env b = .ok b') :
    ∃ first second found, Researched env b b' first second found := by
  have houtcome := ToolRegistry.call_outcome env.session b.events
    (searchCall env b)
  cases htool : env.session.tools.get (searchCall env b).name with
  | none =>
      rw [htool] at houtcome
      simp only at houtcome
      simp only [research, houtcome] at hrun
      contradiction
  | some tool =>
      rw [htool] at houtcome
      rcases houtcome.2 with hcancelled | ⟨hoverflowed, -⟩ |
          ⟨result, hreturned, hone⟩
      · simp only [research, hcancelled] at hrun
        contradiction
      · simp only [research, hoverflowed] at hrun
        contradiction
      · obtain ⟨first, second, hevents, hfirst, hsecond, -⟩ := hone.recorded
        have hlast : ((ToolRegistry.call env.session b.events
            (searchCall env b)).events.getLast?.map
              SessionState.TrajectoryEvent.eventId).toList =
            [second.eventId] := by
          rw [hevents]
          simp
        simp only [research, hreturned, hlast, Except.ok.injEq] at hrun
        subst hrun
        exact ⟨first, second, env.results result, rfl, hevents, hfirst,
          hsecond, rfl, rfl, rfl, rfl, rfl⟩

theorem foundEvidence_sources (env : Environment) (b : Brain)
    (outcome : SessionState.TrajectoryEvent) (found : List SearchResult) :
    (foundEvidence env b outcome found).map (fun e => e.source.sourceId) =
      found.map SearchResult.url := by
  simp [foundEvidence, evidenceOf, List.ext_getElem_iff]

theorem foundEvidence_sound {outcome : SessionState.TrajectoryEvent}
    {events : List SessionState.TrajectoryEvent} (houtcome : outcome ∈ events)
    (htype : outcome.eventType = .toolResult ∨
      outcome.eventType = .toolError)
    {found : List SearchResult} {e : Evidence}
    (he : e ∈ foundEvidence env b outcome found) : e.Sound events := by
  obtain ⟨i, hi, heq⟩ := List.mem_mapIdx.mp he
  subst heq
  exact ⟨rfl, rfl, outcome, houtcome, rfl, htype⟩

theorem Kept.research (h : Kept env b) (hrun : research env b = .ok b') :
    Kept env b' := by
  obtain ⟨first, second, found, hdone⟩ := research_ok hrun
  constructor
  · rw [hdone.called]
    exact h.intact.call _
  · rw [hdone.evidenceIds, hdone.evidence, h.ids, List.map_append]
  · rw [hdone.evidence, hdone.observations, List.map_append,
      List.map_append, h.sources, foundEvidence_sources]
  · rw [hdone.evidence, hdone.events]
    intro e he
    rcases List.mem_append.mp he with hold | hnew
    · exact (h.sound e hold).mono
        (fun event hevent => List.mem_append_left _ hevent)
    · have hmem : second ∈ b.events ++ [first, second] := by simp
      exact foundEvidence_sound hmem hdone.ended hnew

theorem Searched.research (h : Searched b [])
    (hrun : research env b = .ok b') : Searched b' [] := by
  obtain ⟨recorded, hlength, htypes⟩ := h
  obtain ⟨first, second, found, hdone⟩ := research_ok hrun
  rw [List.append_nil] at htypes
  rcases hdone.ended with hresult | herror
  · refine ⟨recorded ++ [true], ?_, ?_⟩
    · simp [hlength, hdone.iterations]
    · simp [hdone.events, htypes, hdone.begun, hresult, searchTypes_append]
  · refine ⟨recorded ++ [false], ?_, ?_⟩
    · simp [hlength, hdone.iterations]
    · simp [hdone.events, htypes, hdone.begun, herror, searchTypes_append]

theorem research_atCompare (h : AtNode env .research b)
    (hrun : research env b = .ok b') : AtNode env .compare b' := by
  obtain ⟨hsearched, hrounds, hasked, hkept⟩ := h
  obtain ⟨first, second, found, hdone⟩ := research_ok hrun
  refine ⟨hsearched.research hrun, ⟨?_, ?_⟩, ?_, hkept.research hrun⟩
  · rw [hdone.iterations]
    omega
  · rw [hdone.iterations]
    push_cast
    omega
  · rw [hdone.asked, hdone.iterations]
    omega

/-- A comparison asks once or twice, and its candidate is of an answer. -/
theorem select_ok {data : PyDict} {candidate : Option PyDict}
    {requests : ℕ} (hrun : select env b = .ok (data, candidate, requests)) :
    1 ≤ requests ∧ requests ≤ 2 ∧
      ∀ c, candidate = some c → Selected env (b.asked + requests) c := by
  unfold select at hrun
  cases hdata : ask env b.asked with
  | error exception =>
      rw [hdata] at hrun
      contradiction
  | ok answer =>
      rw [hdata] at hrun
      simp only [bind, Except.bind] at hrun
      cases hfirst : extractCandidate answer with
      | some found =>
          rw [hfirst] at hrun
          simp only [pure, Except.pure, Except.ok.injEq, Prod.mk.injEq]
            at hrun
          obtain ⟨-, hcandidate, hrequests⟩ := hrun
          subst hcandidate hrequests
          refine ⟨by omega, by omega, ?_⟩
          intro c hc
          rw [← Option.some.inj hc]
          exact ⟨b.asked, by omega, answer, hdata, hfirst⟩
      | none =>
          rw [hfirst] at hrun
          simp only at hrun
          split at hrun
          next =>
            simp only [pure, Except.pure, Except.ok.injEq, Prod.mk.injEq]
              at hrun
            obtain ⟨-, hcandidate, hrequests⟩ := hrun
            subst hcandidate hrequests
            refine ⟨by omega, by omega, ?_⟩
            intro c hc
            contradiction
          next =>
            cases hretry : ask env (b.asked + 1) with
            | error exception =>
                rw [hretry] at hrun
                contradiction
            | ok second =>
                rw [hretry] at hrun
                simp only [pure, Except.pure, Except.ok.injEq,
                  Prod.mk.injEq] at hrun
                obtain ⟨-, hcandidate, hrequests⟩ := hrun
                subst hrequests
                refine ⟨by omega, by omega, ?_⟩
                intro c hc
                rw [← hcandidate] at hc
                exact ⟨b.asked + 1, by omega, second, hretry, hc⟩

theorem Selected.mono {asked later : ℕ} {c : PyDict}
    (h : Selected env asked c) (hle : asked ≤ later) :
    Selected env later c := by
  obtain ⟨place, hplace, hdata⟩ := h
  exact ⟨place, by omega, hdata⟩

theorem Searched.record {later : List SessionState.EventType}
    (h : Searched b later) (eventType : SessionState.EventType) (action : Json)
    (hevents : b'.events = AgentBrain.record env eventType action b.events)
    (hiterations : b'.state.iterations = b.state.iterations) :
    Searched b' (later ++ [eventType]) := by
  obtain ⟨recorded, hlength, htypes⟩ := h
  refine ⟨recorded, hlength.trans hiterations.symm, ?_⟩
  rw [hevents, record_types, htypes, List.append_assoc]

theorem compare_atNext (h : AtNode env .compare b)
    (hrun : compare env b = .ok b') :
    AtNode env (shouldContinueResearch env b'.state) b' := by
  obtain ⟨hsearched, hrounds, hasked, hkept⟩ := h
  unfold compare at hrun
  cases hselect : select env b with
  | error exception =>
      rw [hselect] at hrun
      contradiction
  | ok selected =>
      obtain ⟨data, candidate, requests⟩ := selected
      obtain ⟨-, htwice, hgiven⟩ := select_ok hselect
      rw [hselect] at hrun
      cases hcandidate : candidate with
      | some found =>
          rw [hcandidate] at hrun
          have hstate := (Except.ok.inj hrun).symm
          subst hstate
          refine ⟨hrounds, ?_, hkept.record _ _ rfl rfl rfl rfl,
            hsearched.record _ _ rfl rfl, hgiven found hcandidate⟩
          simp only
          omega
      | none =>
          rw [hcandidate] at hrun
          have hstate := (Except.ok.inj hrun).symm
          subst hstate
          have hkept' : Kept env
              { b with
                state := { b.state with
                  selectedCandidate := none
                  noCandidateReason :=
                    some (env.py.str (data.getD "reason" (.str noReason))) }
                asked := b.asked + requests } :=
            ⟨hkept.intact, hkept.ids, hkept.sources, hkept.sound⟩
          have hbound : b.asked + requests ≤
              1 + 2 * b.state.iterations := by omega
          by_cases hmax : env.maxIterations ≤ b.state.iterations
          · simp only [shouldContinueResearch, Option.isSome_none,
              Bool.false_eq_true, if_false, if_pos hmax]
            exact ⟨hrounds, hbound, hkept', hsearched, hmax⟩
          · simp only [shouldContinueResearch, Option.isSome_none,
              Bool.false_eq_true, if_false, if_neg hmax]
            exact ⟨hsearched, Or.inr (not_le.mp hmax), hbound, hkept'⟩

theorem propose_atFinish (h : AtNode env .propose b)
    (hrun : propose env b = .ok b') : AtNode env .finish b' := by
  obtain ⟨hrounds, hasked, hkept, hselected⟩ := h
  unfold propose at hrun
  cases hcandidate : b.state.selectedCandidate with
  | none =>
      rw [hcandidate] at hrun hselected
      have hstate := (Except.ok.inj hrun).symm
      subst hstate
      exact ⟨hkept.record _ _ rfl rfl rfl rfl, hrounds, hasked,
        hselected.1.record _ _ rfl rfl, hselected.2⟩
  | some candidate =>
      rw [hcandidate] at hrun hselected
      simp only [bind, Except.bind] at hrun
      cases hbuilt : buildProposal env.py env.proposalId b.state.intentId
          env.agentId candidate b.state.evidenceIds
          (b.events.map SessionState.TrajectoryEvent.eventId) with
      | error exception =>
          rw [hbuilt] at hrun
          contradiction
      | ok proposal =>
          rw [hbuilt] at hrun
          have hstate := (Except.ok.inj hrun).symm
          subst hstate
          refine ⟨hkept.record _ _ rfl rfl rfl rfl, hrounds, hasked,
            hselected.1.record _ _ rfl rfl, candidate, hselected.2, ?_⟩
          simp only [record_dropLast]
          exact hbuilt

/-! ## Runs -/

/-- Every node hands on what holds at the next. -/
theorem step_atNode {node : Node} {next : Node × Brain}
    (h : AtNode env node b) (hrun : (graph env).step node b = .ok next) :
    AtNode env next.1 next.2 := by
  cases node with
  | loadIntent =>
      rw [← Except.ok.inj hrun]
      exact loadIntent_atPlan h
  | plan =>
      obtain ⟨after, hafter, hnext⟩ := Fallible.result_bind_eq_ok.mp hrun
      rw [← Except.ok.inj hnext]
      exact plan_atResearch h hafter
  | research =>
      obtain ⟨after, hafter, hnext⟩ := Fallible.result_bind_eq_ok.mp hrun
      rw [← Except.ok.inj hnext]
      exact research_atCompare h hafter
  | compare =>
      obtain ⟨after, hafter, hnext⟩ := Fallible.result_bind_eq_ok.mp hrun
      rw [← Except.ok.inj hnext]
      exact compare_atNext h hafter
  | propose =>
      obtain ⟨after, hafter, hnext⟩ := Fallible.result_bind_eq_ok.mp hrun
      rw [← Except.ok.inj hnext]
      exact propose_atFinish h hafter
  | finish =>
      rw [← Except.ok.inj hrun]
      exact h

theorem compare_iterations (hrun : compare env b = .ok b') :
    b'.state.iterations = b.state.iterations := by
  obtain ⟨selected, -, hdone⟩ := Fallible.result_bind_eq_ok.mp hrun
  obtain ⟨data, candidate, requests⟩ := selected
  cases candidate with
  | some candidate => rw [← Except.ok.inj hdone]
  | none => rw [← Except.ok.inj hdone]

/-- The most rounds that a run makes. -/
def roundLimit (env : Environment) : ℕ := max 1 env.maxIterations.toNat

/-- The most steps to the last node. -/
def stepsLeft (env : Environment) : Node → Brain → ℕ
  | .loadIntent, _ => 2 * roundLimit env + 3
  | .plan, _ => 2 * roundLimit env + 2
  | .research, b => 2 * (roundLimit env - b.state.iterations) + 1
  | .compare, b => 2 * (roundLimit env - b.state.iterations) + 2
  | .propose, _ => 1
  | .finish, _ => 0

/-- Every node leaves fewer steps. -/
theorem stepsLeft_lt {node : Node} {next : Node × Brain}
    (h : AtNode env node b) (hnode : node ≠ .finish)
    (hrun : (graph env).step node b = .ok next) :
    stepsLeft env next.1 next.2 < stepsLeft env node b := by
  cases node with
  | loadIntent =>
      rw [← Except.ok.inj hrun]
      simp [stepsLeft]
  | plan =>
      obtain ⟨after, hafter, hdone⟩ := Fallible.result_bind_eq_ok.mp hrun
      rw [← Except.ok.inj hdone]
      simp only [stepsLeft]
      omega
  | research =>
      obtain ⟨after, hafter, hdone⟩ := Fallible.result_bind_eq_ok.mp hrun
      obtain ⟨first, second, found, hsearch⟩ := research_ok hafter
      have hrounds := h.2.1
      have hlimit : roundLimit env = max 1 env.maxIterations.toNat := rfl
      rw [← Except.ok.inj hdone]
      simp only [stepsLeft, hsearch.iterations]
      omega
  | compare =>
      obtain ⟨after, hafter, hdone⟩ := Fallible.result_bind_eq_ok.mp hrun
      have hsame := compare_iterations hafter
      rw [← Except.ok.inj hdone]
      simp only [shouldContinueResearch]
      split
      · simp only [stepsLeft]
        omega
      · split
        · simp only [stepsLeft]
          omega
        · simp only [stepsLeft, hsame]
          omega
  | propose =>
      obtain ⟨after, hafter, hdone⟩ := Fallible.result_bind_eq_ok.mp hrun
      rw [← Except.ok.inj hdone]
      simp [stepsLeft]
  | finish => contradiction

theorem atNode_initial (env : Environment) (intent : PyDict) :
    AtNode env .loadIntent (initial env intent) := by
  refine ⟨rfl, rfl, rfl, ToolRegistry.intact_nil env.session.lib, rfl, rfl,
    ?_⟩
  intro e he
  contradiction

/-- What an engine that follows the graph returns proposes what a model
selected, or nothing when its rounds are used up, and no walk through the graph
executes more than two nodes for each round and three others. -/
theorem run_outcome {φ : Type} {ainvoke : Engine φ}
    (hfollows : Workflow.Follows ainvoke) (env : Environment)
    (intent : PyDict) :
    (∀ b, run env ainvoke intent = .ok b → Outcome env b) ∧
      ∀ n place,
        (graph env).Walk n (.loadIntent, initial env intent) place →
          n ≤ 2 * roundLimit env + 3 := by
  constructor
  · intro b hrun
    obtain ⟨n, hwalk⟩ := hfollows _ _ _ _ hrun
    exact hwalk.keeps (p := AtNode env)
      (fun node s next h _ hstep => step_atNode h hstep)
      (atNode_initial env intent)
  · intro n place hwalk
    have hlength := hwalk.length_le (p := AtNode env) (r := stepsLeft env)
      (fun node s next h hnode hstep =>
        ⟨step_atNode h hstep, stepsLeft_lt h hnode hstep⟩)
      (atNode_initial env intent)
    have hfirst : stepsLeft env .loadIntent (initial env intent) =
        2 * roundLimit env + 3 := rfl
    dsimp only at hlength
    omega

/-- A library that reads no number. -/
def samplePython : Python where
  str := fun value =>
    match value with
    | .str text => text
    | _ => ""
  upper := fun text => text
  lower := fun text => text
  strip := fun text => text
  decimal := fun _ => none
  floatOfInt := fun _ => none
  floatOfStr := fun _ => none
  int := fun _ => none
  ge := fun _ _ => none

/-- The models plan, find no candidate after the first search, not even when
they are asked again, and select one after the second. -/
def sampleAnswer : ℕ → PyDict
  | 0 => [("plan", .list [.str "Look for providers"])]
  | 1 | 2 => [("reason", .str "No provider yet")]
  | _ => [("candidate", .dict [("purpose", .str "Weather data")])]

def foundPage : ToolRegistry.ToolResult where
  output := .dict []
  trustLevel := some (.str "EXTERNAL")
  sourceType := .str "search"
  contentHash := .str "sha256:page"
  latencyMs := 1
  error := none

def sampleEnvironment : Environment where
  py := samplePython
  session := ToolRegistry.sampleSession 1
  agentId := "agent-1"
  contextIntentId := none
  maxIterations := 2
  answer := fun place => .ok ⟨none, .dict (sampleAnswer place)⟩
  search := fun _ _ => .returned foundPage
  results := fun _ => [⟨"Weather", "https://weather.example", "Forecasts"⟩]
  json := fun _ => .null
  evidenceId := fun place => if place = 0 then "evidence-0" else "evidence-1"
  proposalId := "proposal-1"

def sampleIntent : PyDict := [("intent_id", .str "intent-1")]

/-- The graph is followed for at most twenty-five nodes. -/
def sampleRun : Except (Option Raised) Brain :=
  run sampleEnvironment (fun w => w.follow 25) sampleIntent

/-- Two rounds end with a proposal. -/
theorem sample_outcome :
    ∃ b, sampleRun = .ok b ∧ b.state.iterations = 2 ∧
      b.state.proposal.isSome = true ∧ Outcome sampleEnvironment b := by
  have hrun : ∃ b, sampleRun = .ok b ∧ b.state.iterations = 2 ∧
      b.state.proposal.isSome = true := ⟨_, rfl, rfl, rfl⟩
  obtain ⟨b, hb, hiterations, hproposal⟩ := hrun
  exact ⟨b, hb, hiterations, hproposal,
    (run_outcome (Workflow.follows_follow 25) sampleEnvironment
      sampleIntent).1 b hb⟩

end AgentBrain
end Orvex
