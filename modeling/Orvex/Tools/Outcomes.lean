import Orvex.Memory.Tampering
import Orvex.Tools.Registry

/-!
# One outcome for each call

A call of a registered tool records that it begins and, unless it is
cancelled, one outcome.  The outcome is a result exactly when the returned
value is one that a run gave, as the value that stands for an error would have
been recorded as a result.
-/

namespace Orvex
namespace ToolRegistry

open SessionState (AppendCall EventType verifyChain)

variable {session : Session} {name : String} {place : ℕ}

/-- No attempt follows. -/
def RunOutcome.stops (session : Session) (name : String) (place : ℕ) :
    RunOutcome → Bool
  | .cancelled => true
  | .raised _ => false
  | .returned result => (resultEvent session name place result).toBool

/-! ## The attempts -/

/-- What the attempts from a number on, with so many left, are said to end
with. -/
def Loop.Ends (session : Session) (name : String) (place left attempt : ℕ)
    (outcome : ℕ → RunOutcome) (loop : Loop) : Prop :=
  match loop.ended with
  | .recorded result event =>
      resultEvent session name place result = .ok event ∧
        ∃ run < loop.runs, outcome run = .returned result
  | .cancelled => True
  | .overflowed => loop.runs < left ∧ 1024 < attempt + loop.runs
  | .failed _ =>
      ∀ run < loop.runs, (outcome run).stops session name place = false

theorem Loop.Ends.after {left attempt : ℕ} {outcome : ℕ → RunOutcome}
    {loop : Loop} (hfirst : (outcome 0).stops session name place = false)
    (h : loop.Ends session name place left (attempt + 1)
      (fun run => outcome (run + 1))) :
    loop.after.Ends session name place (left + 1) attempt outcome := by
  unfold Loop.Ends Loop.after at *
  cases hended : loop.ended with
  | recorded result event =>
      rw [hended] at h
      obtain ⟨hevent, run, hrun, houtcome⟩ := h
      exact ⟨hevent, run + 1, Nat.succ_lt_succ hrun, houtcome⟩
  | cancelled => trivial
  | overflowed =>
      rw [hended] at h
      have hleft : loop.runs < left := h.1
      have hattempt : 1024 < attempt + 1 + loop.runs := h.2
      constructor
      · dsimp only
        omega
      · dsimp only
        omega
  | failed lastError =>
      rw [hended] at h
      intro run hrun
      cases run with
      | zero => exact hfirst
      | succ run => exact h run (Nat.lt_of_succ_lt_succ hrun)

/-- A failed attempt ends the call where the delay overflows, and else leads
to the attempts that are left. -/
theorem ends_of_failed {left attempt : ℕ} {outcome : ℕ → RunOutcome}
    {rest : Loop} (hfirst : (outcome 0).stops session name place = false)
    (h : rest.Ends session name place left (attempt + 1)
      (fun run => outcome (run + 1))) :
    (if delayOverflows left attempt then ⟨1, .overflowed⟩
      else rest.after : Loop).Ends session name place (left + 1) attempt
        outcome := by
  cases hdelay : delayOverflows left attempt with
  | true =>
      have hboth := Bool.and_eq_true_iff.mp hdelay
      have hleft : 0 < left := of_decide_eq_true hboth.1
      have hattempt : 1024 ≤ attempt := Backoff.overflows_iff.mp hboth.2
      exact ⟨Nat.succ_lt_succ hleft, Nat.lt_succ_of_le hattempt⟩
  | false => exact h.after hfirst

theorem ends_attempts (left attempt : ℕ) (outcome : ℕ → RunOutcome)
    (lastError : Option ToolException) :
    (attempts session name place left attempt outcome lastError).Ends session
      name place left attempt outcome := by
  induction left generalizing attempt outcome lastError with
  | zero =>
      intro run hrun
      exact absurd hrun (Nat.not_lt_zero run)
  | succ left ih =>
      cases houtcome : outcome 0 with
      | cancelled =>
          simp only [attempts, houtcome]
          trivial
      | raised exception =>
          simp only [attempts, houtcome]
          apply ends_of_failed
          · rw [houtcome]
            rfl
          · exact ih (attempt + 1) _ (some exception)
      | returned result =>
          cases hevent : resultEvent session name place result with
          | ok event =>
              simp only [attempts, houtcome, hevent]
              exact ⟨hevent, 0, Nat.one_pos, houtcome⟩
          | error exception =>
              simp only [attempts, houtcome, hevent]
              apply ends_of_failed
              · rw [houtcome]
                simp [RunOutcome.stops, hevent, Except.toBool]
              · exact ih (attempt + 1) _ (some exception)

theorem runs_attempts_le (left attempt : ℕ) (outcome : ℕ → RunOutcome)
    (lastError : Option ToolException) :
    (attempts session name place left attempt outcome lastError).runs ≤
      left := by
  induction left generalizing attempt outcome lastError with
  | zero => exact Nat.le_refl 0
  | succ left ih =>
      have hfailed : ∀ exception, (if delayOverflows left attempt
          then ⟨1, .overflowed⟩
          else (attempts session name place left (attempt + 1)
            (fun run => outcome (run + 1)) (some exception)).after :
              Loop).runs ≤ left + 1 := by
        intro exception
        split
        · exact Nat.succ_le_succ (Nat.zero_le left)
        · exact Nat.succ_le_succ (ih (attempt + 1) _ (some exception))
      cases houtcome : outcome 0 with
      | cancelled =>
          simp only [attempts, houtcome]
          exact Nat.succ_le_succ (Nat.zero_le left)
      | raised exception =>
          simp only [attempts, houtcome]
          exact hfailed exception
      | returned result =>
          cases hevent : resultEvent session name place result with
          | ok event =>
              simp only [attempts, houtcome, hevent]
              exact Nat.succ_le_succ (Nat.zero_le left)
          | error exception =>
              simp only [attempts, houtcome, hevent]
              exact hfailed exception

/-- The value that stands for an error would be recorded as a result. -/
theorem errorResult_accepted (lastError : Option ToolException) :
    (resultEvent session name place
      (errorResult session name lastError)).toBool = true := by
  have hlevel : levelNamed (.str "UNKNOWN") = some .unknown := by decide
  simp [resultEvent, errorResult, hlevel, requireRef, Except.toBool]

/-! ## The events of a call -/

variable {events : List SessionState.TrajectoryEvent}

/-- One event is added, with these fields. -/
theorem append_eq (lib : SessionState.Library)
    (context : SessionState.ExecutionContext)
    (events : List SessionState.TrajectoryEvent) (added : AppendCall) :
    ∃ event, SessionState.append lib context events added =
        events ++ [event] ∧
      event.eventType = added.eventType ∧ event.sequence = events.length :=
  ⟨_, rfl, rfl, rfl⟩

theorem resultEvent_type {result : ToolResult} {event : AppendCall}
    (h : resultEvent session name place result = .ok event) :
    event.eventType = .toolResult := by
  unfold resultEvent at h
  split at h
  · cases h
  · split at h
    · rw [← Except.ok.inj h]
    · cases h

/-- The call adds that it begins and one outcome, which is a result exactly
when a run of the call gave the returned value. -/
structure OneOutcome (invocation : Invocation)
    (events : List SessionState.TrajectoryEvent) (made : Call)
    (result : ToolResult) : Prop where
  recorded : ∃ first second, made.events = events ++ [first, second] ∧
    first.eventType = .toolCall ∧
    (second.eventType = .toolResult ∨ second.eventType = .toolError) ∧
    (second.eventType = .toolResult ↔
      ∃ run < made.runs, invocation.outcome run = .returned result)

/-- A call leaves one outcome unless it is cancelled or a delay overflows, and
it runs its tool within the budget.  A name that is not registered leaves the
buffer. -/
theorem call_outcome (session : Session)
    (events : List SessionState.TrajectoryEvent)
    (invocation : Invocation) :
    match session.tools.get invocation.name with
    | none => call session events invocation = ⟨events, 0, .unknownTool⟩
    | some tool =>
        (call session events invocation).runs ≤ budget tool ∧
          ((call session events invocation).ended = .cancelled ∨
            ((call session events invocation).ended = .overflowError ∧
              1024 < tool.maxRetries) ∨
            ∃ result,
              (call session events invocation).ended = .returned result ∧
                OneOutcome invocation events
                  (call session events invocation) result) := by
  cases htool : session.tools.get invocation.name with
  | none => simp only [call, htool]
  | some tool =>
      obtain ⟨first, hbegun, hfirst, -⟩ := append_eq session.lib
        session.context events (callEvent session invocation events.length)
      have hends := @ends_attempts session invocation.name
        (events ++ [first]).length (budget tool) 0 invocation.outcome none
      have hruns := @runs_attempts_le session invocation.name
        (events ++ [first]).length (budget tool) 0 invocation.outcome none
      simp only [call, htool, hbegun]
      cases hloop : (attempts session invocation.name
          (events ++ [first]).length (budget tool) 0 invocation.outcome
            none).ended with
      | cancelled => exact ⟨hruns, Or.inl rfl⟩
      | overflowed =>
          unfold Loop.Ends at hends
          rw [hloop] at hends
          have hbudget : 1024 + 1 < budget tool := by
            have hattempts := hends.2
            rw [Nat.zero_add] at hattempts
            exact Nat.lt_of_le_of_lt hattempts hends.1
          refine ⟨hruns, Or.inr (Or.inl ⟨rfl, ?_⟩)⟩
          unfold budget at hbudget
          omega
      | recorded result event =>
          unfold Loop.Ends at hends
          rw [hloop] at hends
          obtain ⟨hevent, hgiven⟩ := hends
          obtain ⟨second, happended, hsecond, -⟩ := append_eq session.lib
            session.context (events ++ [first]) event
          refine ⟨hruns, Or.inr (Or.inr ⟨result, rfl, ⟨first, second, ?_,
            hfirst, ?_, ?_⟩⟩)⟩
          · dsimp only
            rw [happended, List.append_assoc]
            rfl
          · exact Or.inl (hsecond.trans (resultEvent_type hevent))
          · exact iff_of_true (hsecond.trans (resultEvent_type hevent))
              hgiven
      | failed lastError =>
          unfold Loop.Ends at hends
          rw [hloop] at hends
          obtain ⟨second, happended, hsecond, -⟩ := append_eq session.lib
            session.context (events ++ [first])
            (errorEvent session invocation.name (events ++ [first]).length
              lastError)
          have herror : second.eventType = .toolError := hsecond
          refine ⟨hruns, Or.inr (Or.inr ⟨_, rfl, ⟨first, second, ?_, hfirst,
            Or.inr herror, ?_⟩⟩)⟩
          · dsimp only
            rw [happended, List.append_assoc]
            rfl
          · refine iff_of_false ?_ ?_
            · rw [herror]
              decide
            · intro hgiven
              obtain ⟨run, hrun, houtcome⟩ := hgiven
              have hnot := hends run hrun
              rw [houtcome, RunOutcome.stops, errorResult_accepted] at hnot
              cases hnot

/-! ## The buffer -/

/-- The chain verifies and the sequences are the places of the events. -/
structure Intact (lib : SessionState.Library)
    (events : List SessionState.TrajectoryEvent) : Prop where
  chain : verifyChain lib events = true
  sequences : ∀ (place : ℕ) (event : SessionState.TrajectoryEvent),
    events[place]? = some event → event.sequence = place

theorem intact_nil (lib : SessionState.Library) : Intact lib [] := by
  refine ⟨rfl, ?_⟩
  intro place event h
  cases h

/-- An appended event keeps the buffer intact. -/
theorem Intact.append {lib : SessionState.Library}
    (h : Intact lib events) (context : SessionState.ExecutionContext)
    (added : AppendCall) :
    Intact lib (SessionState.append lib context events added) := by
  refine ⟨SessionState.verifyChain_append h.chain added, ?_⟩
  obtain ⟨event, happended, -, hsequence⟩ := append_eq lib context events
    added
  intro place found hfound
  rw [happended] at hfound
  by_cases hplace : place < events.length
  · rw [List.getElem?_append_left hplace] at hfound
    exact h.sequences place found hfound
  · have hlt := (List.getElem?_eq_some_iff.mp hfound).1
    rw [List.length_append, List.length_singleton] at hlt
    have heq : place = events.length := by omega
    rw [heq, List.getElem?_concat_length] at hfound
    rw [← Option.some.inj hfound, hsequence, heq]

theorem Intact.call (h : Intact session.lib events)
    (invocation : Invocation) :
    Intact session.lib (call session events invocation).events := by
  unfold ToolRegistry.call
  split
  · exact h
  · dsimp only
    split
    · exact (h.append session.context _).append session.context _
    · exact h.append session.context _
    · exact h.append session.context _
    · exact (h.append session.context _).append session.context _

theorem intact_run (session : Session) (uses : List Use) :
    Intact session.lib (run session uses) := by
  unfold run
  have hfold : ∀ events, Intact session.lib events →
      Intact session.lib (uses.foldl (eventsAfter session) events) := by
    induction uses with
    | nil => exact fun events h => h
    | cons use rest ih =>
        intro events h
        rw [List.foldl_cons]
        apply ih
        cases use with
        | call invocation => exact h.call invocation
        | other event => exact h.append session.context event
  exact hfold [] (intact_nil session.lib)

theorem run_append_singleton (session : Session) (uses : List Use)
    (invocation : Invocation) :
    run session (uses ++ [.call invocation]) =
      (call session (run session uses) invocation).events := by
  rw [run, List.foldl_append]
  rfl

/-- In every sequence of calls on one buffer, with events of other components
between them, each call of a registered tool with at most 1024 retries that is
not cancelled leaves one outcome, and the buffer stays intact. -/
theorem one_outcome_for_each_call (session : Session) (uses : List Use) :
    Intact session.lib (run session uses) ∧
      ∀ before invocation after tool,
        uses = before ++ .call invocation :: after →
        session.tools.get invocation.name = some tool →
        tool.maxRetries ≤ 1024 →
        let made := call session (run session before) invocation
        run session (before ++ [.call invocation]) = made.events ∧
          made.runs ≤ budget tool ∧
          (made.ended = .cancelled ∨ ∃ result,
            made.ended = .returned result ∧
              OneOutcome invocation (run session before) made result) := by
  refine ⟨intact_run session uses, ?_⟩
  intro before invocation after tool _ htool hretries
  have houtcome := call_outcome session (run session before) invocation
  rw [htool] at houtcome
  refine ⟨run_append_singleton session before invocation, houtcome.1, ?_⟩
  rcases houtcome.2 with hcancelled | hoverflowed | hreturned
  · exact Or.inl hcancelled
  · exact absurd hoverflowed.2 (not_lt.mpr hretries)
  · exact Or.inr hreturned

/-! ## Calls without an outcome -/

theorem Loop.ended_after (loop : Loop) : loop.after.ended = loop.ended := rfl

/-- Where every run raises, the delay after the attempt with number 1024
overflows unless that attempt is the last one. -/
theorem attempts_overflow {exception : ToolException}
    {left attempt : ℕ} {lastError : Option ToolException}
    (hattempt : attempt ≤ 1024) (hleft : 1024 + 1 < attempt + left) :
    (attempts session name place left attempt (fun _ => .raised exception)
      lastError).ended = .overflowed := by
  induction left generalizing attempt lastError with
  | zero => omega
  | succ left ih =>
      unfold attempts
      by_cases hlast : attempt = 1024
      · have hdelay : delayOverflows left attempt = true := by
          apply Bool.and_eq_true_iff.mpr
          constructor
          · exact decide_eq_true (by omega)
          · exact Backoff.overflows_iff.mpr hlast.ge
        rw [hdelay]
        rfl
      · have hdelay : delayOverflows left attempt = false := by
          apply Bool.and_eq_false_iff.mpr
          right
          apply Bool.eq_false_iff.mpr
          intro hoverflows
          have hle := Backoff.overflows_iff.mp hoverflows
          omega
        simp only [hdelay, Bool.false_eq_true, if_false, Loop.ended_after]
        apply ih
        · omega
        · omega

/-- With more than 1024 retries, a call whose runs all raise leaves one event
and ends with the overflow of a delay. -/
theorem call_overflows {exception : ToolException}
    {events : List SessionState.TrajectoryEvent} {invocation : Invocation}
    {tool : ToolSpec}
    (htool : session.tools.get invocation.name = some tool)
    (hretries : 1024 < tool.maxRetries)
    (hraises : invocation.outcome = fun _ => .raised exception) :
    (call session events invocation).ended = .overflowError ∧
      (call session events invocation).events.length = events.length + 1 := by
  obtain ⟨first, hbegun, -, -⟩ := append_eq session.lib session.context
    events (callEvent session invocation events.length)
  have hbudget : 1024 + 1 < 0 + budget tool := by
    unfold budget
    omega
  have hloop : (attempts session invocation.name (events ++ [first]).length
      (budget tool) 0 invocation.outcome none).ended = .overflowed := by
    rw [hraises]
    exact attempts_overflow (Nat.zero_le 1024) hbudget
  simp only [call, htool, hbegun, hloop]
  exact ⟨trivial, List.length_append⟩

def unknownInvocation : Invocation :=
  ⟨"nope", .object [], fun _ => .cancelled⟩

def raisingInvocation : Invocation :=
  ⟨"search", .object [], fun _ => .raised ⟨"ValueError", ""⟩⟩

/-- A session with one tool that is tried again so often. -/
def sampleSession (maxRetries : ℤ) : Session where
  lib := SessionState.sampleLibrary
  context := SessionState.sampleContext
  tools := Entries.empty.set "search" ⟨"search", maxRetries⟩
  stamp := fun _ => ("", "")
  attributeError := ⟨"AttributeError", ""⟩
  validationError := ⟨"ValidationError", ""⟩

/-- A call with an unknown name ends without an event, and a call whose delay
overflows ends with one event. -/
theorem calls_without_outcome :
    ((call (sampleSession 0) [] unknownInvocation).ended = .unknownTool ∧
      (call (sampleSession 0) [] unknownInvocation).events = []) ∧
    ((call (sampleSession 1025) [] raisingInvocation).ended =
        .overflowError ∧
      (call (sampleSession 1025) [] raisingInvocation).events.length =
        1) := by
  constructor
  · exact ⟨rfl, rfl⟩
  · have htool : (sampleSession 1025).tools.get raisingInvocation.name =
        some ⟨"search", 1025⟩ := by
      simp [sampleSession, raisingInvocation]
    exact call_overflows htool (by norm_num) rfl

end ToolRegistry
end Orvex
