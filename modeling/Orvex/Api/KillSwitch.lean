import Orvex.Api.Minted

/-!
# What cannot be authorised

A decision is recorded and an execution is minted only for an agent that is
active and has a usable capability.  No route grants a capability, and only
one wakes an agent: over any run of other calls, a stopped agent gets neither.
-/

namespace Orvex

open Fallible (Keeps keeps_pure keeps_query keeps_fail)

/-! ## The records of an agent -/

/-- The executions of an agent, as they are identified. -/
def executionsOf (companyId agentId : String) (db : Database) :
    List ExecutionRequestRecord :=
  (db.executionRequests.map ExecutionRequestRecord.identity).filter
    (fun request => request.companyId = companyId ∧ request.agentId = agentId)

def decisionsOf (companyId agentId : String) (db : Database) :
    List Decision :=
  db.decisions.filter (fun decision =>
    decision.companyId = companyId ∧ decision.agentId = agentId)

/-- The agent is active, with a constitution and a usable capability. -/
structure Ready (companyId agentId : String) (now : ℤ) (db : Database) :
    Prop where
  agent : ∃ agent, Agents.getAgent companyId agentId db = some agent ∧
    agent.status = .active
  constitution :
    Constitutions.getActiveConstitution companyId agentId db ≠ none
  capability :
    Capabilities.getActiveCapabilities companyId agentId now db ≠ []

section

variable {companyId agentId : String} {rt : Runtime} {db : Database}

theorem ready_of_resolved {input : Revalidation.RevalidateInput} {now : ℤ}
    {state : Revalidation.Resolved}
    (hresolve : Revalidation.resolve rt input now db = .ok state)
    (hcleared : DecisionEngine.Cleared
      (Revalidation.decisionInput rt input state now db)) :
    Ready input.companyId input.agentId now db := by
  obtain ⟨hagent, hconstitution, hcapability, _⟩ :=
    Revalidation.resolve_eq_ok hresolve
  obtain ⟨agent, hfound, hactive⟩ :=
    (Option.any_eq_true _ _).mp hcleared.agent
  obtain ⟨capability, hcap⟩ :=
    Option.isSome_iff_exists.mp hcleared.capability
  rw [hfound] at hagent hcapability
  refine ⟨⟨agent, hagent.symm, of_decide_eq_true hactive⟩, ?_, ?_⟩
  · have hsome := hcleared.constitution
    intro hnone
    rw [show (Revalidation.decisionInput rt input state now
      db).constitutionCompatible = state.constitution.isSome from rfl,
      hconstitution, hnone] at hsome
    contradiction
  · intro hnil
    rw [hcap, hnil] at hcapability
    simp at hcapability

theorem executionsOf_of_ends {input : Revalidation.RevalidateInput}
    {now : ℤ} {ids : Revalidation.MintIds} {db' : Database}
    (hready : ¬ Ready companyId agentId now db)
    (hends : Revalidation.Ends rt input now ids db db') :
    executionsOf companyId agentId db' = executionsOf companyId agentId db := by
  cases hends with
  | quiet records accounts hbooked => rfl
  | stopped records accounts hbooked res hreserves hrefused => rfl
  | minted records accounts hbooked res state hreserves hresolve hcleared
      hnone hnew =>
      have hother : ¬ (input.companyId = companyId ∧
          input.agentId = agentId) := by
        rintro ⟨rfl, rfl⟩
        exact hready (ready_of_resolved hresolve hcleared)
      change ((db.executionRequests ++ [_]).map _).filter _ = _
      rw [List.map_append, List.filter_append]
      have hnil : List.filter (fun request : ExecutionRequestRecord =>
          decide (request.companyId = companyId ∧
            request.agentId = agentId))
          [(Revalidation.newRequest rt input state.policy now
            ids.executionRequest).identity] = [] := by
        rw [List.filter_cons_of_neg]
        · rfl
        · rw [decide_eq_true_eq]
          exact hother
      exact (congrArg _ hnil).trans (List.append_nil _)

theorem executionsOf_recordsKept (requests : List ExecutionRequestRecord) :
    RecordsKept (fun db =>
      executionsOf companyId agentId db = requests) := by
  refine RecordsKept.of_ledger (p := fun rows =>
    (rows.2.2.2.map ExecutionRequestRecord.identity).filter
      (fun request => request.companyId = companyId ∧
        request.agentId = agentId) = requests) ?_ ?_ ?_
  · exact fun _ _ _ _ h => h
  · exact fun _ _ _ _ h => h
  · intro p change db hsame h
    have hrows := KeyedTable.map_changed hsame p db.executionRequests
    rw [← h]
    exact congrArg (List.filter (fun request : ExecutionRequestRecord =>
      decide (request.companyId = companyId ∧ request.agentId = agentId)))
      hrows

namespace Api

theorem executionsOf_step {call : Call}
    (hready : ¬ Ready companyId agentId call.now db) :
    executionsOf companyId agentId (call.step rt db) =
      executionsOf companyId agentId db := by
  refine Call.step_keeps (executionsOf_recordsKept _) (fun body ids _ => ?_)
    rfl
  exact executionsOf_of_ends hready
    (Revalidation.revalidate_ends rt _ _ _ db)

theorem ready_of_orchestrate {auth : AuthContext} {body : DecisionBody}
    {now : ℤ} {context : Orchestrator.DecisionContext}
    (hcontext : Orchestrator.orchestrate rt providers
      (orchestrateInput auth body) now db = .ok context) :
    Ready auth.companyId body.agentId now db := by
  obtain ⟨agent, capability, policyId, version, rules, events, hassembled⟩ :=
    Orchestrator.assembled_of_orchestrate hcontext
  refine ⟨⟨agent, hassembled.agent_row, hassembled.agent_active⟩, ?_, ?_⟩
  · obtain ⟨constitution, hconstitution⟩ := hassembled.constitution
    intro hnone
    have hfound := hnone.symm.trans hconstitution
    contradiction
  · intro hnil
    have hfirst := hassembled.capability_first
    rw [show Capabilities.getActiveCapabilities
      (orchestrateInput auth body).companyId
      (orchestrateInput auth body).agentId now db = [] from hnil] at hfirst
    contradiction

/-- The decision that is recorded is one of the agent of the body, which the
orchestrator has found ready. -/
theorem decisionsOf_postDecisions {auth : AuthContext} {body : DecisionBody}
    {now : ℤ} {ids : DecisionIds}
    (hready : ¬ Ready companyId agentId now db) :
    decisionsOf companyId agentId (postDecisions rt auth body now ids db).2 =
      decisionsOf companyId agentId db := by
  unfold postDecisions
  rcases reading_bind_cases (Orchestrator.orchestrate rt providers
    (orchestrateInput auth body) now) _ db with
    ⟨failure, _, hend⟩ | ⟨context, hcontext, hnext⟩
  · rw [hend]
  · rw [hnext]
    have hother : ¬ (auth.companyId = companyId ∧
        body.agentId = agentId) := by
      rintro ⟨rfl, rfl⟩
      exact hready (ready_of_orchestrate hcontext)
    have hrecord : Keeps (fun state => decisionsOf companyId agentId state =
        decisionsOf companyId agentId db)
        (Decisions.record (persistInput auth body context
          (decisionOutput body context.policyEvaluation)
          (decisionHash rt body context.policyEvaluation))
          ids.decision) := by
      refine Table.keeps_create (fun state hstate _ => ?_)
      refine Eq.trans ?_ hstate
      change List.filter _ (state.decisions ++ [_]) = _
      rw [List.filter_append, List.filter_cons_of_neg]
      · exact List.append_nil _
      · rw [decide_eq_true_eq]
        exact hother
    have happroval : ∀ decision, Keeps
        (fun state => decisionsOf companyId agentId state =
          decisionsOf companyId agentId db)
        (requestApproval auth body decision
          (decisionOutput body context.policyEvaluation)
          (decisionHash rt body context.policyEvaluation) now
          ids.approval) := by
      intro decision
      unfold requestApproval
      refine Keeps.ite ?_ (keeps_pure _)
      refine Keeps.bind ?_ (fun _ => keeps_pure _)
      refine Keeps.bind (keeps_query _) (fun found => ?_)
      cases found with
      | none => exact keeps_fail _
      | some row => exact Table.keeps_create (fun _ h _ => h)
    refine (hrecord.bind (fun decision => ?_)) db rfl
    exact (happroval decision).bind (fun _ => keeps_pure _)

theorem decisionsOf_step {call : Call}
    (hready : ¬ Ready companyId agentId call.now db) :
    decisionsOf companyId agentId (call.step rt db) =
      decisionsOf companyId agentId db := by
  by_cases hoperation : ∃ body ids, call.operation = .createDecision body ids
  · obtain ⟨body, ids, hoperation⟩ := hoperation
    have hstep : call.step rt db =
        (postDecisions rt call.auth body call.now ids db).2 := by
      simp only [Call.step, Call.perform, hoperation, discard_state]
    rw [hstep]
    exact decisionsOf_postDecisions hready
  · have hspares : call.operation.Spares Database.decisions := by
      cases hcase : call.operation with
      | createDecision body ids =>
          exact absurd ⟨body, ids, hcase⟩ hoperation
      | _ =>
          -- the other routes do not write decisions
          repeat' first
            | exact fun _ _ => rfl
            | exact fun _ _ _ => rfl
            | refine ⟨?_, ?_⟩
    unfold decisionsOf
    rw [Call.step_spares hspares]

/-- Where no call finds the agent ready, the run records nothing for it. -/
theorem run_unready {calls : List Call}
    (hready : ∀ before call, before ++ [call] <+: calls →
      ¬ Ready companyId agentId call.now (run rt before db)) :
    executionsOf companyId agentId (run rt calls db) =
        executionsOf companyId agentId db ∧
      decisionsOf companyId agentId (run rt calls db) =
        decisionsOf companyId agentId db := by
  induction calls generalizing db with
  | nil => exact ⟨rfl, rfl⟩
  | cons call rest ih =>
      have hfirst := hready [] call (by simp)
      have hrest := @ih (call.step rt db) (fun before later hlater =>
        hready (call :: before) later (by simpa using hlater))
      exact ⟨hrest.1.trans (executionsOf_step hfirst),
        hrest.2.trans (decisionsOf_step hfirst)⟩

/-! ## Agents without a capability -/

theorem capabilities_step (call : Call) :
    (call.step rt db).capabilities = db.capabilities := by
  have hspares : call.operation.Spares Database.capabilities := by
    cases call.operation with
    | _ =>
        -- no route writes capabilities
        repeat' first
          | exact fun _ _ => rfl
          | exact fun _ _ _ => rfl
          | refine ⟨?_, ?_⟩
  exact Call.step_spares hspares db

theorem run_capabilities (calls : List Call) :
    (run rt calls db).capabilities = db.capabilities := by
  induction calls generalizing db with
  | nil => rfl
  | cons call rest ih =>
      exact (@ih (call.step rt db)).trans (capabilities_step call)

/-- No run of calls authorises anything for an agent that holds no
capability: none can be granted. -/
theorem run_ungranted (rt : Runtime) (calls : List Call) (db : Database)
    (companyId agentId : String)
    (hnone : ∀ capability ∈ db.capabilities,
      ¬ (capability.companyId = companyId ∧ capability.agentId = agentId)) :
    executionsOf companyId agentId (run rt calls db) =
        executionsOf companyId agentId db ∧
      decisionsOf companyId agentId (run rt calls db) =
        decisionsOf companyId agentId db := by
  refine run_unready (fun before call _ hready => hready.capability ?_)
  unfold Capabilities.getActiveCapabilities
  rw [run_capabilities, List.filter_eq_nil_iff.mpr]
  · rfl
  · intro capability hmem hsome
    rw [decide_eq_true_eq] at hsome
    exact hnone capability hmem ⟨hsome.1, hsome.2.1⟩

end Api

end

namespace Api

theorem sample_ungranted :
    executionsOf "acme" "agent-1" (run .reference [samplePrepare]
        { Revalidation.sampleDatabase [] with capabilities := [] }) = [] ∧
      decisionsOf "acme" "agent-1" (run .reference [samplePrepare]
        { Revalidation.sampleDatabase [] with capabilities := [] }) = [] :=
  run_ungranted .reference [samplePrepare] _ "acme" "agent-1"
    (fun _ hmem => absurd hmem List.not_mem_nil)

end Api

/-! ## Stopped agents -/

/-- No row with this id is active. -/
def Stopped (agentId : String) (db : Database) : Prop :=
  ∀ agent ∈ db.agents, agent.id = agentId → agent.status ≠ .active

namespace Stopped

variable {agentId : String}

theorem modify {db : Database} (h : Stopped agentId db) {id : String}
    {change : Agent → Agent} (hid : ∀ agent, (change agent).id = agent.id)
    (hstatus : id ≠ agentId ∨
      ∀ agent, (change agent).status = .active → agent.status = .active) :
    Stopped agentId (agentTable.modify id change db) := by
  intro agent hmem hsame hactive
  change agent ∈ KeyedTable.modify Agent.id id change db.agents at hmem
  obtain ⟨old, hold, hchanged⟩ := List.mem_map.mp hmem
  by_cases hold_id : old.id = id
  · rw [if_pos hold_id] at hchanged
    subst hchanged
    rw [hid] at hsame
    rcases hstatus with hother | hback
    · exact hother (hold_id.symm.trans hsame)
    · exact h old hold hsame (hback old hactive)
  · rw [if_neg hold_id] at hchanged
    subst hchanged
    exact h old hold hsame hactive

theorem keeps_update (missing : Failure) {id : String}
    {change : Agent → Agent} (hid : ∀ agent, (change agent).id = agent.id)
    (hstatus : id ≠ agentId ∨
      ∀ agent, (change agent).status = .active → agent.status = .active) :
    Keeps (Stopped agentId) (agentTable.update missing id change) :=
  Table.keeps_update (fun _ h => h.modify hid hstatus)

theorem keeps_createAgent (input : Agents.CreateAgentInput) (uuid : String) :
    Keeps (Stopped agentId) (Agents.createAgent input uuid) := by
  unfold Agents.createAgent
  refine Keeps.ite (keeps_fail _) ?_
  refine Keeps.bind (keeps_query _) (fun known => ?_)
  refine Keeps.ite ?_ (keeps_fail _)
  refine Keeps.bind (Keeps.attempt (Table.keeps_create
    (fun db h _ => ?_))) (fun created => ?_)
  · intro agent hmem hid
    rcases List.mem_append.mp hmem with hold | hnew
    · exact h agent hold hid
    · rw [List.mem_singleton.mp hnew]
      exact fun hcreated => AgentStatus.noConfusion hcreated
  · cases created with
    | ok agent => exact keeps_pure _
    | error failure => exact keeps_fail _

theorem keeps_transition (companyId id : String) {status : AgentStatus}
    (hstatus : id ≠ agentId ∨ status ≠ .active) :
    Keeps (Stopped agentId) (Agents.transition companyId id status) := by
  refine Keeps.bind (keeps_reading _) (fun _ => ?_)
  refine keeps_update _ (fun _ => rfl) (hstatus.imp_right ?_)
  exact fun hne _ hactive => absurd hactive hne

theorem keeps_activateConstitution (companyId constitutionId : String)
    (now : ℤ) :
    Keeps (Stopped agentId)
      (Constitutions.activateConstitution companyId constitutionId now) := by
  refine Keeps.transaction ?_
  refine Keeps.bind (keeps_query _) (fun found => ?_)
  cases found with
  | none => exact keeps_fail _
  | some target =>
      simp only
      refine Keeps.ite (keeps_fail _) ?_
      refine Keeps.bind (Fallible.keeps_change (fun _ h => h)) (fun _ => ?_)
      refine Keeps.bind (Table.keeps_update (fun _ h => h))
        (fun activated => ?_)
      refine Keeps.bind ?_ (fun _ => keeps_pure _)
      exact keeps_update _ (fun _ => rfl) (.inr (fun _ hactive => hactive))

theorem keeps_repointAgent (companyId policyId : String) :
    Keeps (Stopped agentId) (Api.repointAgent companyId policyId) := by
  refine Keeps.bind (keeps_query _) (fun found => ?_)
  cases found with
  | none => exact keeps_pure _
  | some policy =>
      refine Keeps.ite ?_ (keeps_pure _)
      refine Keeps.bind ?_ (fun _ => keeps_pure _)
      exact keeps_update _ (fun _ => rfl) (.inr (fun _ hactive => hactive))

end Stopped

namespace Api

/-- The call asks to make the agent active. -/
def Operation.wakes (agentId : String) : Operation → Prop
  | .updateAgent id status => id = agentId ∧ status = some "ACTIVE"
  | _ => False

section

variable {agentId : String} {rt : Runtime}

theorem keeps_stopped_patchAgent (auth : AuthContext) {id : String}
    {status : Option String}
    (hquiet : ¬ (Operation.updateAgent id status).wakes agentId) :
    Keeps (Stopped agentId) (patchAgent auth id status) := by
  have hstatus : Keeps (Stopped agentId)
      (statusTransition auth.companyId id (status.getD "")) := by
    have hother : ∀ target, target ≠ AgentStatus.active →
        Keeps (Stopped agentId)
          (Agents.transition auth.companyId id target) :=
      fun target hne => Stopped.keeps_transition _ _ (.inr hne)
    unfold statusTransition
    split
    next hactive =>
      refine Stopped.keeps_transition _ _ (.inl (fun hid => hquiet ?_))
      cases status with
      | none => exact absurd hactive (by decide)
      | some text => exact ⟨hid, congrArg some hactive⟩
    next =>
      exact Keeps.ite (hother .paused (by decide))
        (Keeps.ite (hother .suspended (by decide))
          (Keeps.ite (hother .disabled (by decide)) (keeps_fail _)))
  refine (keeps_requireRole _ _).bind (fun _ => ?_)
  refine Keeps.bind (keeps_reading _) (fun _ => ?_)
  exact Keeps.ite (hstatus.bind (fun _ => keeps_reading _))
    (keeps_reading _)

theorem stopped_step {call : Call} {db : Database}
    (hquiet : ¬ call.operation.wakes agentId) (h : Stopped agentId db) :
    Stopped agentId (call.step rt db) := by
  have hspared : call.operation.Spares Database.agents →
      Stopped agentId (call.step rt db) := by
    intro hspares
    unfold Stopped
    rw [Call.step_spares hspares]
    exact h
  cases hoperation : call.operation with
  | createAgent body uuid =>
      have hroute : Keeps (Stopped agentId)
          (postAgents call.auth body uuid) :=
        (keeps_requireRole _ _).bind
          (fun _ => Stopped.keeps_createAgent _ _)
      simp only [Call.step, Call.perform, hoperation, discard_state]
      exact hroute db h
  | updateAgent id status =>
      rw [hoperation] at hquiet
      simp only [Call.step, Call.perform, hoperation, discard_state]
      exact keeps_stopped_patchAgent call.auth hquiet db h
  | activateConstitution constitutionId =>
      have hroute : Keeps (Stopped agentId)
          (postConstitutionActivate call.auth constitutionId call.now) :=
        (keeps_requireRole _ _).bind
          (fun _ => Stopped.keeps_activateConstitution _ _ _)
      simp only [Call.step, Call.perform, hoperation, discard_state]
      exact hroute db h
  | activatePolicy policyId policyVersionId =>
      have hactivate : Keeps (Stopped agentId)
          (Policies.activate call.auth.companyId policyVersionId call.now) :=
        (Policies.preserves_activate (f := Database.agents)
          (fun _ _ => rfl) (fun _ _ => rfl) _ _ _).keeps
            (fun rows => ∀ agent ∈ rows, agent.id = agentId →
              agent.status ≠ .active)
      have hroute : Keeps (Stopped agentId) (postPolicyActivate call.auth
          policyId policyVersionId call.now) := by
        refine (keeps_requireRole _ _).bind (fun _ => ?_)
        refine hactivate.bind (fun activated => ?_)
        exact (Stopped.keeps_repointAgent _ _).bind (fun _ => keeps_pure _)
      simp only [Call.step, Call.perform, hoperation, discard_state]
      exact hroute db h
  | _ =>
      -- the other routes do not write agents
      refine hspared ?_
      rw [hoperation]
      repeat' first
        | exact fun _ _ => rfl
        | exact fun _ _ _ => rfl
        | refine ⟨?_, ?_⟩

/-- Once an agent is stopped, no run of calls that does not wake it
authorises anything for it. -/
theorem run_stopped (rt : Runtime) (calls : List Call) (db : Database)
    (companyId agentId : String)
    (hquiet : ∀ call ∈ calls, ¬ call.operation.wakes agentId)
    (hstopped : Stopped agentId db) :
    executionsOf companyId agentId (run rt calls db) =
        executionsOf companyId agentId db ∧
      decisionsOf companyId agentId (run rt calls db) =
        decisionsOf companyId agentId db := by
  have hall : ∀ (before : List Call),
      (∀ call ∈ before, ¬ call.operation.wakes agentId) →
        Stopped agentId (run rt before db) := by
    intro before hbefore
    induction before using List.reverseRecOn with
    | nil => exact hstopped
    | append_singleton earlier call ih =>
        rw [run_append]
        refine stopped_step (hbefore call (by simp)) (ih ?_)
        exact fun other hmem => hbefore other (by simp [hmem])
  refine run_unready (fun before call hcall hready => ?_)
  obtain ⟨agent, hfound, hactive⟩ := hready.agent
  have hmem : agent ∈ (run rt before db).agents :=
    List.mem_of_find?_eq_some hfound
  have hid : agent.id = agentId := by
    have hsome := List.find?_some hfound
    rw [decide_eq_true_eq] at hsome
    exact hsome.1
  refine hall before (fun other hother => hquiet other ?_) agent hmem hid
    hactive
  exact hcall.subset (List.mem_append_left _ hother)

/-- The agent of the sample, suspended. -/
def suspendedDatabase : Database :=
  { Revalidation.sampleDatabase [] with
    agents := [{ Revalidation.sampleAgent with status := .suspended }] }

theorem sample_stopped :
    executionsOf "acme" "agent-1"
        (run .reference [samplePrepare] suspendedDatabase) = [] ∧
      decisionsOf "acme" "agent-1"
        (run .reference [samplePrepare] suspendedDatabase) = [] := by
  refine run_stopped .reference [samplePrepare] suspendedDatabase "acme"
    "agent-1" ?_ ?_
  · intro call hcall
    rw [List.mem_singleton.mp hcall]
    exact fun hwakes => hwakes
  · intro agent hagent _
    rw [List.mem_singleton.mp hagent]
    decide

end

end Api

end Orvex
