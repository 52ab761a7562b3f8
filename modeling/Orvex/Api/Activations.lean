import Orvex.Api.Footprints
import Orvex.Gate.Soundness
import Orvex.Policy.Activation

/-!
# Which version an activation puts in force

The route activates the version of its body and points the agent of the
policy of its path at that policy.  Decisions and final revalidation read
the active version of the policy that the agent points at.
-/

namespace Orvex

open Fallible (Keeps)

/-- The active version of the policy that an agent of the company points
at. -/
def loadedVersion (companyId agentId : String) (db : Database) :
    Option PolicyVersion :=
  match (Agents.getAgent companyId agentId db).bind Agent.activePolicyId with
  | none => none
  | some policyId =>
      if policyId = "" then none
      else Policies.getActiveVersion companyId policyId db

/-- A decision is assembled with the loaded version. -/
theorem loadedVersion_of_orchestrate {rt : Runtime}
    {providers : Orchestrator.Providers}
    {input : Orchestrator.OrchestrateInput} {now : ℤ} {db : Database}
    {context : Orchestrator.DecisionContext}
    (h : Orchestrator.orchestrate rt providers input now db = .ok context) :
    ∃ version, loadedVersion input.companyId input.agentId db =
        some version ∧
      context.policyVersionId = version.id := by
  obtain ⟨agent, capability, policyId, version, rules, events, hassembled⟩ :=
    Orchestrator.assembled_of_orchestrate h
  obtain ⟨hpolicy, hne⟩ := hassembled.policy_active
  refine ⟨version, ?_, hassembled.version_named⟩
  unfold loadedVersion
  rw [hassembled.agent_row, Option.bind_some, hpolicy]
  simp only
  rw [if_neg hne, hassembled.version_row]

/-- Final revalidation judges by the loaded version. -/
theorem loadedVersion_of_resolve {rt : Runtime}
    {input : Revalidation.RevalidateInput} {now : ℤ} {db : Database}
    {state : Revalidation.Resolved}
    (h : Revalidation.resolve rt input now db = .ok state) :
    state.policy.policyVersionId =
      (loadedVersion input.companyId input.agentId db).map
        PolicyVersion.id := by
  obtain ⟨hagent, _, _, hpolicy⟩ := Revalidation.resolve_eq_ok h
  rw [hagent] at hpolicy
  unfold Revalidation.readPolicy at hpolicy
  unfold loadedVersion
  cases hid : (Agents.getAgent input.companyId input.agentId db).bind
      Agent.activePolicyId with
  | none =>
      simp only [hid, Except.ok.injEq] at hpolicy
      rw [← hpolicy]
      rfl
  | some id =>
      simp only [hid] at hpolicy ⊢
      by_cases hempty : id = ""
      · rw [if_pos hempty, Except.ok.injEq] at hpolicy
        rw [if_pos hempty, ← hpolicy]
        rfl
      · rw [if_neg hempty] at hpolicy ⊢
        cases hversion : Policies.getActiveVersion input.companyId id db with
        | none =>
            simp only [hversion, Except.ok.injEq] at hpolicy
            rw [← hpolicy]
            rfl
        | some version =>
            simp only [hversion, Fallible.result_bind_eq_ok,
              Fallible.result_pure, Except.ok.injEq] at hpolicy
            obtain ⟨rules, _, evaluation, _, hreading⟩ := hpolicy
            rw [← hreading]
            rfl

/-! ## The pointer of an agent -/

/-- What is known of an agent: a row has its id, and the agent of the
company points where it points. -/
structure Points (companyId agentId : String)
    (pointer : Option (Option String)) (db : Database) : Prop where
  known : (agentTable.lookup agentId db).isSome
  points : (Agents.getAgent companyId agentId db).map Agent.activePolicyId =
    pointer

section

variable {companyId agentId : String} {pointer : Option (Option String)}

theorem getAgent_modify {id : String} {change : Agent → Agent}
    (hid : KeyedTable.KeepsKey Agent.id change)
    (hcompany : ∀ agent, (change agent).companyId = agent.companyId)
    (db : Database) :
    Agents.getAgent companyId agentId (agentTable.modify id change db) =
      (Agents.getAgent companyId agentId db).map
        (fun agent => if agent.id = id then change agent else agent) := by
  have hsearch : ∀ agent : Agent,
      decide ((change agent).id = agentId ∧
        (change agent).companyId = companyId) =
        decide (agent.id = agentId ∧ agent.companyId = companyId) := by
    intro agent
    rw [hid agent, hcompany agent]
  exact @KeyedTable.find?_modify Agent String _ Agent.id
    (fun agent => agent.id = agentId ∧ agent.companyId = companyId) change id
    hsearch db.agents

theorem known_modify {id : String} {change : Agent → Agent}
    (hid : KeyedTable.KeepsKey Agent.id change) {db : Database}
    (h : (agentTable.lookup agentId db).isSome) :
    (agentTable.lookup agentId (agentTable.modify id change db)).isSome := by
  have hlookup : agentTable.lookup agentId (agentTable.modify id change db) =
      if agentId = id then (agentTable.lookup id db).map change
      else agentTable.lookup agentId db :=
    KeyedTable.lookup_modify hid id agentId db.agents
  rw [hlookup]
  by_cases heq : agentId = id
  · rw [if_pos heq, Option.isSome_map, ← heq]
    exact h
  · rw [if_neg heq]
    exact h

/-- What is known of an agent is read from the agents. -/
theorem Points.of_agents {db db' : Database}
    (h : Points companyId agentId pointer db)
    (hagents : db'.agents = db.agents) :
    Points companyId agentId pointer db' where
  known := by
    change (KeyedTable.lookup Agent.id agentId db'.agents).isSome
    rw [hagents]
    exact h.known
  points := by
    change (db'.agents.find? _).map _ = _
    rw [hagents]
    exact h.points

/-- An update that keeps the pointer. -/
theorem points_modify {db : Database} {id : String} {change : Agent → Agent}
    (h : Points companyId agentId pointer db)
    (hid : KeyedTable.KeepsKey Agent.id change)
    (hcompany : ∀ agent, (change agent).companyId = agent.companyId)
    (hpolicy : ∀ agent,
      (change agent).activePolicyId = agent.activePolicyId) :
    Points companyId agentId pointer (agentTable.modify id change db) where
  known := known_modify hid h.known
  points := by
    rw [getAgent_modify hid hcompany, Option.map_map, ← h.points]
    congr 1
    funext agent
    simp only [Function.comp_apply]
    split
    · exact hpolicy agent
    · rfl

/-- The row of a new agent has another id. -/
theorem points_insert {db : Database} {agent : Agent}
    (h : Points companyId agentId pointer db)
    (hfresh : agentTable.lookup agent.id db = none) :
    Points companyId agentId pointer (agentTable.insert agent db) := by
  have hother : agent.id ≠ agentId := by
    intro heq
    have hknown := h.known
    rw [← heq, hfresh] at hknown
    exact absurd hknown Bool.false_ne_true
  constructor
  · have hlookup : agentTable.lookup agentId (agentTable.insert agent db) =
        (agentTable.lookup agentId db).or
          (if agent.id = agentId then some agent else none) :=
      KeyedTable.lookup_append_singleton agentId db.agents agent
    rw [hlookup, if_neg hother, Option.or_none]
    exact h.known
  · have hfound : Agents.getAgent companyId agentId
        (agentTable.insert agent db) =
          Agents.getAgent companyId agentId db := by
      unfold Agents.getAgent Table.find
      rw [Table.rows_insert, List.find?_append,
        List.find?_singleton]
      simp [hother]
    rw [hfound]
    exact h.points

theorem Agents.keeps_createAgent (input : CreateAgentInput)
    (uuid : String) :
    Keeps (Points companyId agentId pointer) (createAgent input uuid) := by
  unfold createAgent
  refine Keeps.ite (Fallible.keeps_fail _) ?_
  refine Keeps.bind (Fallible.keeps_query _) (fun known => ?_)
  refine Keeps.ite ?_ (Fallible.keeps_fail _)
  refine Keeps.bind (Keeps.attempt (Table.keeps_create
    (fun db hdb hallowed => points_insert hdb hallowed.1)))
    (fun created => ?_)
  cases created with
  | ok agent => exact Fallible.keeps_pure _
  | error failure => exact Fallible.keeps_fail _

theorem Agents.keeps_transition (companyId' id : String)
    (status : AgentStatus) :
    Keeps (Points companyId agentId pointer)
      (transition companyId' id status) := by
  refine Keeps.bind (keeps_reading _) (fun _ => ?_)
  exact Table.keeps_update (fun db hdb =>
    points_modify hdb (fun _ => rfl) (fun _ => rfl) (fun _ => rfl))

theorem Constitutions.keeps_activateConstitution
    (companyId' constitutionId : String) (now : ℤ) :
    Keeps (Points companyId agentId pointer)
      (activateConstitution companyId' constitutionId now) := by
  have hrows : ∀ {α : Type} {x : Service α},
      Fallible.Preserves Database.agents x →
        Keeps (Points companyId agentId pointer) x :=
    fun hx db hdb => hdb.of_agents (hx.apply db)
  refine Keeps.transaction ?_
  refine Keeps.bind (Fallible.keeps_query _) (fun found => ?_)
  cases found with
  | none => exact Fallible.keeps_fail _
  | some target =>
      simp only
      refine Keeps.ite (Fallible.keeps_fail _) ?_
      have hsweep : constitutionTable.Apart Database.agents := fun _ _ => rfl
      refine Keeps.bind (hrows (hsweep.updateMany _ _)) (fun _ => ?_)
      refine Keeps.bind (hrows (hsweep.update _ _ _)) (fun activated => ?_)
      refine Keeps.bind (Table.keeps_update (fun db hdb => ?_))
        (fun _ => Fallible.keeps_pure _)
      exact points_modify hdb (fun _ => rfl) (fun _ => rfl) (fun _ => rfl)

end

/-! ## Calls other than activation -/

namespace Api

/-- The call activates a policy version. -/
def Operation.activatesPolicy : Operation → Bool
  | .activatePolicy _ _ => true
  | _ => false

section

variable {rt : Runtime}

theorem points_step {companyId agentId : String}
    {pointer : Option (Option String)} {call : Call} {db : Database}
    (hcall : call.operation.activatesPolicy = false)
    (h : Points companyId agentId pointer db) :
    Points companyId agentId pointer (call.step rt db) := by
  have hspared : call.operation.Spares Database.agents →
      Points companyId agentId pointer (call.step rt db) :=
    fun hspares => h.of_agents (call.step_spares hspares db)
  cases hoperation : call.operation with
  | createAgent body uuid =>
      simp only [Call.step, Call.perform, hoperation, discard_state]
      exact Keeps.bind (keeps_requireRole _ _)
        (fun _ => Agents.keeps_createAgent _ _) db h
  | updateAgent id status =>
      simp only [Call.step, Call.perform, hoperation, discard_state]
      have hstatus : ∀ text, Keeps (Points companyId agentId pointer)
          (statusTransition call.auth.companyId id text) := by
        intro text
        unfold statusTransition
        have htransition := fun status =>
          @Agents.keeps_transition companyId agentId pointer
            call.auth.companyId id status
        exact Keeps.ite (htransition .active) (Keeps.ite
          (htransition .paused) (Keeps.ite (htransition .suspended)
            (Keeps.ite (htransition .disabled) (Fallible.keeps_fail _))))
      refine Keeps.bind (keeps_requireRole _ _) (fun _ => ?_) db h
      refine Keeps.bind (keeps_reading _) (fun _ => ?_)
      exact Keeps.ite ((hstatus _).bind (fun _ => keeps_reading _))
        (keeps_reading _)
  | activateConstitution constitutionId =>
      simp only [Call.step, Call.perform, hoperation, discard_state]
      exact Keeps.bind (keeps_requireRole _ _)
        (fun _ => Constitutions.keeps_activateConstitution _ _ _) db h
  | activatePolicy policyId policyVersionId =>
      rw [hoperation] at hcall
      exact absurd hcall Bool.noConfusion
  | _ =>
      -- the other routes do not write agents
      refine hspared ?_
      rw [hoperation]
      repeat' first
        | exact fun _ _ => rfl
        | exact fun _ _ _ => rfl
        | refine ⟨?_, ?_⟩

theorem inForce_step {policyId : String} {companyId : Option String}
    {active : List PolicyVersion} {call : Call} {db : Database}
    (hcall : call.operation.activatesPolicy = false)
    (h : Policies.InForce policyId companyId active db) :
    Policies.InForce policyId companyId active (call.step rt db) := by
  have hspared : call.operation.Spares
      (fun db => (db.policies, db.policyVersions)) →
        Policies.InForce policyId companyId active (call.step rt db) := by
    intro hspares
    have hsame : ((call.step rt db).policies, (call.step rt db).policyVersions) =
        (db.policies, db.policyVersions) :=
      call.step_spares hspares db
    rw [Prod.mk.injEq] at hsame
    exact h.of_same hsame.1 hsame.2
  cases hoperation : call.operation with
  | createPolicy body ids =>
      simp only [Call.step, Call.perform, hoperation, discard_state]
      exact Keeps.bind (keeps_requireRole _ _)
        (fun _ => Policies.keeps_createDraft _ _ _) db h
  | compilePolicy body ids =>
      simp only [Call.step, Call.perform, hoperation, discard_state]
      exact Keeps.bind (keeps_requireRole _ _)
        (fun _ => Policies.keeps_createDraft _ _ _) db h
  | validatePolicy policyVersionId =>
      simp only [Call.step, Call.perform, hoperation, discard_state]
      refine Keeps.bind (keeps_requireRole _ _) (fun _ => ?_) db h
      refine Keeps.bind (Policies.keeps_transition _ _ (Or.inl rfl))
        (fun _ => ?_)
      refine Keeps.bind (Policies.keeps_transition _ _ (Or.inr (Or.inl rfl)))
        (fun _ => ?_)
      exact Policies.keeps_approve _ _ _
  | activatePolicy policyId policyVersionId =>
      rw [hoperation] at hcall
      exact absurd hcall Bool.noConfusion
  | _ =>
      -- the other routes write neither policies nor versions
      refine hspared ?_
      rw [hoperation]
      repeat' first
        | exact fun _ _ => rfl
        | exact fun _ _ _ => rfl
        | refine ⟨?_, ?_⟩

def UniqueVersions (db : Database) : Prop :=
  KeyedTable.UniqueKeys PolicyVersion.id db.policyVersions

/-- The ids of the policy versions stay unique over every call. -/
theorem uniqueVersions_step (call : Call) {db : Database}
    (h : UniqueVersions db) : UniqueVersions (call.step rt db) := by
  by_cases hcall : call.operation.activatesPolicy = true
  · cases hoperation : call.operation with
    | activatePolicy policyId policyVersionId =>
        simp only [Call.step, Call.perform, hoperation, discard_state]
        have hactivate : Keeps UniqueVersions
            (Policies.activate call.auth.companyId policyVersionId
              call.now) := by
          intro db hdb
          cases hrun : Policies.activate call.auth.companyId policyVersionId
              call.now db with
          | mk result db' =>
              cases result with
              | ok version => exact (Policies.activates_of_ok hdb hrun).unique
              | error failure =>
                  rw [Fallible.transaction_eq_error hrun]
                  exact hdb
        have hrepoint : Keeps UniqueVersions
            (repointAgent call.auth.companyId policyId) :=
          (@preserves_repointAgent _ Database.policyVersions
            (fun _ _ => rfl) _ _).keeps
              (KeyedTable.UniqueKeys PolicyVersion.id)
        have hroute : Keeps UniqueVersions (postPolicyActivate call.auth policyId
            policyVersionId call.now) :=
          (keeps_requireRole _ _).bind (fun _ => hactivate.bind
            (fun _ => hrepoint.bind (fun _ => Fallible.keeps_pure _)))
        exact hroute db h
    | _ =>
        rw [hoperation] at hcall
        exact absurd hcall Bool.noConfusion
  · have hinForce : Policies.InForce "" none
        (Policies.activeVersions "" db) db :=
      ⟨h, by simp, rfl⟩
    exact (inForce_step (Bool.eq_false_iff.mpr hcall) hinForce).unique

end

/-! ## The activation -/

/-- The policy is scoped to the agent; an empty id names no agent. -/
def ScopedTo (agentId : String) (policy : Policy) : Prop :=
  policy.agentId = some agentId ∧ agentId ≠ ""

/-- The version is one of the policy of the path, and the agent of that
policy is one of the company. -/
structure TakesEffect (companyId policyId policyVersionId agentId : String)
    (db : Database) : Prop where
  named : policyId ≠ ""
  belongs : ∃ version, Policies.getVersion companyId policyVersionId db =
    some version ∧ version.policyId = policyId
  member : (Agents.getAgent companyId agentId db).isSome

/-- What a successful activation leaves: the version in force of its policy,
and the agent pointing at the policy of the path. -/
structure Activated (companyId policyId agentId : String)
    (db : Database) (version : PolicyVersion) (db' : Database) : Prop where
  points : Points companyId agentId
    ((Agents.getAgent companyId agentId db).map (fun _ => some policyId)) db'
  inForce : Policies.InForce version.policyId (some companyId) [version] db'

def pointedAt (policyId : String) (agent : Agent) : Agent :=
  { agent with activePolicyId := some policyId }

theorem pointedAt_keepsKey (policyId : String) :
    KeyedTable.KeepsKey Agent.id (pointedAt policyId) :=
  fun _ => rfl

theorem repointAgent_eq_ok {companyId policyId agentId : String}
    {policy : Policy} {db db' : Database}
    (hpolicy : Policies.getPolicy companyId policyId db = some policy)
    (hscope : ScopedTo agentId policy)
    (h : repointAgent companyId policyId db = (.ok (), db')) :
    ∃ agent, agentTable.lookup agentId db = some agent ∧
      db' = agentTable.modify agentId (pointedAt policyId) db := by
  have hkeys := List.find?_some hpolicy
  rw [decide_eq_true_eq] at hkeys
  have hid : policy.id = policyId := hkeys.1
  have htruthy : truthy policy.agentId = true := by
    rw [hscope.1]
    simp [truthy, hscope.2]
  unfold repointAgent at h
  rw [Fallible.query_bind, hpolicy] at h
  simp only at h
  rw [if_pos htruthy, hscope.1, Option.getD_some, hid,
    Fallible.bind_eq_ok] at h
  obtain ⟨updated, written, hupdate, hdone⟩ := h
  obtain ⟨agent, hagent, _, hwritten⟩ := Table.update_eq_ok.mp hupdate
  rw [Fallible.pure_apply, Prod.mk.injEq] at hdone
  refine ⟨agent, hagent, ?_⟩
  rw [← hdone.2, hwritten]
  rfl

theorem activated_of_ok {auth : AuthContext}
    {policyId policyVersionId agentId : String} {now : ℤ}
    {db db' : Database} {policy : Policy} {version : PolicyVersion}
    (hunique : KeyedTable.UniqueKeys PolicyVersion.id db.policyVersions)
    (hpolicy : Policies.getPolicy auth.companyId policyId db = some policy)
    (hscope : ScopedTo agentId policy)
    (h : postPolicyActivate auth policyId policyVersionId now db =
      (.ok version, db')) :
    (∃ target, Policies.getVersion auth.companyId policyVersionId db =
        some target ∧ target.policyId = version.policyId) ∧
      Activated auth.companyId policyId agentId db version db' := by
  unfold postPolicyActivate at h
  rw [Fallible.bind_eq_ok] at h
  obtain ⟨_, permitted, hrole, h⟩ := h
  have hpermitted : permitted = db := by
    have hstate := (preserves_requireRole (f := id) auth
      activatorRoles).apply db
    rw [hrole] at hstate
    exact hstate
  rw [hpermitted, Fallible.bind_eq_ok] at h
  obtain ⟨active, mid, hactivate, h⟩ := h
  rw [Fallible.bind_eq_ok] at h
  obtain ⟨_, final, hrepoint, hdone⟩ := h
  rw [Fallible.pure_apply, Prod.mk.injEq, Except.ok.injEq] at hdone
  obtain ⟨rfl, rfl⟩ := hdone
  have hrows := Policies.activates_of_ok hunique hactivate
  refine ⟨hrows.found, ?_⟩
  obtain ⟨policy', hpolicy', hsame⟩ : ∃ policy',
      Policies.getPolicy auth.companyId policyId mid = some policy' ∧
        (policy'.id, policy'.agentId) = (policy.id, policy.agentId) := by
    have hkept := hrows.policies policyId
    rw [hpolicy, Option.map_some] at hkept
    exact Option.map_eq_some_iff.mp hkept
  have hscope' : ScopedTo agentId policy' :=
    ⟨(Prod.mk.inj hsame).2.trans hscope.1, hscope.2⟩
  obtain ⟨agent, hagent, hfinal⟩ :=
    repointAgent_eq_ok hpolicy' hscope' hrepoint
  constructor
  · constructor
    · rw [hfinal]
      apply known_modify (pointedAt_keepsKey policyId)
      rw [hagent]
      rfl
    · have hsameAgent : Agents.getAgent auth.companyId agentId mid =
          Agents.getAgent auth.companyId agentId db := by
        change mid.agents.find? _ = db.agents.find? _
        rw [hrows.agents]
      rw [hfinal, getAgent_modify (pointedAt_keepsKey policyId)
        (fun _ => rfl), hsameAgent]
      cases hfound : Agents.getAgent auth.companyId agentId db with
      | none => rfl
      | some found =>
          have hid := (Agents.getAgent_eq_some hfound).2.1
          simp only [Option.map_some, hid, if_true, pointedAt]
  · have hinForce : Policies.InForce active.policyId (some auth.companyId)
        [active] mid :=
      ⟨hrows.unique, fun id hid => hid ▸ hrows.owner, hrows.only⟩
    rw [hfinal]
    exact hinForce.of_same rfl rfl

/-- As long as nothing else is activated, the version is the loaded one
exactly when the agent of the company was pointed at its policy. -/
theorem Activated.loadedVersion_eq_iff {companyId policyId agentId : String}
    {db db' : Database} {version : PolicyVersion}
    (h : Activated companyId policyId agentId db version db') :
    loadedVersion companyId agentId db' = some version ↔
      policyId ≠ "" ∧ version.policyId = policyId ∧
        (Agents.getAgent companyId agentId db).isSome := by
  have hpoints := h.points.points
  have hversion : Policies.getActiveVersion companyId version.policyId db' =
      some version := by
    rw [Policies.getActiveVersion_eq, if_pos (h.inForce.owner companyId rfl),
      h.inForce.active, List.head?_cons]
  unfold loadedVersion
  cases hmember : Agents.getAgent companyId agentId db with
  | none =>
      rw [hmember, Option.map_none, Option.map_eq_none_iff] at hpoints
      rw [hpoints]
      simp
  | some agent =>
      rw [hmember, Option.map_some, Option.map_eq_some_iff] at hpoints
      obtain ⟨found, hfound, hpolicy⟩ := hpoints
      rw [hfound, Option.bind_some, hpolicy]
      simp only [Option.isSome_some, and_true]
      by_cases hempty : policyId = ""
      · simp [hempty]
      · rw [if_neg hempty]
        constructor
        · intro hloaded
          obtain ⟨_, hid, _⟩ := Policies.getActiveVersion_eq_some hloaded
          exact ⟨hempty, hid⟩
        · rintro ⟨_, hid⟩
          rw [← hid]
          exact hversion

theorem Activated.run {rt : Runtime} {companyId policyId agentId : String}
    {db db' : Database} {version : PolicyVersion} {calls : List Call}
    (hcalls : ∀ call ∈ calls, call.operation.activatesPolicy = false)
    (h : Activated companyId policyId agentId db version db') :
    Activated companyId policyId agentId db version
      (Api.run rt calls db') := by
  induction calls generalizing db' with
  | nil => exact h
  | cons call rest ih =>
      have hcall := hcalls call List.mem_cons_self
      exact ih (fun c hc => hcalls c (List.mem_cons_of_mem _ hc))
        ⟨points_step hcall h.points, inForce_step hcall h.inForce⟩

/-- In every reachable state, and until something else is activated, an
activation puts its version in force for the agent of the policy exactly
when it takes effect. -/
theorem activation_takes_effect_iff {rt : Runtime} {start db' : Database}
    {earlier later : List Call} {auth : AuthContext}
    {policyId policyVersionId agentId : String} {now : ℤ} {policy : Policy}
    {version : PolicyVersion}
    (hstart : UniqueVersions start)
    (hpolicy : Policies.getPolicy auth.companyId policyId
      (run rt earlier start) = some policy)
    (hscope : ScopedTo agentId policy)
    (hactivate : postPolicyActivate auth policyId policyVersionId now
      (run rt earlier start) = (.ok version, db'))
    (hlater : ∀ call ∈ later, call.operation.activatesPolicy = false) :
    let effective := TakesEffect auth.companyId policyId policyVersionId
      agentId (run rt earlier start)
    (loadedVersion auth.companyId agentId (run rt later db') =
        some version ↔ effective) ∧
      (∀ providers input now context,
        input.companyId = auth.companyId → input.agentId = agentId →
        Orchestrator.orchestrate rt providers input now
          (run rt later db') = .ok context →
        (context.policyVersionId = version.id ↔ effective)) ∧
      ∀ input now state,
        input.companyId = auth.companyId → input.agentId = agentId →
        Revalidation.resolve rt input now (run rt later db') = .ok state →
        (state.policy.policyVersionId = some version.id ↔ effective) := by
  intro effective
  have hunique : UniqueVersions (run rt earlier start) :=
    run_induction (fun call _ hdb => uniqueVersions_step call hdb) hstart
  obtain ⟨⟨target, htarget, htargetPolicy⟩, hactivated⟩ :=
    activated_of_ok hunique hpolicy hscope hactivate
  have hlast : Activated auth.companyId policyId agentId
      (run rt earlier start) version (run rt later db') :=
    hactivated.run hlater
  have hloaded : loadedVersion auth.companyId agentId (run rt later db') =
      some version ↔ effective := by
    rw [hlast.loadedVersion_eq_iff]
    constructor
    · rintro ⟨hnamed, hid, hmember⟩
      exact ⟨hnamed, ⟨target, htarget, htargetPolicy.trans hid⟩, hmember⟩
    · rintro ⟨hnamed, ⟨other, hother, hid⟩, hmember⟩
      rw [htarget, Option.some.injEq] at hother
      refine ⟨hnamed, ?_, hmember⟩
      rw [← htargetPolicy, hother, hid]
  -- of the rows that are read only the activated one has its id
  have hnamed : ∀ found, loadedVersion auth.companyId agentId
      (run rt later db') = some found →
        (found.id = version.id ↔ found = version) := by
    intro found hfound
    refine ⟨fun hid => ?_, fun h => by rw [h]⟩
    have hmem : found ∈ (run rt later db').policyVersions := by
      unfold loadedVersion at hfound
      split at hfound
      · exact absurd hfound (by simp)
      · split at hfound
        · exact absurd hfound (by simp)
        · exact (Policies.getActiveVersion_eq_some hfound).1
    have hversion : version ∈ (run rt later db').policyVersions := by
      have hactive : version ∈ Policies.activeVersions version.policyId
          (run rt later db') := by
        rw [hlast.inForce.active]
        exact List.mem_singleton_self _
      exact (List.mem_filter.mp hactive).1
    exact Revalidation.eq_of_version_id hlast.inForce.unique hmem hversion
      hid
  refine ⟨hloaded, ?_, ?_⟩
  · intro providers input now' context hcompany hagent horchestrate
    obtain ⟨found, hfound, hcontext⟩ :=
      loadedVersion_of_orchestrate horchestrate
    rw [hcompany, hagent] at hfound
    rw [hcontext, hnamed found hfound, ← hloaded, hfound,
      Option.some.injEq]
  · intro input now' state hcompany hagent hresolve
    have hread := loadedVersion_of_resolve hresolve
    rw [hcompany, hagent] at hread
    rw [hread, ← hloaded]
    cases hfound : loadedVersion auth.companyId agentId
        (run rt later db') with
    | none => simp
    | some found =>
        rw [Option.map_some, Option.some.injEq, Option.some.injEq,
          hnamed found hfound]

/-! ## Two policies of one agent -/

def administrator : AuthContext := ⟨"acme", "operator-1", "ADMIN"⟩

def oneRule : Json :=
  .array [.object [("rule_id", .string "human"),
    ("type", .string "HUMAN_APPROVAL"), ("config", .object [])]]

def draft (name policyId versionId : String) : Call :=
  ⟨administrator, 0, .createPolicy
    ⟨some name, some "agent-1", none, some oneRule⟩
    ⟨policyId, versionId, fun n => versionId ++ "/" ++ toString n⟩⟩

/-- An agent is registered, and two policies of it are drafted and
approved. -/
def drafting : List Call :=
  [⟨administrator, 0, .createAgent ⟨some "payer", none, none⟩ "agent-1"⟩,
    draft "limits" "policy-1" "version-1",
    ⟨administrator, 0, .validatePolicy "version-1"⟩,
    draft "recipients" "policy-2" "version-2",
    ⟨administrator, 0, .validatePolicy "version-2"⟩]

def acme : Database := { Database.empty with companies := ["acme"] }

/-- The state in which both policies wait for their activation. -/
def drafted : Database := run .reference drafting acme

theorem drafted_policy :
    ∃ policy, Policies.getPolicy "acme" "policy-1" drafted = some policy ∧
      ScopedTo "agent-1" policy := by
  have hfound : (Policies.getPolicy "acme" "policy-1" drafted).map
      Policy.agentId = some (some "agent-1") := by
    decide
  obtain ⟨policy, hpolicy, hagent⟩ := Option.map_eq_some_iff.mp hfound
  exact ⟨policy, hpolicy, hagent, by decide⟩

theorem activation_of_limits : ∃ version db',
    postPolicyActivate administrator "policy-1" "version-1" 5 drafted =
        (.ok version, db') ∧
      loadedVersion "acme" "agent-1" (run .reference
        [draft "more" "policy-3" "version-3"] db') = some version := by
  have hrun : (Fallible.value? (postPolicyActivate administrator "policy-1"
      "version-1" 5) drafted).map PolicyVersion.id = some "version-1" := by
    decide
  obtain ⟨version, db', hactivate, _⟩ := Fallible.exists_ok_of_value hrun
  obtain ⟨policy, hpolicy, hscope⟩ := drafted_policy
  have hlater : ∀ call ∈ [draft "more" "policy-3" "version-3"],
      call.operation.activatesPolicy = false := by
    decide
  have heffective : TakesEffect "acme" "policy-1" "version-1" "agent-1"
      drafted := by
    refine ⟨by decide, ?_, by decide⟩
    have hfound : (Policies.getVersion "acme" "version-1" drafted).map
        PolicyVersion.policyId = some "policy-1" := by
      decide
    exact Option.map_eq_some_iff.mp hfound
  refine ⟨version, db', hactivate, ?_⟩
  have hstart : UniqueVersions acme := List.nodup_nil
  exact (activation_takes_effect_iff hstart hpolicy hscope hactivate
    hlater).1.mpr heffective

/-- The version of another policy of the agent is activated, and no version
is loaded. -/
theorem activation_of_other_policy : ¬ ∀ policy version db',
    Policies.getPolicy "acme" "policy-1" drafted = some policy →
    ScopedTo "agent-1" policy →
    postPolicyActivate administrator "policy-1" "version-2" 5 drafted =
      (.ok version, db') →
    loadedVersion "acme" "agent-1" db' = some version := by
  intro hloaded
  obtain ⟨policy, hpolicy, hscope⟩ := drafted_policy
  have hrun : (Fallible.value? (postPolicyActivate administrator "policy-1"
      "version-2" 5) drafted).map PolicyVersion.id = some "version-2" := by
    decide
  obtain ⟨version, db', hactivate, _⟩ := Fallible.exists_ok_of_value hrun
  have hversion := hloaded policy version db' hpolicy hscope hactivate
  have hnone : (loadedVersion "acme" "agent-1" (postPolicyActivate
      administrator "policy-1" "version-2" 5 drafted).2).isNone := by
    decide
  rw [hactivate, hversion] at hnone
  exact absurd hnone Bool.false_ne_true

end Api
end Orvex
