import Orvex.Api.Decisions
import Orvex.Api.Provenance

/-!
# A decision and its revalidation

The two routes assemble their contexts apart.  Only the decision reads the
trace, and only the revalidation knows the transaction, so that on an
unchanged world the second never confirms the hash of the first.
-/

namespace Orvex
namespace Api

open Revalidation (RevalidateInput MintIds Resolved revalidate resolve)

/-- The rows that the two routes derive an authorization from. -/
def authority (db : Database) :=
  (db.agents, db.constitutions, db.capabilities, db.policies,
    db.policyVersions, db.policyRules, db.trajectoryTraces,
    db.trajectoryEvents)

/-- The payment that was decided, prepared on the same rows while every
window still holds. -/
structure Unchanged (rt : Runtime) (auth : AuthContext)
    (decided : DecisionBody) (body : PrepareBody) (now later : ℤ)
    (db db' : Database) : Prop where
  rows : authority db' = authority db
  agent : body.agentId = decided.agentId
  inputs : body.intent = decided.intent ∧
    body.proposal = decided.proposal ∧
      body.securityAssessment = decided.securityAssessment
  intent_window : Revalidation.intentValid rt body.intent later = true
  capability_window :
    Capabilities.getActiveCapabilities auth.companyId decided.agentId later
        db' =
      Capabilities.getActiveCapabilities auth.companyId decided.agentId now
        db
  assessment_window : Revalidation.assessmentStale rt
    (revalidateInput auth body) later = false
  network : proposalNetwork decided.proposal = some body.actualNetwork
  analysis : (Revalidation.transactionGate rt
    (revalidateInput auth body)).status = .matched
  simulated : body.simulation.status = .pass ∧
    (Revalidation.simulationBinding rt (revalidateInput auth body)).status =
      .valid

/-- The revalidation evaluates the policy to the status that the decision
saw, and is not refused for a stale context. -/
structure Agrees (rt : Runtime) (auth : AuthContext)
    (decided : DecisionBody) (body : PrepareBody) (now later : ℤ)
    (ids : MintIds) (db db' : Database) : Prop where
  status : ∃ context state,
    Orchestrator.orchestrate rt providers (orchestrateInput auth decided)
        now db = .ok context ∧
      resolve rt (revalidateInput auth body) later db' = .ok state ∧
      state.policy.status = context.policyEvaluation.status
  fresh : ∀ outcome db'',
    revalidate rt (revalidateInput auth body) later ids db' =
        (.ok outcome, db'') →
      outcome.determinant ≠ "context_stale"

/-! ## The drift -/

/-- The hash of a decision is never the fresh one. -/
theorem drift_of_decision {rt : Runtime} (hfree : rt.CollisionFree)
    {auth : AuthContext} {decided : DecisionBody} {now : ℤ}
    {ids : DecisionIds} {db db' : Database} {response : DecisionResponse}
    (hdecided : postDecisions rt auth decided now ids db =
      (.ok response, db')) {input : RevalidateInput}
    (hhash : input.decisionContextHash = response.contextHash)
    (policy : Revalidation.PolicyReading) :
    Revalidation.contextDrift rt input policy = true := by
  obtain ⟨context, _, _, _, hcontext, _⟩ := postDecisions_eq_ok hdecided
  have hbefore : BeforeTransaction rt response.contextHash :=
    ⟨_, hcontext, rfl⟩
  have hlater : WithTransaction rt (Revalidation.freshHash rt input policy) :=
    ⟨_, input.transactionId, rfl, rfl⟩
  have hnonempty : response.contextHash ≠ "" := by
    rw [hcontext]
    exact sha256Json_ne_empty rt _
  rw [← Bool.not_eq_false, Revalidation.contextDrift_eq_false, hhash]
  rintro (hempty | hsame)
  · exact hnonempty hempty
  · exact hash_kinds_differ hfree hbefore hlater hsame

/-- Where only freshness objects, the context is stale. -/
theorem decide_stale {input : DecisionInput}
    (hauthority : ∀ check ∈ DecisionEngine.authorityChecks input,
      check.1 = false)
    (htransaction : ∀ check ∈ DecisionEngine.transactionChecks input,
      check.1 = false)
    (hstale : input.contextStale = true) :
    DecisionEngine.decide input =
      DecisionEngine.deny "Authorization context is stale."
        "context_stale" := by
  have hbefore : (DecisionEngine.authorityChecks input ++
      DecisionEngine.transactionChecks input).find? Prod.fst = none := by
    rw [List.find?_eq_none]
    intro check hmem
    rw [Bool.not_eq_true]
    rcases List.mem_append.mp hmem with hmem | hmem
    · exact hauthority check hmem
    · exact htransaction check hmem
  unfold DecisionEngine.decide DecisionEngine.checks
  rw [List.append_assoc, List.append_assoc, List.find?_append, hbefore]
  simp [DecisionEngine.freshnessChecks, hstale]

/-- On an unchanged world nothing objects before freshness does, where the
policy still passes. -/
theorem objections_of_unchanged {rt : Runtime} {auth : AuthContext}
    {decided : DecisionBody} {body : PrepareBody} {now later : ℤ}
    {db db' : Database} {context : Orchestrator.DecisionContext}
    {state : Resolved}
    (hsame : Unchanged rt auth decided body now later db db')
    (hread : Orchestrator.orchestrate rt providers
      (orchestrateInput auth decided) now db = .ok context)
    (hresolve : resolve rt (revalidateInput auth body) later db' = .ok state)
    (hpass : state.policy.status = .pass) :
    (∀ check ∈ DecisionEngine.authorityChecks
        (Revalidation.decisionInput rt (revalidateInput auth body) state
          later db'), check.1 = false) ∧
      ∀ check ∈ DecisionEngine.transactionChecks
        (Revalidation.decisionInput rt (revalidateInput auth body) state
          later db'), check.1 = false := by
  obtain ⟨agent, capability, _, _, _, _, hassembled⟩ :=
    Orchestrator.assembled_of_orchestrate hread
  have hrows := hsame.rows
  unfold authority at hrows
  simp only [Prod.mk.injEq] at hrows
  obtain ⟨hagents, hconstitutions, _⟩ := hrows
  have hagent : Agents.getAgent auth.companyId body.agentId db' =
      some agent := by
    rw [← hassembled.agent_row, hsame.agent]
    simp only [Agents.getAgent, Table.find, agentTable, hagents]
    rfl
  obtain ⟨constitution, hactive⟩ := hassembled.constitution
  have hconstitution : Constitutions.getActiveConstitution auth.companyId
      body.agentId db' = some constitution := by
    rw [← hactive, hsame.agent]
    simp only [Constitutions.getActiveConstitution, Table.find,
      constitutionTable, hconstitutions]
    rfl
  obtain ⟨hstateAgent, hstateConstitution, hstateCapability, _⟩ :=
    Revalidation.resolve_eq_ok hresolve
  have hstateAgent : state.agent = some agent := hstateAgent.trans hagent
  have hstateConstitution : state.constitution = some constitution :=
    hstateConstitution.trans hconstitution
  have hcapability : state.capability = some capability := by
    rw [hstateCapability, hstateAgent, Option.isSome_some, if_pos rfl]
    change (Capabilities.getActiveCapabilities auth.companyId body.agentId
      later db').head? = some capability
    rw [hsame.agent, hsame.capability_window]
    exact hassembled.capability_first
  have houtcome : Gate.classifySimulation body.simulation = .continues := by
    rw [Gate.classifySimulation, hsame.simulated.1]
  constructor
  · rw [DecisionEngine.authorityChecks_clear]
    refine ⟨rfl, ?_, hsame.intent_window, ?_, ?_, ?_⟩
    · simp [Revalidation.decisionInput, hstateAgent,
        hassembled.agent_active]
    · simp [Revalidation.decisionInput, hstateConstitution]
    · simp [Revalidation.decisionInput, hcapability]
    · simp [Revalidation.decisionInput, hpass]
  · rw [DecisionEngine.transactionChecks_clear]
    refine ⟨?_, ?_, ?_, ?_⟩
    · intro gate hgate
      rw [← Option.some.inj hgate, hsame.analysis]
      simp
    · intro binding hbinding
      rw [← Option.some.inj hbinding]
      exact hsame.simulated.2
    · simp [Revalidation.decisionInput, revalidateInput, houtcome]
    · simp [Revalidation.decisionInput, revalidateInput, houtcome]

/-- Recording a decision leaves the rows alone that it was derived from. -/
theorem Unchanged.of_decision {rt : Runtime} {auth : AuthContext}
    {decided : DecisionBody} {body : PrepareBody} {now later : ℤ}
    {ids : DecisionIds} {db written db' : Database}
    {response : DecisionResponse}
    (hsame : Unchanged rt auth decided body now later written db')
    (hdecided : postDecisions rt auth decided now ids db =
      (.ok response, written)) :
    Unchanged rt auth decided body now later db db' := by
  have hkept : authority written = authority db := by
    have hpreserves : Fallible.Preserves authority
        (postDecisions rt auth decided now ids) :=
      preserves_postDecisions (fun _ _ => rfl) (fun _ _ => rfl) rt auth
        decided now ids
    have happly := hpreserves.apply db
    rwa [hdecided] at happly
  have hcapabilities : written.capabilities = db.capabilities := by
    have hrows := hkept
    unfold authority at hrows
    simp only [Prod.mk.injEq] at hrows
    exact hrows.2.2.1
  refine { hsame with rows := hsame.rows.trans hkept, capability_window := ?_ }
  rw [hsame.capability_window]
  simp only [Capabilities.getActiveCapabilities, hcapabilities]

/-- A payment that was decided ALLOW is never prepared with the hash of its
decision: where the policy still says what it said, the context is found to
be stale. -/
theorem never_agrees {rt : Runtime} (hfree : rt.CollisionFree)
    {auth : AuthContext} {decided : DecisionBody} {body : PrepareBody}
    {now later : ℤ} {ids : DecisionIds} {mintIds : MintIds}
    {db written db' : Database} {response : DecisionResponse}
    (hdecided : postDecisions rt auth decided now ids db =
      (.ok response, written)) (hallow : response.result = .allow)
    (hhash : body.decisionContextHash = response.contextHash)
    (hsame : Unchanged rt auth decided body now later written db') :
    ¬ Agrees rt auth decided body now later mintIds db db' := by
  intro hagrees
  obtain ⟨context, state, hread, hresolve, hstatus⟩ := hagrees.status
  obtain ⟨_, _, hrecorded, hresult, _⟩ := postDecisions_eq_ok hdecided
  have hcontext := hrecorded.context_read
  rw [hread, Except.ok.injEq] at hcontext
  subst hcontext
  have hpass : state.policy.status = .pass := by
    rw [hstatus]
    exact (decisionOutput_allow_iff.mp (hresult ▸ hallow)).1
  obtain ⟨hauthority, htransaction⟩ := objections_of_unchanged
    (hsame.of_decision hdecided) hread hresolve hpass
  have hdrift : Revalidation.contextDrift rt (revalidateInput auth body)
      state.policy = true := drift_of_decision hfree hdecided hhash _
  have hstale : DecisionEngine.decide (Revalidation.decisionInput rt
      (revalidateInput auth body) state later db') =
        DecisionEngine.deny "Authorization context is stale."
          "context_stale" := by
    refine decide_stale hauthority htransaction ?_
    simp [Revalidation.decisionInput, hdrift]
  have hrefused : revalidate rt (revalidateInput auth body) later mintIds
      db' = (.ok (Revalidation.refused (DecisionEngine.deny
        "Authorization context is stale." "context_stale")), db') := by
    rw [Revalidation.revalidate_eq_ok]
    refine ⟨state, hresolve, Or.inl ⟨?_, ?_, rfl⟩⟩
    · rw [hstale]
      simp [DecisionEngine.deny]
    · rw [hstale]
  exact hagrees.fresh _ _ hrefused rfl

/-! ## A decision that is prepared -/

/-- The sample payment, prepared with a captured hash. -/
def preparedWith (payment : RevalidateInput) (hash : String) : PrepareBody :=
  { prepareBody payment with decisionContextHash := hash }

theorem sample_decision_pinned :
    ∃ response written,
      postDecisions samplePinned sampleAuth sampleDecision
        Revalidation.sampleNow sampleDecisionIds
        (Revalidation.sampleDatabase []) = (.ok response, written) ∧
      response.result = .allow := by
  have hvalue : (Fallible.value? (postDecisions samplePinned sampleAuth
      sampleDecision Revalidation.sampleNow sampleDecisionIds)
      (Revalidation.sampleDatabase [])).map DecisionResponse.result =
        some .allow := by
    decide
  exact Fallible.exists_ok_of_value hvalue

/-- The sample payment prepared right after its decision. -/
theorem unchanged_sample {rt : Runtime} {payment : RevalidateInput}
    {decided : DecisionBody} (hash : String) (db : Database)
    (hpayment : payment = Revalidation.simulated rt Revalidation.sampleInput)
    (hdecided : decided = { sampleDecision with traceId := decided.traceId })
    (hintent : Revalidation.intentValid rt Revalidation.sampleIntent
      Revalidation.sampleNow = true)
    (hgate : (Revalidation.transactionGate rt
      Revalidation.sampleInput).status = .matched) :
    Unchanged rt sampleAuth decided (preparedWith payment hash)
      Revalidation.sampleNow Revalidation.sampleNow db db := by
  subst hpayment
  rw [hdecided]
  exact
    { rows := rfl
      agent := rfl
      inputs := ⟨rfl, rfl, rfl⟩
      intent_window := hintent
      capability_window := rfl
      assessment_window := rfl
      network := rfl
      analysis := hgate
      simulated := ⟨rfl, Gate.binding_valid_iff.mpr ⟨rfl, rfl⟩⟩ }

theorem sample_never_agrees :
    ∃ response written,
      postDecisions samplePinned sampleAuth sampleDecision
        Revalidation.sampleNow sampleDecisionIds
        (Revalidation.sampleDatabase []) = (.ok response, written) ∧
      ¬ Agrees samplePinned sampleAuth sampleDecision
        (preparedWith pinnedPayment response.contextHash)
        Revalidation.sampleNow Revalidation.sampleNow Revalidation.sampleIds
        (Revalidation.sampleDatabase []) written := by
  obtain ⟨response, written, hdecided, hallow⟩ := sample_decision_pinned
  have hsame := @unchanged_sample samplePinned pinnedPayment sampleDecision
    response.contextHash written rfl rfl (by decide)
    (by decide)
  exact ⟨response, written, hdecided, never_agrees
    samplePinned_collisionFree hdecided hallow rfl hsame⟩

/-- A policy that lets a payment through after an event of its trace. -/
def approvedFirst : CompiledRule where
  ruleId := "order"
  type := .requiredPredecessor
  priority := none
  enabled := none
  config := some (.object [("predecessor", .string "INVOICE_APPROVED")])
  extra := []

def tracedDatabase : Database :=
  { Revalidation.sampleDatabase [approvedFirst] with
    trajectoryTraces := [⟨"trace-1", "acme", "agent-1", none, none, .active,
      1, none, none⟩]
    trajectoryEvents := [⟨"event-1", "trace-1", "acme", "agent-1", 1,
      "INVOICE_APPROVED", 0, .object [], none, none, none, "", ""⟩] }

def tracedDecision : DecisionBody :=
  { sampleDecision with traceId := some "trace-1" }

/-- The trace that the decision read is not read again. -/
theorem traced_decision_disagrees :
    ∃ response written,
      postDecisions .reference sampleAuth tracedDecision
        Revalidation.sampleNow sampleDecisionIds tracedDatabase =
          (.ok response, written) ∧
      response.result = .allow ∧
      Unchanged .reference sampleAuth tracedDecision
        (preparedWith Revalidation.samplePayment response.contextHash)
        Revalidation.sampleNow Revalidation.sampleNow written written ∧
      ¬ Agrees .reference sampleAuth tracedDecision
        (preparedWith Revalidation.samplePayment response.contextHash)
        Revalidation.sampleNow Revalidation.sampleNow Revalidation.sampleIds
        tracedDatabase written := by
  have hvalue : (Fallible.value? (postDecisions .reference sampleAuth
      tracedDecision Revalidation.sampleNow sampleDecisionIds)
      tracedDatabase).map DecisionResponse.result = some .allow := by
    decide
  obtain ⟨response, written, hdecided, hallow⟩ :=
    Fallible.exists_ok_of_value hvalue
  refine ⟨response, written, hdecided, hallow, ?_, ?_⟩
  · exact unchanged_sample _ _ rfl rfl (by decide)
      (by decide)
  · intro hagrees
    obtain ⟨context, state, hread, hresolve, hstatus⟩ := hagrees.status
    have hdecision : (Orchestrator.orchestrate .reference providers
        (orchestrateInput sampleAuth tracedDecision) Revalidation.sampleNow
        tracedDatabase).toOption.map (fun context =>
          context.policyEvaluation.status) = some .pass := by
      decide
    have hprepare : (resolve .reference Revalidation.samplePayment
        Revalidation.sampleNow (postDecisions .reference sampleAuth
          tracedDecision Revalidation.sampleNow sampleDecisionIds
          tracedDatabase).2).toOption.map (fun state =>
            state.policy.status) = some .fail := by
      decide
    have hsame : resolve .reference Revalidation.samplePayment
        Revalidation.sampleNow written = .ok state := hresolve
    rw [hdecided, hsame] at hprepare
    rw [hread] at hdecision
    simp only [Except.toOption, Option.map_some, Option.some.injEq]
      at hprepare hdecision
    rw [hprepare, hdecision] at hstatus
    exact absurd hstatus (by decide)

end Api
end Orvex
