import Orvex.Api.Decisions
import Orvex.Gate.Holds

/-!
# How the inputs of an authorization are bound

An authorization takes an intent, a proposal, an assessment, an analysis and
a simulation from its caller.  Recording a decision checks how the first
three name each other; final revalidation checks only the simulation.  On
both routes a capability has to be usable, whatever it covers.
-/

namespace Orvex
namespace Api

open Revalidation (RevalidateInput RevalidationOutcome MintIds revalidate)

/-! ## A decision and a payment that are allowed -/

def sampleAuth : AuthContext := ⟨"acme", "operator-1", "ADMIN"⟩

def sampleDecision : DecisionBody where
  agentId := "agent-1"
  intent := Revalidation.sampleIntent
  proposal := Revalidation.sampleProposal
  securityAssessment := Revalidation.sampleAssessment
  traceId := none
  assessmentMaxAgeMs := none
  requireSimulation := false

def sampleDecisionIds : DecisionIds := ⟨"decision-1", "approval-1"⟩

theorem sample_decision_allowed :
    ∃ response db',
      postDecisions .reference sampleAuth sampleDecision
        Revalidation.sampleNow sampleDecisionIds
        (Revalidation.sampleDatabase []) = (.ok response, db') ∧
      response.result = .allow := by
  have hvalue : (Fallible.value? (postDecisions .reference sampleAuth
      sampleDecision Revalidation.sampleNow sampleDecisionIds)
      (Revalidation.sampleDatabase [])).map DecisionResponse.result =
        some .allow := by
    decide
  exact Fallible.exists_ok_of_value hvalue

theorem sample_payment_allowed :
    ∃ outcome db',
      revalidate .reference Revalidation.samplePayment Revalidation.sampleNow
        Revalidation.sampleIds (Revalidation.sampleDatabase []) =
          (.ok outcome, db') ∧
      outcome.result = .allow := by
  have hamount : Reference.decimal? Revalidation.samplePayment.amount =
      some 10 := by
    decide
  obtain ⟨state, db', _, _, hrun⟩ :=
    Revalidation.minted_of_plain Revalidation.sample_plain
      Revalidation.sample_ready
      (Revalidation.sample_mint ⟨rfl, rfl, rfl, rfl, rfl⟩ ⟨rfl, rfl, rfl⟩
        hamount (by norm_num))
  exact ⟨_, db', hrun, rfl⟩

/-! ## Intent, proposal and assessment -/

/-- The proposal names the intent and the agent, the intent names the agent,
and the assessment names the proposal. -/
structure Bound (agentId : String) (intent : Intent)
    (proposal : ActionProposal) (assessment : SecurityAssessment) : Prop where
  proposal_intent : proposal.intentId = intent.intentId
  proposal_agent : proposal.agentId = agentId
  intent_agent : intent.agentId = agentId
  assessment_proposal : assessment.proposalId = proposal.proposalId

/-- The inputs of a revalidation are bound to each other. -/
def InputsBound (input : RevalidateInput) : Prop :=
  Bound input.agentId input.intent input.proposal input.securityAssessment ∧
    input.analysis.transactionId = input.transactionId ∧
      input.simulation.transactionId = input.transactionId

theorem bound_of_recorded {rt : Runtime} {auth : AuthContext}
    {body : DecisionBody} {now : ℤ} {ids : DecisionIds} {db mid : Database}
    {context : Orchestrator.DecisionContext} {decision : Decision}
    (h : Recorded rt auth body now ids db mid context decision) :
    Bound body.agentId body.intent body.proposal body.securityAssessment := by
  obtain ⟨agent, capability, policyId, version, rules, events, hassembled⟩ :=
    Orchestrator.assembled_of_orchestrate h.context_read
  obtain ⟨hintent, hagent, hbound⟩ :=
    Orchestrator.validateBindings_eq_ok.mp hassembled.bindings
  exact
    { proposal_intent := hintent
      proposal_agent := hagent
      intent_agent := hbound
      assessment_proposal :=
        Intake.validateAssessmentBinding_proposal hassembled.assessment }

theorem simulation_of_allow {rt : Runtime} {input : RevalidateInput}
    {now : ℤ} {ids : MintIds} {db db' : Database}
    {outcome : RevalidationOutcome}
    (hrun : revalidate rt input now ids db = (.ok outcome, db'))
    (hallow : outcome.result = .allow) :
    input.simulation.transactionId = input.transactionId := by
  obtain ⟨state, _, hcleared, _⟩ := Revalidation.mint_of_allow hrun hallow
  exact (Gate.binding_valid_iff.mp (hcleared.binding _ rfl)).1

/-- Whom the inputs of a revalidation name. -/
structure Names where
  proposalIntent : String
  proposalAgent : String
  intentAgent : String
  assessmentProposal : String
  analysisTransaction : String

def withNames (input : RevalidateInput) (names : Names) : RevalidateInput :=
  { input with
    intent := { input.intent with agentId := names.intentAgent }
    proposal := { input.proposal with
      intentId := names.proposalIntent
      agentId := names.proposalAgent }
    securityAssessment := { input.securityAssessment with
      proposalId := names.assessmentProposal }
    analysis := { input.analysis with
      transactionId := names.analysisTransaction } }

/-- Final revalidation reads none of the names. -/
theorem revalidate_withNames (rt : Runtime) (input : RevalidateInput)
    (names : Names) (now : ℤ) (ids : MintIds) (db : Database) :
    revalidate rt (withNames input names) now ids db =
      revalidate rt input now ids db := rfl

/-- Names of an intent that was made for another agent. -/
def strangerNames (input : RevalidateInput) : Names where
  proposalIntent := input.intent.intentId
  proposalAgent := input.agentId
  intentAgent := input.agentId ++ "-2"
  assessmentProposal := input.proposal.proposalId
  analysisTransaction := input.transactionId

theorem not_bound_of_stranger (input : RevalidateInput) :
    ¬ InputsBound (withNames input (strangerNames input)) := by
  intro ⟨hbound, _⟩
  have hagent : input.agentId ++ "-2" = input.agentId := hbound.intent_agent
  simp at hagent

/-- A recorded decision has bound inputs.  An ALLOW of final revalidation
has a simulation of its transaction; the other names of its inputs change
nothing, so that the inputs that are allowed in a state are all bound only
where none is allowed. -/
theorem inputs_bound_iff (rt : Runtime) :
    (∀ (auth : AuthContext) (body : DecisionBody) (now : ℤ)
      (ids : DecisionIds) (db db' : Database) (response : DecisionResponse),
      postDecisions rt auth body now ids db = (.ok response, db') →
      response.result = .allow →
      Bound body.agentId body.intent body.proposal
        body.securityAssessment) ∧
    (∀ (input : RevalidateInput) (now : ℤ) (ids : MintIds)
      (db db' : Database) (outcome : RevalidationOutcome),
      revalidate rt input now ids db = (.ok outcome, db') →
      outcome.result = .allow →
      input.simulation.transactionId = input.transactionId ∧
        ∀ names, revalidate rt (withNames input names) now ids db =
          (.ok outcome, db')) ∧
    ∀ (now : ℤ) (ids : MintIds) (db : Database),
      (∀ (input : RevalidateInput) (outcome : RevalidationOutcome)
        (db' : Database),
        revalidate rt input now ids db = (.ok outcome, db') →
        outcome.result = .allow → InputsBound input) ↔
      ∀ (input : RevalidateInput) (outcome : RevalidationOutcome)
        (db' : Database),
        revalidate rt input now ids db = (.ok outcome, db') →
        outcome.result ≠ .allow := by
  refine ⟨?_, ?_, ?_⟩
  · intro auth body now ids db db' response hrun _
    obtain ⟨context, mid, hrecorded, _⟩ := postDecisions_eq_ok hrun
    exact bound_of_recorded hrecorded
  · intro input now ids db db' outcome hrun hallow
    constructor
    · exact simulation_of_allow hrun hallow
    · intro names
      rw [revalidate_withNames, hrun]
  · intro now ids db
    constructor
    · intro hlaw input outcome db' hrun hallow
      rw [← revalidate_withNames rt input (strangerNames input)] at hrun
      have hbound := hlaw _ outcome db' hrun hallow
      exact not_bound_of_stranger input hbound
    · intro hnone input outcome db' hrun hallow
      exact absurd hallow (hnone input outcome db' hrun)

theorem sample_inputs_bound :
    (∃ response db',
      postDecisions .reference sampleAuth sampleDecision
        Revalidation.sampleNow sampleDecisionIds
        (Revalidation.sampleDatabase []) = (.ok response, db') ∧
      Bound sampleDecision.agentId sampleDecision.intent
        sampleDecision.proposal sampleDecision.securityAssessment) ∧
    (∃ outcome db',
      revalidate .reference Revalidation.samplePayment Revalidation.sampleNow
        Revalidation.sampleIds (Revalidation.sampleDatabase []) =
          (.ok outcome, db') ∧
      revalidate .reference
        (withNames Revalidation.samplePayment
          ⟨"intent-2", "agent-2", "agent-3", "proposal-2", "transaction-2"⟩)
        Revalidation.sampleNow Revalidation.sampleIds
        (Revalidation.sampleDatabase []) = (.ok outcome, db')) ∧
    ∃ input outcome db',
      revalidate .reference input Revalidation.sampleNow
        Revalidation.sampleIds (Revalidation.sampleDatabase []) =
          (.ok outcome, db') ∧
      outcome.result = .allow ∧ ¬ InputsBound input := by
  obtain ⟨hdecisions, hrevalidations, hlaw⟩ := inputs_bound_iff .reference
  obtain ⟨outcome, db', hrun, hallow⟩ := sample_payment_allowed
  refine ⟨?_, ?_, ?_⟩
  · obtain ⟨response, db', hrun, hallow⟩ := sample_decision_allowed
    exact ⟨response, db', hrun, hdecisions _ _ _ _ _ _ _ hrun hallow⟩
  · exact ⟨outcome, db', hrun,
      (hrevalidations _ _ _ _ _ _ hrun hallow).2 _⟩
  · by_contra hnone
    refine (hlaw _ _ _).mp ?_ _ _ _ hrun hallow
    intro input other db'' hother hallowed
    by_contra hunbound
    exact hnone ⟨input, other, db'', hother, hallowed, hunbound⟩

/-- The payment of the sample, with an intent and an assessment that were
made for something else. -/
def mixedPayment : RevalidateInput :=
  Revalidation.simulated .reference
    { Revalidation.sampleInput with
      intent := { Revalidation.sampleIntent with
        intentId := "intent-2"
        agentId := "agent-2" }
      securityAssessment := { Revalidation.sampleAssessment with
        proposalId := "proposal-2" }
      analysis := { Revalidation.sampleAnalysis with
        transactionId := "transaction-2" } }

theorem mixed_inputs_authorized :
    ∃ outcome db',
      revalidate .reference mixedPayment Revalidation.sampleNow
        Revalidation.sampleIds (Revalidation.sampleDatabase []) =
          (.ok outcome, db') ∧
      outcome.result = .allow ∧ ¬ InputsBound mixedPayment := by
  have hplain : Revalidation.Plain .reference mixedPayment
      Revalidation.sampleNow :=
    ⟨by decide, by decide, ⟨rfl, rfl⟩, rfl, rfl, rfl, rfl,
      rfl⟩
  have hready : (Revalidation.resolve .reference mixedPayment
      Revalidation.sampleNow (Revalidation.sampleDatabase
        [])).toOption.map Revalidation.Resolved.ready = some true := by
    decide
  have hamount : Reference.decimal? mixedPayment.amount = some 10 := by
    decide
  obtain ⟨state, db', _, _, hrun⟩ :=
    Revalidation.minted_of_plain hplain hready
      (Revalidation.sample_mint ⟨rfl, rfl, rfl, rfl, rfl⟩ ⟨rfl, rfl, rfl⟩
        hamount (by norm_num))
  refine ⟨_, db', hrun, rfl, ?_⟩
  rintro ⟨hbound, _⟩
  exact absurd hbound.intent_agent (by decide)

/-! ## Capabilities -/

/-- The capability covers the action of the proposal and the transaction:
recipient, amount, asset and network. -/
structure Covers (rt : Runtime) (capability : Capability)
    (action : String) (tx : TransactionContext) : Prop where
  action : capability.action = action
  asset : capability.asset = none ∨ capability.asset = tx.asset
  network : capability.network = none ∨ capability.network = tx.network
  recipient : ∀ recipients, capability.recipientScopeJson = some recipients →
    recipients = [] ∨ ∃ recipient ∈ recipients, tx.recipient = some recipient
  amount : ∀ limit, capability.singleTransactionLimit = some limit →
    ∃ text x, tx.amount = some text ∧ rt.toDecimal text = some (.finite x) ∧
      x ≤ limit

/-- An ACTIVE capability of the agent inside its validity window. -/
def Usable (companyId agentId : String) (now : ℤ) (db : Database)
    (capability : Capability) : Prop :=
  capability ∈ db.capabilities ∧ capability.companyId = companyId ∧
    capability.agentId = agentId ∧ Capabilities.Usable now capability

theorem usable_of_recorded {rt : Runtime} {auth : AuthContext}
    {body : DecisionBody} {now : ℤ} {ids : DecisionIds} {db mid : Database}
    {context : Orchestrator.DecisionContext} {decision : Decision}
    (h : Recorded rt auth body now ids db mid context decision) :
    ∃ capability,
      Usable auth.companyId body.agentId now db capability := by
  obtain ⟨agent, capability, policyId, version, rules, events, hassembled⟩ :=
    Orchestrator.assembled_of_orchestrate h.context_read
  have hmem := List.mem_of_mem_head?
    (Option.mem_def.mpr hassembled.capability_first)
  exact ⟨capability, Capabilities.mem_getActiveCapabilities.mp hmem⟩

theorem usable_of_allow {rt : Runtime} {input : RevalidateInput} {now : ℤ}
    {ids : MintIds} {db db' : Database} {outcome : RevalidationOutcome}
    (hrun : revalidate rt input now ids db = (.ok outcome, db'))
    (hallow : outcome.result = .allow) :
    ∃ capability,
      Usable input.companyId input.agentId now db capability := by
  obtain ⟨state, hresolve, hcleared, _⟩ :=
    Revalidation.mint_of_allow hrun hallow
  obtain ⟨_, _, hcapability, _⟩ := Revalidation.resolve_eq_ok hresolve
  obtain ⟨capability, hfound⟩ :=
    Option.isSome_iff_exists.mp hcleared.capability
  rw [hfound] at hcapability
  split at hcapability
  next =>
    have hmem := List.mem_of_mem_head? (Option.mem_def.mpr hcapability.symm)
    exact ⟨capability, Capabilities.mem_getActiveCapabilities.mp hmem⟩
  next => exact absurd hcapability (by simp)

/-- Both routes authorize only where some capability of the agent is ACTIVE
and inside its validity window. -/
theorem allow_has_usable_capability (rt : Runtime) :
    (∀ (auth : AuthContext) (body : DecisionBody) (now : ℤ)
      (ids : DecisionIds) (db db' : Database) (response : DecisionResponse),
      postDecisions rt auth body now ids db = (.ok response, db') →
      response.result = .allow →
      ∃ capability, Usable auth.companyId body.agentId now db capability) ∧
    (∀ (input : RevalidateInput) (now : ℤ) (ids : MintIds)
      (db db' : Database) (outcome : RevalidationOutcome),
      revalidate rt input now ids db = (.ok outcome, db') →
      outcome.result = .allow →
      ∃ capability,
        Usable input.companyId input.agentId now db capability) := by
  constructor
  · intro auth body now ids db db' response hrun _
    obtain ⟨context, mid, hrecorded, _⟩ := postDecisions_eq_ok hrun
    exact usable_of_recorded hrecorded
  · intro input now ids db db' outcome hrun hallow
    exact usable_of_allow hrun hallow

theorem sample_capability_usable :
    (∃ capability, Usable "acme" "agent-1" Revalidation.sampleNow
      (Revalidation.sampleDatabase []) capability) ∧
    ∃ capability, Usable Revalidation.samplePayment.companyId
      Revalidation.samplePayment.agentId Revalidation.sampleNow
      (Revalidation.sampleDatabase []) capability := by
  obtain ⟨hdecisions, hrevalidations⟩ :=
    allow_has_usable_capability .reference
  constructor
  · obtain ⟨response, db', hrun, hallow⟩ := sample_decision_allowed
    exact hdecisions _ _ _ _ _ _ _ hrun hallow
  · obtain ⟨outcome, db', hrun, hallow⟩ := sample_payment_allowed
    exact hrevalidations _ _ _ _ _ _ hrun hallow

/-- The sample, with a capability for small transfers of another asset. -/
def narrowDatabase : Database :=
  { Revalidation.sampleDatabase [] with
    capabilities := [{ Revalidation.sampleCapability with
      action := "TRANSFER"
      asset := some "DAI"
      recipientScopeJson := some ["0xfriend"]
      singleTransactionLimit := some 1 }] }

/-- Both routes authorize the payment that no capability covers. -/
theorem uncovered_payment_authorized :
    (∀ capability,
      Usable "acme" "agent-1" Revalidation.sampleNow narrowDatabase
        capability →
      ¬ Covers .reference capability "PAY"
        (Orchestrator.transactionContext Revalidation.sampleProposal
          (some "base"))) ∧
    (∃ outcome db',
      revalidate .reference Revalidation.samplePayment Revalidation.sampleNow
        Revalidation.sampleIds narrowDatabase = (.ok outcome, db') ∧
      outcome.result = .allow) ∧
    ∃ response db',
      postDecisions .reference sampleAuth sampleDecision
        Revalidation.sampleNow sampleDecisionIds narrowDatabase =
          (.ok response, db') ∧
      response.result = .allow := by
  refine ⟨?_, ?_, ?_⟩
  · rintro capability ⟨hmem, _⟩ hcovers
    have haction := hcovers.action
    rw [List.mem_singleton.mp hmem] at haction
    exact absurd haction (by decide)
  · have hready : (Revalidation.resolve .reference
        Revalidation.samplePayment Revalidation.sampleNow
        narrowDatabase).toOption.map Revalidation.Resolved.ready =
          some true := by
      decide
    have hamount : Reference.decimal? Revalidation.samplePayment.amount =
        some 10 := by
      decide
    obtain ⟨state, db', _, _, hrun⟩ :=
      Revalidation.minted_of_plain Revalidation.sample_plain hready
        (Revalidation.sample_mint ⟨rfl, rfl, rfl, rfl, rfl⟩ ⟨rfl, rfl, rfl⟩
          hamount (by norm_num))
    exact ⟨_, db', hrun, rfl⟩
  · have hvalue : (Fallible.value? (postDecisions .reference sampleAuth
        sampleDecision Revalidation.sampleNow sampleDecisionIds)
        narrowDatabase).map DecisionResponse.result = some .allow := by
      decide
    exact Fallible.exists_ok_of_value hvalue

end Api
end Orvex
