import Orvex.Gate.TransactionGate
import Orvex.Policy.Engine
import Orvex.Core.Database

/-!
# The decision engine

The engine turns an assembled context into one of three results.  Its checks
stand in order of precedence: the first that fails decides.
-/

namespace Orvex

inductive ApprovalStatus where
  | absent | pending | approved | denied | expired | mismatch
  deriving DecidableEq

inductive ApprovalState where
  | notRequired
  | required (status : ApprovalStatus)
  deriving DecidableEq

/-- What the engine reads of a policy evaluation. -/
structure PolicySummary where
  status : PolicyEvaluationStatus
  policyId : String
  policyVersion : ℕ
  evaluationHash : String
  deriving DecidableEq

structure DecisionInput where
  platformInvariantViolated : Bool
  agentActive : Bool
  intentValid : Bool
  capabilityValid : Bool
  constitutionCompatible : Bool
  policyEvaluation : PolicySummary
  transactionGate : Option TransactionGateResult
  simulationRequired : Bool
  simulationOutcome : Option SimulationOutcome
  simulationBinding : Option SimulationBindingResult
  contextStale : Bool
  approval : ApprovalState
  aiRecommendedHandling : Option RecommendedHandling
  deriving DecidableEq

structure DecisionOutput where
  result : DecisionResult
  reasons : List String
  determinant : String
  deriving DecidableEq

structure DecisionHashContext where
  intentId : String
  proposalId : String
  policyId : String
  policyVersion : ℕ
  policyEvaluationHash : String
  securityAssessmentId : String
  transactionId : Option String
  transactionPayloadHash : Option String
  simulationId : Option String
  approvalContextHash : Option String
  deriving DecidableEq

namespace DecisionEngine

def deny (reason determinant : String) : DecisionOutput :=
  ⟨.deny, [reason], determinant⟩

def review (reason determinant : String) : DecisionOutput :=
  ⟨.review, [reason], determinant⟩

def gateFields (gate : Option TransactionGateResult) : String :=
  ", ".intercalate ((gate.map TransactionGateResult.mismatches).getD [] |>.map
    FieldMismatch.field)

def bindingText (binding : Option SimulationBindingResult) : String :=
  (binding.map (fun b => b.status.text)).getD ""

/-- Authority and hard policy violations. -/
def authorityChecks (input : DecisionInput) : List (Bool × DecisionOutput) :=
  [(input.platformInvariantViolated,
      deny "Platform security invariant violated." "platform_invariant"),
    (!input.agentActive, deny "Agent is not active." "agent_inactive"),
    (!input.intentValid, deny "Intent is not valid." "intent_invalid"),
    (!input.constitutionCompatible,
      deny "Constitution is not compatible." "constitution_incompatible"),
    (!input.capabilityValid,
      deny "Capability is invalid or expired." "capability_invalid"),
    (input.policyEvaluation.status == .fail,
      deny "Deterministic policy evaluation failed (hard violation)."
        "policy_violation")]

def transactionChecks (input : DecisionInput) :
    List (Bool × DecisionOutput) :=
  [(input.transactionGate.any (fun gate => gate.status == .mismatch),
      deny ("Transaction does not match proposal: " ++
        gateFields input.transactionGate ++ ".") "transaction_mismatch"),
    (input.simulationBinding.any (fun binding => binding.status != .valid),
      deny ("Simulation binding invalid: " ++
        bindingText input.simulationBinding ++ ".")
        "simulation_binding_invalid"),
    (input.simulationOutcome == some .deny,
      deny "Simulation indicates the transaction would fail."
        "simulation_deny"),
    (input.simulationRequired &&
        (input.simulationOutcome == none ||
          input.simulationOutcome == some .failClosed),
      deny "Mandatory simulation is missing or errored (fail closed)."
        "simulation_required")]

def freshnessChecks (input : DecisionInput) : List (Bool × DecisionOutput) :=
  [(input.contextStale,
      deny "Authorization context is stale." "context_stale")]

def approvalChecks (approval : ApprovalState) :
    List (Bool × DecisionOutput) :=
  [(approval == .required .denied,
      deny "Human approval was denied." "approval_denied"),
    (approval == .required .expired,
      deny "Required approval has expired." "approval_expired"),
    (approval == .required .mismatch,
      deny "Approval context does not match current context."
        "approval_mismatch"),
    (approval == .required .pending || approval == .required .absent,
      review "Human approval is required." "approval_required")]

/-- Signals that ask for a human; none of them can authorize. -/
def reviewChecks (input : DecisionInput) : List (Bool × DecisionOutput) :=
  [(input.policyEvaluation.status == .review,
      review "Policy requires human review." "policy_review"),
    (input.aiRecommendedHandling == some .denyRecommended ||
        input.aiRecommendedHandling == some .review,
      review "AI advisory recommends elevated review."
        "ai_advisory_review"),
    (input.simulationOutcome == some .review,
      review "Simulation reported an unexpected state change."
        "simulation_review")]

/-- The checks in order of precedence, each with what it decides when it
objects. -/
def checks (input : DecisionInput) : List (Bool × DecisionOutput) :=
  authorityChecks input ++ transactionChecks input ++
    freshnessChecks input ++ approvalChecks input.approval ++
    reviewChecks input

def allowed : DecisionOutput :=
  ⟨.allow, ["All deterministic authorization conditions satisfied."],
    "allow"⟩

/-- The first check that objects decides; otherwise the result is ALLOW. -/
def decide (input : DecisionInput) : DecisionOutput :=
  (((checks input).find? Prod.fst).map Prod.snd).getD allowed

def contextJson (ctx : DecisionHashContext) : Json :=
  .object
    [("intentId", .string ctx.intentId),
      ("proposalId", .string ctx.proposalId),
      ("policyId", .string ctx.policyId),
      ("policyVersion", .number ctx.policyVersion),
      ("policyEvaluationHash", .string ctx.policyEvaluationHash),
      ("securityAssessmentId", .string ctx.securityAssessmentId),
      ("transactionId", nullable ctx.transactionId),
      ("transactionPayloadHash", nullable ctx.transactionPayloadHash),
      ("simulationId", nullable ctx.simulationId),
      ("approvalContextHash", nullable ctx.approvalContextHash)]

def contextHash (rt : Runtime) (ctx : DecisionHashContext) : String :=
  sha256Json rt (contextJson ctx)

/-! ## When the result is ALLOW -/

/-- No check decides ALLOW. -/
theorem checks_result (input : DecisionInput) :
    ∀ check ∈ checks input, check.2.result ≠ .allow := by
  simp [checks, authorityChecks, transactionChecks, freshnessChecks,
    approvalChecks, reviewChecks, deny, review]

theorem decide_allow_iff {input : DecisionInput} :
    (decide input).result = .allow ↔
      ∀ check ∈ checks input, check.1 = false := by
  unfold decide
  cases hfind : (checks input).find? Prod.fst with
  | none =>
      rw [List.find?_eq_none] at hfind
      simpa [allowed] using hfind
  | some check =>
      have hmem := List.mem_of_find?_eq_some hfind
      have hobjects := List.find?_some hfind
      constructor
      · intro h
        exact absurd h (checks_result input check hmem)
      · intro h
        rw [h check hmem] at hobjects
        exact absurd hobjects (by simp)

/-- Every condition that an ALLOW rests on. -/
structure Cleared (input : DecisionInput) : Prop where
  platform : input.platformInvariantViolated = false
  agent : input.agentActive = true
  intent : input.intentValid = true
  constitution : input.constitutionCompatible = true
  capability : input.capabilityValid = true
  policy : input.policyEvaluation.status = .pass
  gate : ∀ gate, input.transactionGate = some gate →
    gate.status ≠ .mismatch
  binding : ∀ binding, input.simulationBinding = some binding →
    binding.status = .valid
  outcome : input.simulationOutcome ≠ some .deny ∧
    input.simulationOutcome ≠ some .review
  simulation : input.simulationRequired = true →
    input.simulationOutcome ≠ none ∧
      input.simulationOutcome ≠ some .failClosed
  fresh : input.contextStale = false
  approval : input.approval = .notRequired ∨
    input.approval = .required .approved
  advisory : input.aiRecommendedHandling ≠ some .denyRecommended ∧
    input.aiRecommendedHandling ≠ some .review

theorem authorityChecks_clear {input : DecisionInput} :
    (∀ check ∈ authorityChecks input, check.1 = false) ↔
      input.platformInvariantViolated = false ∧ input.agentActive = true ∧
        input.intentValid = true ∧ input.constitutionCompatible = true ∧
          input.capabilityValid = true ∧
            input.policyEvaluation.status ≠ .fail := by
  simp [authorityChecks]

theorem transactionChecks_clear {input : DecisionInput} :
    (∀ check ∈ transactionChecks input, check.1 = false) ↔
      (∀ gate, input.transactionGate = some gate →
          gate.status ≠ .mismatch) ∧
        (∀ binding, input.simulationBinding = some binding →
            binding.status = .valid) ∧
          input.simulationOutcome ≠ some .deny ∧
            (input.simulationRequired = true →
              input.simulationOutcome ≠ none ∧
                input.simulationOutcome ≠ some .failClosed) := by
  simp [transactionChecks, Option.any_eq_false,
    Option.isSome_iff_ne_none]

theorem approvalChecks_clear {approval : ApprovalState} :
    (∀ check ∈ approvalChecks approval, check.1 = false) ↔
      approval = .notRequired ∨ approval = .required .approved := by
  cases approval with
  | notRequired => simp [approvalChecks]
  | required status => cases status <;> simp [approvalChecks]

theorem reviewChecks_clear {input : DecisionInput} :
    (∀ check ∈ reviewChecks input, check.1 = false) ↔
      input.policyEvaluation.status ≠ .review ∧
        (input.aiRecommendedHandling ≠ some .denyRecommended ∧
          input.aiRecommendedHandling ≠ some .review) ∧
          input.simulationOutcome ≠ some .review := by
  simp [reviewChecks]

theorem status_pass_iff {status : PolicyEvaluationStatus} :
    status = .pass ↔ status ≠ .fail ∧ status ≠ .review := by
  cases status <;> simp

/-- The engine answers ALLOW exactly when nothing objects. -/
theorem decide_allow_iff_cleared {input : DecisionInput} :
    (decide input).result = .allow ↔ Cleared input := by
  rw [decide_allow_iff]
  unfold checks
  simp only [List.forall_mem_append]
  rw [authorityChecks_clear, transactionChecks_clear, approvalChecks_clear,
    reviewChecks_clear]
  simp only [freshnessChecks, List.mem_singleton, forall_eq]
  constructor
  · rintro ⟨⟨⟨⟨hauthority, htransaction⟩, hfresh⟩, happroval⟩, hreview⟩
    obtain ⟨hplatform, hagent, hintent, hconstitution, hcapability, hfail⟩ :=
      hauthority
    obtain ⟨hgate, hbinding, hdeny, hsimulation⟩ := htransaction
    obtain ⟨hpolicy, hadvisory, houtcome⟩ := hreview
    exact
      { platform := hplatform
        agent := hagent
        intent := hintent
        constitution := hconstitution
        capability := hcapability
        policy := status_pass_iff.mpr ⟨hfail, hpolicy⟩
        gate := hgate
        binding := hbinding
        outcome := ⟨hdeny, houtcome⟩
        simulation := hsimulation
        fresh := hfresh
        approval := happroval
        advisory := hadvisory }
  · intro h
    obtain ⟨hfail, hreview⟩ := status_pass_iff.mp h.policy
    exact
      ⟨⟨⟨⟨⟨h.platform, h.agent, h.intent, h.constitution, h.capability,
        hfail⟩, h.gate, h.binding, h.outcome.1, h.simulation⟩, h.fresh⟩,
        h.approval⟩, hreview, h.advisory, h.outcome.2⟩

/-- Only a policy that asks for a human decides `policy_review`. -/
theorem status_of_policy_review {input : DecisionInput}
    (h : (decide input).determinant = "policy_review") :
    input.policyEvaluation.status = .review := by
  unfold decide at h
  cases hfind : (checks input).find? Prod.fst with
  | none =>
      rw [hfind] at h
      exact absurd h (by simp [allowed])
  | some check =>
      rw [hfind] at h
      have hdetermines : check.2.determinant = "policy_review" := h
      have hmem := List.mem_of_find?_eq_some hfind
      have hobjects := List.find?_some hfind
      simp only [checks, authorityChecks, transactionChecks,
        freshnessChecks, approvalChecks, reviewChecks, deny, review,
        List.mem_append, List.mem_cons, List.not_mem_nil, or_false]
        at hmem
      by_cases hreview : input.policyEvaluation.status = .review
      · exact hreview
      · rcases hmem with hmem | hreviews
        · rcases hmem with ((hmem | hmem) | rfl) | hmem
          · rcases hmem with rfl | rfl | rfl | rfl | rfl | rfl <;>
              simp at hdetermines
          · rcases hmem with rfl | rfl | rfl | rfl <;>
              simp at hdetermines
          · simp at hdetermines
          · rcases hmem with rfl | rfl | rfl | rfl <;>
              simp at hdetermines
        · rcases hreviews with rfl | rfl | rfl
          · exact eq_of_beq hobjects
          · simp at hdetermines
          · simp at hdetermines

end DecisionEngine
end Orvex
