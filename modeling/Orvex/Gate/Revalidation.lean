import Orvex.Application.Orchestrator
import Orvex.Approval.Service
import Orvex.Financial.Idempotency
import Orvex.Financial.Service

/-!
# Final revalidation

The last check before an execution request exists.  The service derives the
decision again from the current state, and only if it is still ALLOW it
registers the execution, holds the budget and mints the request.
-/

namespace Orvex
namespace Revalidation

structure RevalidateInput where
  companyId : String
  agentId : String
  decisionId : String
  intent : Intent
  proposal : ActionProposal
  securityAssessment : SecurityAssessment
  transactionId : String
  analysis : TransactionAnalysis
  expectedNetwork : String
  actualNetwork : String
  simulation : SimulationResult
  simulatedPayloadHash : String
  approvalId : Option String
  /-- The hash captured at decision time. -/
  decisionContextHash : String
  financialScopeKey : String
  asset : String
  amount : String
  assessmentMaxAgeMs : Option ℚ
  simulationRequired : Bool

structure RevalidationOutcome where
  result : DecisionResult
  determinant : String
  reasons : List String
  executionRequest : Option ExecutionRequestRecord
  reservationId : Option String
  deriving DecidableEq

/-! ## Deriving the decision again -/

def payloadHash (rt : Runtime) (input : RevalidateInput) : String :=
  Gate.transactionPayloadHash rt
    { transactionId := input.transactionId
      network := input.actualNetwork
      recipient := input.analysis.recipient
      amount := input.analysis.amount
      asset := input.analysis.asset
      contractAddress := input.analysis.contract.map ContractRef.address
      functionSelector := input.analysis.function.map FunctionRef.selector }

/-- The status is VALID, and `valid_until` lies ahead where it can be
read. -/
def intentValid (rt : Runtime) (intent : Intent) (now : ℤ) : Bool :=
  decide (intent.status = .valid) &&
    match rt.parseDate intent.validUntil with
    | none => true
    | some validUntil => decide (now < validUntil)

def evaluationContext (rt : Runtime) (proposal : ActionProposal)
    (capability : Option Capability) (now : ℤ) : EvaluationContext where
  transaction := Orchestrator.transactionContext proposal proposal.network
  cumulativeSpent := none
  cumulativeByKey := none
  knownRecipients := none
  trajectoryEventTypes := none
  recentTransactions := none
  capabilityExpiresAt :=
    (capability.bind Capability.expiresAt).map rt.toISOString
  now := rt.toISOString now

/-- What the policy says of the current state. -/
structure PolicyReading where
  policyId : Option String
  policyVersion : ℕ
  policyVersionId : Option String
  evaluationHash : String
  status : PolicyEvaluationStatus
  deriving DecidableEq

def noPolicy (policyId : Option String) : PolicyReading :=
  ⟨policyId, 0, none, "none", .fail⟩

def readPolicy (rt : Runtime) (input : RevalidateInput)
    (agent : Option Agent) (capability : Option Capability) (now : ℤ)
    (db : Database) : Except Failure PolicyReading :=
  match agent.bind Agent.activePolicyId with
  | none => .ok (noPolicy none)
  | some id =>
      if id = "" then .ok (noPolicy (some id))
      else
        match Policies.getActiveVersion input.companyId id db with
        | none => .ok (noPolicy (some id))
        | some version => do
            let rules ← Policies.loadRules input.companyId version.id db
            let evaluation ← PolicyEngine.evaluate rt id version.version
              rules (evaluationContext rt input.proposal capability now)
            pure ⟨some id, version.version, some version.id,
              evaluation.evaluationHash, evaluation.status⟩

def assessmentStale (rt : Runtime) (input : RevalidateInput) (now : ℤ) :
    Bool :=
  match input.assessmentMaxAgeMs with
  | none => false
  | some maxAgeMs =>
      match rt.parseDate input.securityAssessment.createdAt with
      | none => true
      | some created => Intake.tooOld created now maxAgeMs

def transactionGate (rt : Runtime) (input : RevalidateInput) :
    TransactionGateResult :=
  Gate.compareProposalVsTransaction rt input.proposal input.analysis
    { expectedNetwork := input.expectedNetwork
      actualNetwork := input.actualNetwork
      expectSimplePayment := decide (input.proposal.actionType = .pay) }

def simulationBinding (rt : Runtime) (input : RevalidateInput) :
    SimulationBindingResult :=
  Gate.validateSimulationBinding input.simulation input.transactionId
    input.simulatedPayloadHash (payloadHash rt input)

/-- An approval is required where the caller names one. -/
def approvalState (input : RevalidateInput) (now : ℤ) (db : Database) :
    ApprovalState :=
  if truthy input.approvalId then
    .required (Approvals.resolveApprovalState input.companyId
      (input.approvalId.getD "") input.decisionContextHash now db)
  else .notRequired

def hashContext (rt : Runtime) (input : RevalidateInput)
    (policy : PolicyReading) : DecisionHashContext where
  intentId := input.intent.intentId
  proposalId := input.proposal.proposalId
  policyId := policy.policyId.getD "none"
  policyVersion := policy.policyVersion
  policyEvaluationHash := policy.evaluationHash
  securityAssessmentId := input.securityAssessment.assessmentId
  transactionId := some input.transactionId
  transactionPayloadHash := some (payloadHash rt input)
  simulationId := some input.simulation.transactionId
  approvalContextHash :=
    if truthy input.approvalId then some input.decisionContextHash else none

def freshHash (rt : Runtime) (input : RevalidateInput)
    (policy : PolicyReading) : String :=
  DecisionEngine.contextHash rt (hashContext rt input policy)

/-- A captured hash that differs from the fresh one; an empty hash is not
compared. -/
def contextDrift (rt : Runtime) (input : RevalidateInput)
    (policy : PolicyReading) : Bool :=
  input.decisionContextHash != "" &&
    input.decisionContextHash != freshHash rt input policy

structure Resolved where
  agent : Option Agent
  constitution : Option Constitution
  capability : Option Capability
  policy : PolicyReading

def decisionInput (rt : Runtime) (input : RevalidateInput)
    (state : Resolved) (now : ℤ) (db : Database) : DecisionInput where
  platformInvariantViolated := false
  agentActive := state.agent.any (fun agent => agent.status = .active)
  intentValid := intentValid rt input.intent now
  capabilityValid := state.capability.isSome
  constitutionCompatible := state.constitution.isSome
  policyEvaluation :=
    { status := state.policy.status
      policyId := state.policy.policyId.getD "none"
      policyVersion := state.policy.policyVersion
      evaluationHash := state.policy.evaluationHash }
  transactionGate := some (transactionGate rt input)
  simulationRequired := input.simulationRequired
  simulationOutcome := some (Gate.classifySimulation input.simulation)
  simulationBinding := some (simulationBinding rt input)
  contextStale :=
    assessmentStale rt input now || contextDrift rt input state.policy
  approval := approvalState input now db
  aiRecommendedHandling :=
    some input.securityAssessment.overallAssessment.recommendedHandling

/-- The authoritative state at `now`. -/
def resolve (rt : Runtime) (input : RevalidateInput) (now : ℤ)
    (db : Database) : Except Failure Resolved := do
  let agent := Agents.getAgent input.companyId input.agentId db
  let constitution :=
    Constitutions.getActiveConstitution input.companyId input.agentId db
  let capability :=
    if agent.isSome then
      (Capabilities.getActiveCapabilities input.companyId input.agentId now
        db).head?
    else none
  let policy ← readPolicy rt input agent capability now db
  pure ⟨agent, constitution, capability, policy⟩

/-! ## Minting -/

/-- The ids that the database generates for the rows of one call. -/
structure MintIds where
  idempotency : String
  account : String
  reservation : String
  executionRequest : String
  deriving DecidableEq

def registration (rt : Runtime) (input : RevalidateInput) :
    Idempotency.RegisterInput where
  companyId := input.companyId
  idempotencyKey := payloadHash rt input
  operationType := "EXECUTION"
  request := .object
    [("decisionId", .string input.decisionId),
      ("transactionId", .string input.transactionId),
      ("amount", .string input.amount),
      ("recipient", .string input.analysis.recipient),
      ("network", .string input.actualNetwork)]
  resourceType := none
  resourceId := none

def reserveInput (input : RevalidateInput) : Financial.ReserveInput where
  companyId := input.companyId
  agentId := some input.agentId
  scope := .agent
  scopeKey := input.financialScopeKey
  asset := input.asset
  network := some input.actualNetwork
  amount := input.amount
  executionRequestId := none

def findExisting (rt : Runtime) (input : RevalidateInput) (db : Database) :
    Option ExecutionRequestRecord :=
  executionRequestTable.find (fun request =>
    request.companyId = input.companyId ∧
      request.idempotencyKey = payloadHash rt input) db

def newRequest (rt : Runtime) (input : RevalidateInput)
    (policy : PolicyReading) (now : ℤ) (uuid : String) :
    ExecutionRequestRecord where
  id := uuid
  companyId := input.companyId
  agentId := input.agentId
  decisionId := input.decisionId
  transactionId := input.transactionId
  policyVersionId := policy.policyVersionId
  authorizationContextHash := freshHash rt input policy
  idempotencyKey := payloadHash rt input
  executorType := "SMART_ACCOUNT"
  network := input.actualNetwork
  status := .authorized
  authorizedAt := some now

def requestAllowed (request : ExecutionRequestRecord) (db : Database) :
    Bool :=
  companyExists request.companyId db &&
    db.executionRequests.all (fun other =>
      other.companyId != request.companyId ||
        other.idempotencyKey != request.idempotencyKey)

def reused (existing : ExecutionRequestRecord) : RevalidationOutcome :=
  ⟨.allow, "allow_idempotent",
    ["Existing execution request reused (idempotent)."], some existing,
    none⟩

def budgetExceeded : RevalidationOutcome :=
  ⟨.deny, "budget_exceeded", ["Budget unavailable at execution time."], none,
    none⟩

def minted (request : ExecutionRequestRecord) (reservationId : String) :
    RevalidationOutcome :=
  ⟨.allow, "allow", ["Final revalidation passed; execution authorized."],
    some request, some reservationId⟩

/-- Creates the request and binds the reservation to it. -/
def authorize (rt : Runtime) (input : RevalidateInput)
    (policy : PolicyReading) (now : ℤ) (uuid reservationId : String) :
    Service RevalidationOutcome := do
  let row := newRequest rt input policy now uuid
  let request ← executionRequestTable.create .constraint
    (requestAllowed row) row
  let _ ← reservationTable.update .recordNotFound reservationId
    (fun res => { res with executionRequestId := some request.id })
  pure (minted request reservationId)

def mint (rt : Runtime) (input : RevalidateInput) (policy : PolicyReading)
    (now : ℤ) (ids : MintIds) : Service RevalidationOutcome := do
  let _ ← Idempotency.register rt (registration rt input) ids.idempotency
  match ← Fallible.query (findExisting rt input) with
  | some existing => pure (reused existing)
  | none =>
      match ← Fallible.attempt (Financial.reserve rt (reserveInput input)
          ids.account ids.reservation) with
      | .ok reservation =>
          authorize rt input policy now ids.executionRequest reservation.id
      | .error failure =>
          if failure.hasCode .policyViolation then pure budgetExceeded
          else Fallible.fail failure

def refused (decision : DecisionOutput) : RevalidationOutcome :=
  ⟨decision.result, decision.determinant, decision.reasons, none, none⟩

def revalidate (rt : Runtime) (input : RevalidateInput) (now : ℤ)
    (ids : MintIds) : Service RevalidationOutcome := do
  let state ← reading (resolve rt input now)
  let decision ← Fallible.query (fun db =>
    DecisionEngine.decide (decisionInput rt input state now db))
  if decision.result ≠ .allow then pure (refused decision)
  else mint rt input state.policy now ids

end Revalidation
end Orvex
