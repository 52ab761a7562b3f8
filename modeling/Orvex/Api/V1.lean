import Orvex.Application.Intake
import Orvex.Application.Orchestrator
import Orvex.Approval.Service
import Orvex.Gate.ExecutionResult
import Orvex.Gate.Revalidation

/-!
# The /v1 routes

The write routes of the product API over the services.  A call carries the
instant at which it runs and the ids that the database generates for it.
-/

namespace Orvex
namespace Api

structure AuthContext where
  companyId : String
  actorId : String
  actorRole : String
  deriving DecidableEq

def requireRole (auth : AuthContext) (roles : List String) : Service Unit :=
  if roles.contains auth.actorRole then pure ()
  else
    Fallible.fail (.of .authorizationError
      "Actor role is not permitted for this operation."
      [("role", auth.actorRole)])

def operatorRoles : List String :=
  ["ADMIN", "AUTHORIZED_OPERATOR", "SERVICE"]

def activatorRoles : List String := ["ADMIN", "AUTHORIZED_OPERATOR"]

def executorRoles : List String := ["ADMIN", "SERVICE", "EXECUTOR"]

/-! ## Agents -/

structure CreateAgentBody where
  name : Option String
  purpose : Option String
  executionMode : Option ExecutionMode
  deriving DecidableEq

def postAgents (auth : AuthContext) (body : CreateAgentBody)
    (uuid : String) : Service Agent := do
  requireRole auth operatorRoles
  Agents.createAgent
    ⟨auth.companyId, body.name, body.purpose, body.executionMode⟩ uuid

/-- The lifecycle transition that a status asks for. -/
def statusTransition (companyId agentId status : String) : Service Agent :=
  if status = "ACTIVE" then Agents.activateAgent companyId agentId
  else if status = "PAUSED" then Agents.pauseAgent companyId agentId
  else if status = "SUSPENDED" then Agents.suspendAgent companyId agentId
  else if status = "DISABLED" then Agents.disableAgent companyId agentId
  else
    Fallible.fail
      (.of .invalidInput "Unsupported agent status transition." [])

def patchAgent (auth : AuthContext) (agentId : String)
    (status : Option String) : Service Agent := do
  requireRole auth operatorRoles
  let _ ← reading (Agents.requireAgent auth.companyId agentId)
  if truthy status then
    let _ ← statusTransition auth.companyId agentId (status.getD "")
    reading (Agents.requireAgent auth.companyId agentId)
  else reading (Agents.requireAgent auth.companyId agentId)

/-! ## Intents, proposals and assessments -/

def postIntents (rt : Runtime) (auth : AuthContext) (intent : Intent)
    (uuid : String) : Service IntentRecord :=
  Intake.createIntent rt auth.companyId intent uuid

def postProposals (auth : AuthContext) (proposal : ActionProposal)
    (uuid : String) : Service ActionProposalRecord :=
  Intake.createProposal auth.companyId proposal uuid

def postAssessments (rt : Runtime) (auth : AuthContext)
    (proposalId : String) (assessment : SecurityAssessment)
    (uuid : String) : Service SecurityAssessmentRecord :=
  Intake.ingestAssessment rt auth.companyId proposalId assessment uuid

/-! ## Policies -/

structure PolicyBody where
  name : Option String
  agentId : Option String
  description : Option String
  rules : Option Json

/-- `rules ?? []`. -/
def bodyRules (body : PolicyBody) : Json :=
  match body.rules with
  | none => .array []
  | some .null => .array []
  | some rules => rules

def postPolicies (rt : Runtime) (auth : AuthContext) (body : PolicyBody)
    (ids : Policies.DraftIds) : Service (Policy × PolicyVersion) := do
  requireRole auth operatorRoles
  Policies.createDraft rt
    { companyId := auth.companyId
      agentId := body.agentId
      name := body.name
      description := body.description
      rules := bodyRules body
      sourceType := none
      sourceReference := none
      createdBy := none } ids

def postPoliciesCompile (rt : Runtime) (auth : AuthContext)
    (body : PolicyBody) (ids : Policies.DraftIds) :
    Service (Policy × PolicyVersion) := do
  requireRole auth operatorRoles
  Policies.createDraft rt
    { companyId := auth.companyId
      agentId := body.agentId
      name := body.name
      description := some "compiled candidate (DRAFT)"
      rules := bodyRules body
      sourceType := some "AI_COMPILED"
      sourceReference := none
      createdBy := none } ids

def postPolicyValidate (auth : AuthContext) (policyVersionId : String) :
    Service PolicyVersion := do
  requireRole auth operatorRoles
  let _ ← Policies.validate auth.companyId policyVersionId
  let _ ← Policies.simulate auth.companyId policyVersionId
  Policies.approve auth.companyId policyVersionId (some auth.actorId)

/-- Points the agent of the policy at it, whatever company the agent is
of. -/
def repointAgent (companyId policyId : String) : Service Unit := do
  match ← Fallible.query (Policies.getPolicy companyId policyId) with
  | none => pure ()
  | some policy =>
      if truthy policy.agentId then
        let _ ← agentTable.update .recordNotFound (policy.agentId.getD "")
          (fun agent => { agent with activePolicyId := some policy.id })
        pure ()
      else pure ()

def postPolicyActivate (auth : AuthContext)
    (policyId policyVersionId : String) (now : ℤ) :
    Service PolicyVersion := do
  requireRole auth activatorRoles
  let activated ← Policies.activate auth.companyId policyVersionId now
  repointAgent auth.companyId policyId
  pure activated

/-! ## Constitutions -/

def postConstitutions (rt : Runtime) (auth : AuthContext)
    (agentId : String) (config : Json) (uuid : String) :
    Service Constitution := do
  requireRole auth operatorRoles
  Constitutions.createConstitution rt
    ⟨auth.companyId, agentId, config, some auth.actorId⟩ uuid

def postConstitutionActivate (auth : AuthContext)
    (constitutionId : String) (now : ℤ) : Service Constitution := do
  requireRole auth activatorRoles
  Constitutions.activateConstitution auth.companyId constitutionId now

/-! ## Decisions -/

structure DecisionBody where
  agentId : String
  intent : Intent
  proposal : ActionProposal
  securityAssessment : SecurityAssessment
  traceId : Option String
  assessmentMaxAgeMs : Option ℚ
  requireSimulation : Bool

structure DecisionResponse where
  decision : Decision
  result : DecisionResult
  contextHash : String
  approvalId : Option String
  deriving DecidableEq

structure DecisionIds where
  decision : String
  approval : String
  deriving DecidableEq

/-- The container configures no analysis and no simulation provider. -/
def providers : Orchestrator.Providers := ⟨none, none⟩

def orchestrateInput (auth : AuthContext) (body : DecisionBody) :
    Orchestrator.OrchestrateInput where
  companyId := auth.companyId
  agentId := body.agentId
  intent := body.intent
  proposal := body.proposal
  securityAssessment := body.securityAssessment
  traceId := body.traceId
  assessmentMaxAgeMs := body.assessmentMaxAgeMs
  requireSimulation := body.requireSimulation

/-- The orchestrator has refused where one of the first conditions fails. -/
def decisionInput (body : DecisionBody) (evaluation : PolicyEvaluation) :
    DecisionInput where
  platformInvariantViolated := false
  agentActive := true
  intentValid := true
  capabilityValid := true
  constitutionCompatible := true
  policyEvaluation :=
    { status := evaluation.status
      policyId := evaluation.policyId
      policyVersion := evaluation.policyVersion
      evaluationHash := evaluation.evaluationHash }
  transactionGate := none
  simulationRequired := false
  simulationOutcome := none
  simulationBinding := none
  contextStale := false
  approval := .notRequired
  aiRecommendedHandling :=
    some body.securityAssessment.overallAssessment.recommendedHandling

def decisionHashContext (body : DecisionBody)
    (evaluation : PolicyEvaluation) : DecisionHashContext where
  intentId := body.intent.intentId
  proposalId := body.proposal.proposalId
  policyId := evaluation.policyId
  policyVersion := evaluation.policyVersion
  policyEvaluationHash := evaluation.evaluationHash
  securityAssessmentId := body.securityAssessment.assessmentId
  transactionId := none
  transactionPayloadHash := none
  simulationId := none
  approvalContextHash := none

def persistInput (auth : AuthContext) (body : DecisionBody)
    (context : Orchestrator.DecisionContext) (output : DecisionOutput)
    (contextHash : String) : Decisions.PersistDecisionInput where
  companyId := auth.companyId
  agentId := body.agentId
  intentId := body.intent.intentId
  proposalId := body.proposal.proposalId
  policyId := some context.policyEvaluation.policyId
  policyVersionId := some context.policyVersionId
  securityAssessmentId := some body.securityAssessment.assessmentId
  transactionId := none
  simulationResultId := none
  approvalRequestId := none
  output := output
  decisionContextHash := contextHash

def approvalInput (auth : AuthContext) (body : DecisionBody)
    (decision : Decision) (output : DecisionOutput) (contextHash : String)
    (now : ℤ) : Approvals.CreateApprovalInput where
  companyId := auth.companyId
  agentId := body.agentId
  decisionId := decision.id
  transactionId := none
  policyVersionId := none
  requiredRole := "AUTHORIZED_OPERATOR"
  summary := .object [("reasons", textArray output.reasons)]
  contextHash := contextHash
  expiresAt := now + 15 * 60000

/-- Asks for a human where the result is REVIEW. -/
def requestApproval (auth : AuthContext) (body : DecisionBody)
    (decision : Decision) (output : DecisionOutput) (contextHash : String)
    (now : ℤ) (uuid : String) : Service (Option String) :=
  if output.result = .review then do
    let request ← Approvals.createRequest
      (approvalInput auth body decision output contextHash now) uuid
    pure (some request.id)
  else pure none

def postDecisions (rt : Runtime) (auth : AuthContext) (body : DecisionBody)
    (now : ℤ) (ids : DecisionIds) : Service DecisionResponse := do
  let context ← reading (Orchestrator.orchestrate rt providers
    (orchestrateInput auth body) now)
  let evaluation := context.policyEvaluation
  let output := DecisionEngine.decide (decisionInput body evaluation)
  let contextHash :=
    DecisionEngine.contextHash rt (decisionHashContext body evaluation)
  let decision ← Decisions.record
    (persistInput auth body context output contextHash) ids.decision
  let approvalId ← requestApproval auth body decision output contextHash now
    ids.approval
  pure ⟨decision, output.result, contextHash, approvalId⟩

/-! ## Approvals -/

def approver (auth : AuthContext) : Approvals.Approver :=
  ⟨auth.actorId, auth.companyId, auth.actorRole⟩

def postApprove (auth : AuthContext) (approvalId contextHash : String)
    (now : ℤ) (uuid : String) : Service (ApprovalRequest × ApprovalResult) :=
  Approvals.approve auth.companyId approvalId (approver auth) contextHash now
    uuid

def postDeny (auth : AuthContext) (approvalId : String) (now : ℤ)
    (uuid : String) : Service (ApprovalRequest × ApprovalResult) :=
  Approvals.deny auth.companyId approvalId (approver auth) now uuid

/-! ## Executions -/

structure PrepareBody where
  agentId : String
  decisionId : String
  intent : Intent
  proposal : ActionProposal
  securityAssessment : SecurityAssessment
  transactionId : String
  analysis : TransactionAnalysis
  expectedNetwork : String
  actualNetwork : String
  simulation : SimulationResult
  simulatedPayloadHash : String
  approvalId : Option String
  decisionContextHash : String
  financialScopeKey : String
  asset : String
  amount : String
  assessmentMaxAgeMs : Option ℚ
  requireSimulation : Bool

def revalidateInput (auth : AuthContext) (body : PrepareBody) :
    Revalidation.RevalidateInput where
  companyId := auth.companyId
  agentId := body.agentId
  decisionId := body.decisionId
  intent := body.intent
  proposal := body.proposal
  securityAssessment := body.securityAssessment
  transactionId := body.transactionId
  analysis := body.analysis
  expectedNetwork := body.expectedNetwork
  actualNetwork := body.actualNetwork
  simulation := body.simulation
  simulatedPayloadHash := body.simulatedPayloadHash
  approvalId := body.approvalId
  decisionContextHash := body.decisionContextHash
  financialScopeKey := body.financialScopeKey
  asset := body.asset
  amount := body.amount
  assessmentMaxAgeMs := body.assessmentMaxAgeMs
  simulationRequired := body.requireSimulation

/-- The refusal of an execution that is not authorized. -/
def blocked (outcome : Revalidation.RevalidationOutcome) : Failure :=
  .of .executionBlocked
    ("Execution not authorized: " ++ outcome.determinant ++ ".")
    [("determinant", outcome.determinant),
      ("reasons", ",".intercalate outcome.reasons)]

def postPrepare (rt : Runtime) (auth : AuthContext) (body : PrepareBody)
    (now : ℤ) (ids : Revalidation.MintIds) :
    Service Revalidation.RevalidationOutcome := do
  requireRole auth operatorRoles
  let outcome ← Revalidation.revalidate rt (revalidateInput auth body) now ids
  if outcome.result ≠ .allow then Fallible.fail (blocked outcome)
  else pure outcome

def postReconcile (rt : Runtime) (client : ExecutionResults.ExecutionClient)
    (auth : AuthContext) (executionId : String) (now : ℤ) :
    Service ExecutionResults.ReconcileOutcome :=
  ExecutionResults.reconcile rt client auth.companyId executionId now

structure ResultBody where
  status : ExecutionResultStatus
  chain : String
  transactionHash : Option String
  deriving DecidableEq

def postResult (rt : Runtime) (auth : AuthContext) (executionId : String)
    (body : ResultBody) (now : ℤ) (uuid : String) :
    Service ExecutionResultRecord := do
  requireRole auth executorRoles
  ExecutionResults.ingestResult rt auth.companyId
    { executionId := executionId
      status := body.status
      chain := body.chain
      transactionHash := body.transactionHash
      submittedAt := none
      confirmedAt := none
      authenticated := true } now uuid

def postVerify (rt : Runtime) (client : ExecutionResults.ExecutionClient)
    (auth : AuthContext) (executionId : String)
    (authorized : ExecutionResults.AuthorizedReceipt) (now : ℤ)
    (uuid : String) : Service (ReceiptVerificationRecord × Bool) := do
  requireRole auth executorRoles
  ExecutionResults.verifyAndFinalize rt client auth.companyId executionId
    authorized now uuid

/-! ## Operations -/

/-- A call of one of the write routes. -/
inductive Operation where
  | createAgent (body : CreateAgentBody) (uuid : String)
  | updateAgent (agentId : String) (status : Option String)
  | createIntent (intent : Intent) (uuid : String)
  | createProposal (proposal : ActionProposal) (uuid : String)
  | ingestAssessment (proposalId : String)
      (assessment : SecurityAssessment) (uuid : String)
  | createPolicy (body : PolicyBody) (ids : Policies.DraftIds)
  | compilePolicy (body : PolicyBody) (ids : Policies.DraftIds)
  | validatePolicy (policyVersionId : String)
  | activatePolicy (policyId policyVersionId : String)
  | createConstitution (agentId : String) (config : Json) (uuid : String)
  | activateConstitution (constitutionId : String)
  | createDecision (body : DecisionBody) (ids : DecisionIds)
  | approve (approvalId contextHash uuid : String)
  | deny (approvalId uuid : String)
  | prepare (body : PrepareBody) (ids : Revalidation.MintIds)
  | reconcile (client : ExecutionResults.ExecutionClient)
      (executionId : String)
  | ingestResult (executionId : String) (body : ResultBody) (uuid : String)
  | verify (client : ExecutionResults.ExecutionClient)
      (executionId : String)
      (authorized : ExecutionResults.AuthorizedReceipt) (uuid : String)

structure Call where
  auth : AuthContext
  now : ℤ
  operation : Operation

/-- The effect of a service, without its answer. -/
def discard {α : Type} (x : Service α) : Service Unit := do
  let _ ← x
  pure ()

@[simp] theorem discard_state {α : Type} (x : Service α) (db : Database) :
    (discard x db).2 = (x db).2 :=
  Fallible.bind_pure_state x (fun _ => ()) db

theorem keeps_requireRole {inv : Database → Prop} (auth : AuthContext)
    (roles : List String) : Fallible.Keeps inv (requireRole auth roles) :=
  Fallible.Keeps.ite (Fallible.keeps_pure _) (Fallible.keeps_fail _)

def Call.perform (rt : Runtime) (call : Call) : Service Unit :=
  let auth := call.auth
  let now := call.now
  match call.operation with
  | .createAgent body uuid => discard (postAgents auth body uuid)
  | .updateAgent agentId status => discard (patchAgent auth agentId status)
  | .createIntent intent uuid => discard (postIntents rt auth intent uuid)
  | .createProposal proposal uuid =>
      discard (postProposals auth proposal uuid)
  | .ingestAssessment proposalId assessment uuid =>
      discard (postAssessments rt auth proposalId assessment uuid)
  | .createPolicy body ids => discard (postPolicies rt auth body ids)
  | .compilePolicy body ids => discard (postPoliciesCompile rt auth body ids)
  | .validatePolicy policyVersionId =>
      discard (postPolicyValidate auth policyVersionId)
  | .activatePolicy policyId policyVersionId =>
      discard (postPolicyActivate auth policyId policyVersionId now)
  | .createConstitution agentId config uuid =>
      discard (postConstitutions rt auth agentId config uuid)
  | .activateConstitution constitutionId =>
      discard (postConstitutionActivate auth constitutionId now)
  | .createDecision body ids => discard (postDecisions rt auth body now ids)
  | .approve approvalId contextHash uuid =>
      discard (postApprove auth approvalId contextHash now uuid)
  | .deny approvalId uuid => discard (postDeny auth approvalId now uuid)
  | .prepare body ids => discard (postPrepare rt auth body now ids)
  | .reconcile client executionId =>
      discard (postReconcile rt client auth executionId now)
  | .ingestResult executionId body uuid =>
      discard (postResult rt auth executionId body now uuid)
  | .verify client executionId authorized uuid =>
      discard (postVerify rt client auth executionId authorized now uuid)

/-- The state that a call leaves, whether it succeeds or fails. -/
def Call.step (rt : Runtime) (call : Call) (db : Database) : Database :=
  (call.perform rt db).2

def run (rt : Runtime) (calls : List Call) (db : Database) : Database :=
  calls.foldl (fun state call => call.step rt state) db

/-- What every call keeps, every run keeps. -/
theorem run_induction {rt : Runtime} {inv : Database → Prop}
    (hstep : ∀ call db, inv db → inv (Call.step rt call db))
    {calls : List Call} {db : Database} (hdb : inv db) :
    inv (run rt calls db) := by
  induction calls generalizing db with
  | nil => exact hdb
  | cons call rest ih => exact ih (hstep call db hdb)

end Api
end Orvex
