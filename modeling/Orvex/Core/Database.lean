import Orvex.Core.Runtime
import Orvex.Core.Errors
import Orvex.Foundation.Tables
import Orvex.Policy.Rules

/-!
# The tables

One structure for each model of the Prisma schema that the modelled services
use, with the columns they read or write, and the database that holds them.
The rows of a table stand in the order in which an unordered query returns
them.
-/

namespace Orvex

inductive AgentStatus where
  | created | configured | active | paused | suspended | disabled
  deriving DecidableEq

inductive ExecutionMode where
  | simulate | reviewOnly | testnet | autonomous
  deriving DecidableEq

inductive ConstitutionStatus where
  | draft | validating | approved | active | superseded | disabled
  deriving DecidableEq

inductive CapabilityStatus where
  | active | expired | revoked
  deriving DecidableEq

inductive PolicyStatus where
  | draft | active | disabled
  deriving DecidableEq

inductive PolicyVersionStatus where
  | draft | validating | simulated | approved | active | superseded | disabled
  deriving DecidableEq

inductive FinancialAccountScope where
  | agent | company | category | recipient
  deriving DecidableEq

inductive ReservationStatus where
  | reserved | committed | released | unknown
  deriving DecidableEq

inductive IdempotencyStatus where
  | inProgress | completed | failed
  deriving DecidableEq

inductive TrajectoryTraceStatus where
  | active | completed | aborted | corrupted
  deriving DecidableEq

inductive DecisionResult where
  | allow | review | deny
  deriving DecidableEq

inductive ApprovalRequestStatus where
  | pending | approved | denied | expired | cancelled
  deriving DecidableEq

inductive ApprovalResultStatus where
  | approved | denied | expired
  deriving DecidableEq

inductive ExecutionRequestStatus where
  | created | authorized | submitted | confirmed | failed | unknown
  | cancelled
  deriving DecidableEq

inductive ExecutionResultStatus where
  | submitted | confirmed | failed | unknown
  deriving DecidableEq

inductive ReceiptVerificationStatus where
  | pending | verified | mismatch | failed | unknown
  deriving DecidableEq

inductive IntentRecordStatus where
  | valid | needsClarification | expired | cancelled | completed
  deriving DecidableEq

inductive ProposalRecordStatus where
  | received | validating | evaluating | approvedCandidate | reviewRequired
  | denied | completed
  deriving DecidableEq

/-! ## Rows -/

structure Agent where
  id : String
  companyId : String
  name : String
  purpose : String
  status : AgentStatus
  executionMode : ExecutionMode
  activeConstitutionId : Option String
  activePolicyId : Option String
  deriving DecidableEq

structure Constitution where
  id : String
  companyId : String
  agentId : String
  version : ℕ
  status : ConstitutionStatus
  purpose : String
  configurationJson : Json
  hash : String
  createdBy : Option String
  activatedAt : Option ℤ
  deactivatedAt : Option ℤ

structure Capability where
  id : String
  companyId : String
  agentId : String
  parentCapabilityId : Option String
  action : String
  asset : Option String
  network : Option String
  categoryScopeJson : Option (List String)
  recipientScopeJson : Option (List String)
  singleTransactionLimit : Option ℚ
  dailyLimit : Option ℚ
  weeklyLimit : Option ℚ
  monthlyLimit : Option ℚ
  validFrom : ℤ
  expiresAt : Option ℤ
  status : CapabilityStatus
  createdBy : Option String
  createdAt : ℤ
  revokedAt : Option ℤ
  deriving DecidableEq

structure Policy where
  id : String
  companyId : String
  agentId : Option String
  name : String
  description : String
  currentVersion : ℕ
  status : PolicyStatus
  createdBy : Option String
  deriving DecidableEq

/-- The rule set that a policy version owns. -/
structure CompiledPolicy where
  rules : Option (List CompiledRule)

structure PolicyVersion where
  id : String
  policyId : String
  version : ℕ
  status : PolicyVersionStatus
  compiledPolicyJson : CompiledPolicy
  hash : String
  sourceType : Option String
  sourceReference : Option String
  activatedAt : Option ℤ
  deactivatedAt : Option ℤ
  approvedBy : Option String

structure PolicyRule where
  id : String
  policyVersionId : String
  ruleId : String
  ruleType : RuleType
  priority : ℤ
  configurationJson : CompiledRule
  enabled : Bool

structure FinancialAccount where
  id : String
  companyId : String
  agentId : Option String
  scope : FinancialAccountScope
  scopeKey : String
  asset : String
  network : Option String
  currentReserved : ℚ
  currentCommitted : ℚ
  limitAmount : Option ℚ
  deriving DecidableEq

structure FinancialReservation where
  id : String
  companyId : String
  agentId : Option String
  executionRequestId : Option String
  financialAccountId : String
  amount : ℚ
  asset : String
  status : ReservationStatus
  releasedAt : Option ℤ
  committedAt : Option ℤ
  deriving DecidableEq

structure IdempotencyRecord where
  id : String
  companyId : String
  idempotencyKey : String
  operationType : String
  resourceType : Option String
  resourceId : Option String
  requestHash : String
  status : IdempotencyStatus
  responseJson : Option Json

structure TrajectoryTrace where
  id : String
  companyId : String
  agentId : String
  intentId : Option String
  traceHash : Option String
  status : TrajectoryTraceStatus
  sequenceHead : ℕ
  headHash : Option String
  completedAt : Option ℤ
  deriving DecidableEq

structure TrajectoryEvent where
  id : String
  traceId : String
  companyId : String
  agentId : String
  sequence : ℤ
  eventType : String
  timestamp : ℤ
  payloadJson : Json
  sourceRef : Option String
  trustContextJson : Option Json
  provenanceRefsJson : Option (List String)
  previousEventHash : String
  eventHash : String

structure Decision where
  id : String
  companyId : String
  agentId : String
  intentId : String
  proposalId : String
  policyId : Option String
  policyVersionId : Option String
  securityAssessmentId : Option String
  transactionId : Option String
  simulationResultId : Option String
  approvalRequestId : Option String
  result : DecisionResult
  reasonsJson : List String
  determinant : String
  decisionContextHash : String
  version : ℕ
  deriving DecidableEq

structure ApprovalRequest where
  id : String
  companyId : String
  agentId : String
  decisionId : String
  transactionId : Option String
  policyVersionId : Option String
  requiredRole : String
  summaryJson : Json
  contextHash : String
  status : ApprovalRequestStatus
  expiresAt : ℤ

structure ApprovalResult where
  id : String
  approvalRequestId : String
  decisionId : String
  approverId : String
  approverRole : String
  result : ApprovalResultStatus
  contextHash : String
  deriving DecidableEq

structure ExecutionRequestRecord where
  id : String
  companyId : String
  agentId : String
  decisionId : String
  transactionId : String
  policyVersionId : Option String
  authorizationContextHash : String
  idempotencyKey : String
  executorType : String
  network : String
  status : ExecutionRequestStatus
  authorizedAt : Option ℤ
  deriving DecidableEq

structure ExecutionResultRecord where
  id : String
  executionRequestId : String
  transactionHash : Option String
  status : ExecutionResultStatus
  chain : String
  submittedAt : Option ℤ
  confirmedAt : Option ℤ
  rawReference : Option String
  deriving DecidableEq

structure ReceiptVerificationRecord where
  id : String
  executionRequestId : String
  status : ReceiptVerificationStatus
  verified : Bool
  transactionHash : Option String
  expectedJson : Json
  actualJson : Json
  discrepanciesJson : Json
  verifiedAt : Option ℤ

structure IntentRecord where
  id : String
  companyId : String
  agentId : String
  userGoal : String
  purpose : String
  desiredOutcome : String
  intentJson : Json
  autonomyLevel : AutonomyLevel
  validFrom : ℤ
  validUntil : ℤ
  status : IntentRecordStatus

structure ActionProposalRecord where
  id : String
  companyId : String
  agentId : String
  intentId : String
  traceId : Option String
  actionType : ActionType
  purpose : String
  proposalJson : Json
  paymentMethod : Option String
  network : Option String
  evidenceRefsJson : List String
  trajectoryRefsJson : List String
  status : ProposalRecordStatus

structure SecurityAssessmentRecord where
  id : String
  companyId : String
  agentId : Option String
  proposalId : String
  traceId : Option String
  assessmentJson : Json
  overallStatus : OverallStatus
  recommendedHandling : RecommendedHandling
  assessmentHash : String
  modelMetadataJson : Option Json

structure AuditEvent where
  id : String
  companyId : String
  agentId : Option String
  correlationId : Option String
  requestId : Option String
  entityType : String
  entityId : String
  eventType : String
  actorType : String
  actorId : String
  payloadJson : Json
  previousEventHash : String
  eventHash : String
  createdAt : ℤ

structure Database where
  companies : List String
  agents : List Agent
  constitutions : List Constitution
  capabilities : List Capability
  policies : List Policy
  policyVersions : List PolicyVersion
  policyRules : List PolicyRule
  financialAccounts : List FinancialAccount
  financialReservations : List FinancialReservation
  idempotencyRecords : List IdempotencyRecord
  trajectoryTraces : List TrajectoryTrace
  trajectoryEvents : List TrajectoryEvent
  decisions : List Decision
  approvalRequests : List ApprovalRequest
  approvalResults : List ApprovalResult
  executionRequests : List ExecutionRequestRecord
  executionResults : List ExecutionResultRecord
  receiptVerifications : List ReceiptVerificationRecord
  intents : List IntentRecord
  proposals : List ActionProposalRecord
  securityAssessments : List SecurityAssessmentRecord
  auditEvents : List AuditEvent

def Database.empty : Database :=
  ⟨[], [], [], [], [], [], [], [], [], [], [], [], [], [], [], [], [], [], [],
    [], [], []⟩

/-! ## Tables -/

def agentTable : Table Database Agent where
  key := Agent.id
  rows := Database.agents
  put l db := { db with agents := l }
  rows_put _ _ := rfl

def constitutionTable : Table Database Constitution where
  key := Constitution.id
  rows := Database.constitutions
  put l db := { db with constitutions := l }
  rows_put _ _ := rfl

def capabilityTable : Table Database Capability where
  key := Capability.id
  rows := Database.capabilities
  put l db := { db with capabilities := l }
  rows_put _ _ := rfl

def policyTable : Table Database Policy where
  key := Policy.id
  rows := Database.policies
  put l db := { db with policies := l }
  rows_put _ _ := rfl

def policyVersionTable : Table Database PolicyVersion where
  key := PolicyVersion.id
  rows := Database.policyVersions
  put l db := { db with policyVersions := l }
  rows_put _ _ := rfl

def policyRuleTable : Table Database PolicyRule where
  key := PolicyRule.id
  rows := Database.policyRules
  put l db := { db with policyRules := l }
  rows_put _ _ := rfl

def reservationTable : Table Database FinancialReservation where
  key := FinancialReservation.id
  rows := Database.financialReservations
  put l db := { db with financialReservations := l }
  rows_put _ _ := rfl

def idempotencyTable : Table Database IdempotencyRecord where
  key := IdempotencyRecord.id
  rows := Database.idempotencyRecords
  put l db := { db with idempotencyRecords := l }
  rows_put _ _ := rfl

def traceTable : Table Database TrajectoryTrace where
  key := TrajectoryTrace.id
  rows := Database.trajectoryTraces
  put l db := { db with trajectoryTraces := l }
  rows_put _ _ := rfl

def trajectoryEventTable : Table Database TrajectoryEvent where
  key := TrajectoryEvent.id
  rows := Database.trajectoryEvents
  put l db := { db with trajectoryEvents := l }
  rows_put _ _ := rfl

def decisionTable : Table Database Decision where
  key := Decision.id
  rows := Database.decisions
  put l db := { db with decisions := l }
  rows_put _ _ := rfl

def approvalRequestTable : Table Database ApprovalRequest where
  key := ApprovalRequest.id
  rows := Database.approvalRequests
  put l db := { db with approvalRequests := l }
  rows_put _ _ := rfl

def approvalResultTable : Table Database ApprovalResult where
  key := ApprovalResult.id
  rows := Database.approvalResults
  put l db := { db with approvalResults := l }
  rows_put _ _ := rfl

def executionRequestTable : Table Database ExecutionRequestRecord where
  key := ExecutionRequestRecord.id
  rows := Database.executionRequests
  put l db := { db with executionRequests := l }
  rows_put _ _ := rfl

def executionResultTable : Table Database ExecutionResultRecord where
  key := ExecutionResultRecord.id
  rows := Database.executionResults
  put l db := { db with executionResults := l }
  rows_put _ _ := rfl

def receiptVerificationTable : Table Database ReceiptVerificationRecord where
  key := ReceiptVerificationRecord.id
  rows := Database.receiptVerifications
  put l db := { db with receiptVerifications := l }
  rows_put _ _ := rfl

def intentTable : Table Database IntentRecord where
  key := IntentRecord.id
  rows := Database.intents
  put l db := { db with intents := l }
  rows_put _ _ := rfl

def proposalTable : Table Database ActionProposalRecord where
  key := ActionProposalRecord.id
  rows := Database.proposals
  put l db := { db with proposals := l }
  rows_put _ _ := rfl

def securityAssessmentTable : Table Database SecurityAssessmentRecord where
  key := SecurityAssessmentRecord.id
  rows := Database.securityAssessments
  put l db := { db with securityAssessments := l }
  rows_put _ _ := rfl

def auditTable : Table Database AuditEvent where
  key := AuditEvent.id
  rows := Database.auditEvents
  put l db := { db with auditEvents := l }
  rows_put _ _ := rfl

def companyExists (companyId : String) (db : Database) : Bool :=
  db.companies.contains companyId

/-! ## Services -/

/-- A service of the backend. -/
abbrev Service (α : Type) := Fallible Database Failure α

/-- A service that only reads. -/
def reading {α : Type} (f : Database → Except Failure α) : Service α := do
  match ← Fallible.query f with
  | .ok a => pure a
  | .error failure => Fallible.fail failure

theorem reading_eq_ok {α : Type} {f : Database → Except Failure α} {a : α}
    {db db' : Database} :
    reading f db = (.ok a, db') ↔ f db = .ok a ∧ db' = db := by
  unfold reading
  rw [Fallible.query_bind]
  cases f db with
  | error failure => simp
  | ok value => simp [eq_comm]

theorem reading_of_error {α : Type} {f : Database → Except Failure α}
    {failure : Failure} {db : Database} (h : f db = .error failure) :
    reading f db = (.error failure, db) := by
  unfold reading
  rw [Fallible.query_bind]
  simp only [h, Fallible.fail_apply]

/-- A reading that fails ends the service; otherwise what was read goes on. -/
theorem reading_bind_cases {α β : Type} (f : Database → Except Failure α)
    (k : α → Service β) (db : Database) :
    (∃ failure, f db = .error failure ∧
      (reading f >>= k) db = (.error failure, db)) ∨
    ∃ a, f db = .ok a ∧ (reading f >>= k) db = k a db := by
  cases hread : f db with
  | error failure =>
      exact Or.inl ⟨failure, rfl,
        Fallible.bind_of_error (reading_of_error hread)⟩
  | ok a =>
      exact Or.inr ⟨a, rfl,
        Fallible.bind_of_ok (reading_eq_ok.mpr ⟨hread, rfl⟩)⟩

theorem keeps_reading {α : Type} {inv : Database → Prop}
    (f : Database → Except Failure α) : Fallible.Keeps inv (reading f) := by
  intro db hdb
  unfold reading
  rw [Fallible.query_bind]
  cases f db with
  | error failure => exact hdb
  | ok value => exact hdb

theorem preserves_reading {α γ : Type} {f : Database → γ}
    (read : Database → Except Failure α) :
    Fallible.Preserves f (reading read) :=
  fun _ => keeps_reading read

end Orvex
