import Orvex.Core.Runtime

/-!
# Contracts

The objects that reach the backend from outside, after their schemas were
parsed, with the fields that the services read.  `document` is the whole
object, which intake stores.
-/

namespace Orvex

/-! ## Intent -/

inductive IntentStatus where
  | valid | needsClarification | expired | invalid
  deriving DecidableEq

def IntentStatus.text : IntentStatus → String
  | .valid => "VALID"
  | .needsClarification => "NEEDS_CLARIFICATION"
  | .expired => "EXPIRED"
  | .invalid => "INVALID"

inductive AutonomyLevel where
  | manual | conditional | automatic
  deriving DecidableEq

structure Intent where
  intentId : String
  agentId : String
  userGoal : String
  purpose : String
  desiredOutcome : String
  autonomyLevel : AutonomyLevel
  validFrom : String
  validUntil : String
  status : IntentStatus
  document : Json

/-! ## Action proposal -/

inductive ActionType where
  | pay | transfer | purchase | callApi | swap | other
  deriving DecidableEq

def ActionType.text : ActionType → String
  | .pay => "PAY"
  | .transfer => "TRANSFER"
  | .purchase => "PURCHASE"
  | .callApi => "CALL_API"
  | .swap => "SWAP"
  | .other => "OTHER"

structure RecipientRef where
  identifier : Option String
  address : Option String
  network : Option String
  deriving DecidableEq

structure Money where
  value : String
  currency : String
  deriving DecidableEq

structure ActionProposal where
  proposalId : String
  intentId : String
  agentId : String
  actionType : ActionType
  purpose : String
  recipient : Option RecipientRef
  amount : Option Money
  paymentMethod : Option String
  network : Option String
  evidenceIds : List String
  trajectoryEventIds : List String
  document : Json

/-- The address of the recipient, else its identifier. -/
def proposalRecipient (proposal : ActionProposal) : Option String :=
  proposal.recipient.bind (fun recipient =>
    recipient.address <|> recipient.identifier)

/-- The network of the proposal, else that of its recipient. -/
def proposalNetwork (proposal : ActionProposal) : Option String :=
  proposal.network <|> proposal.recipient.bind RecipientRef.network

/-! ## Security assessment -/

inductive RecommendedHandling where
  | proceedCandidate | monitor | review | denyRecommended
  deriving DecidableEq

def RecommendedHandling.text : RecommendedHandling → String
  | .proceedCandidate => "PROCEED_CANDIDATE"
  | .monitor => "MONITOR"
  | .review => "REVIEW"
  | .denyRecommended => "DENY_RECOMMENDED"

inductive OverallStatus where
  | lowRisk | mediumRisk | highRisk | insufficientEvidence
  deriving DecidableEq

structure OverallAssessment where
  status : OverallStatus
  recommendedHandling : RecommendedHandling
  deriving DecidableEq

structure SecurityAssessment where
  assessmentId : String
  proposalId : String
  overallAssessment : OverallAssessment
  modelMetadata : Option Json
  createdAt : String
  document : Json

/-! ## Transaction -/

inductive TransactionAnalysisStatus where
  | valid | suspicious | invalid
  deriving DecidableEq

def TransactionAnalysisStatus.text : TransactionAnalysisStatus → String
  | .valid => "VALID"
  | .suspicious => "SUSPICIOUS"
  | .invalid => "INVALID"

structure ContractRef where
  address : String
  deriving DecidableEq

structure FunctionRef where
  name : String
  selector : String
  deriving DecidableEq

structure TransactionAnalysis where
  transactionId : String
  contract : Option ContractRef
  function : Option FunctionRef
  recipient : String
  amount : String
  asset : String
  riskFlags : List String
  status : TransactionAnalysisStatus
  deriving DecidableEq

inductive SimulationStatus where
  | pass | revert | unexpectedStateChange | insufficientFunds | unsupported
  | error
  deriving DecidableEq

structure SimulationResult where
  transactionId : String
  status : SimulationStatus
  deriving DecidableEq

end Orvex
