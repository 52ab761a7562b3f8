import Orvex.Decision.Engine

/-!
# Decision persistence

A decision is written once, with the hash of the context that produced it.
-/

namespace Orvex
namespace Decisions

structure PersistDecisionInput where
  companyId : String
  agentId : String
  intentId : String
  proposalId : String
  policyId : Option String
  policyVersionId : Option String
  securityAssessmentId : Option String
  transactionId : Option String
  simulationResultId : Option String
  approvalRequestId : Option String
  output : DecisionOutput
  decisionContextHash : String
  deriving DecidableEq

def decisionOf (input : PersistDecisionInput) (uuid : String) :
    Decision where
  id := uuid
  companyId := input.companyId
  agentId := input.agentId
  intentId := input.intentId
  proposalId := input.proposalId
  policyId := input.policyId
  policyVersionId := input.policyVersionId
  securityAssessmentId := input.securityAssessmentId
  transactionId := input.transactionId
  simulationResultId := input.simulationResultId
  approvalRequestId := input.approvalRequestId
  result := input.output.result
  reasonsJson := input.output.reasons
  determinant := input.output.determinant
  decisionContextHash := input.decisionContextHash
  version := 1

def record (input : PersistDecisionInput) (uuid : String) :
    Service Decision :=
  decisionTable.create .constraint (companyExists input.companyId)
    (decisionOf input uuid)

def getDecision (companyId decisionId : String) (db : Database) :
    Option Decision :=
  decisionTable.find (fun decision =>
    decision.id = decisionId ∧ decision.companyId = companyId) db

end Decisions
end Orvex
