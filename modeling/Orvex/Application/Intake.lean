import Orvex.Domain.Agents

/-!
# Intake

Intents, proposals and assessments are checked for the entities they name
before they are stored, and proposals and assessments for their binding
before they are used.
-/

namespace Orvex
namespace Intake

/-! ## Bindings -/

structure ProposalBinding where
  intentId : String
  agentId : String
  deriving DecidableEq

def validateProposalIntake (proposal : ActionProposal)
    (binding : ProposalBinding) : Except Failure Unit :=
  if proposal.intentId ≠ binding.intentId then
    .error (.of .proposalInvalid "Proposal intent_id does not match."
      [("proposalIntent", proposal.intentId),
        ("expected", binding.intentId)])
  else if proposal.agentId ≠ binding.agentId then
    .error (.of .proposalInvalid "Proposal agent_id does not match."
      [("proposalAgent", proposal.agentId), ("expected", binding.agentId)])
  else .ok ()

structure AssessmentBinding where
  proposalId : String
  maxAgeMs : Option ℚ
  deriving DecidableEq

/-- The assessment is older than the limit allows at `now`. -/
def tooOld (created now : ℤ) (maxAgeMs : ℚ) : Bool :=
  decide (maxAgeMs < ((now - created : ℤ) : ℚ))

def validateAssessmentBinding (rt : Runtime)
    (assessment : SecurityAssessment) (binding : AssessmentBinding)
    (now : ℤ) : Except Failure Unit :=
  if assessment.proposalId ≠ binding.proposalId then
    .error (.of .securityAssessmentInvalid
      "Assessment is for a different proposal."
      [("assessmentProposal", assessment.proposalId),
        ("expected", binding.proposalId)])
  else
    match binding.maxAgeMs with
    | none => .ok ()
    | some maxAgeMs =>
        match rt.parseDate assessment.createdAt with
        | none =>
            .error (.of .securityAssessmentInvalid
              "Assessment has an invalid created_at."
              [("createdAt", assessment.createdAt)])
        | some created =>
            if tooOld created now maxAgeMs then
              .error (.of .securityAssessmentStale
                "SecurityAssessment is too old (expired)."
                [("createdAt", assessment.createdAt),
                  ("maxAgeMs", rt.numberToString maxAgeMs)])
            else .ok ()

theorem validateProposalIntake_eq_ok {proposal : ActionProposal}
    {binding : ProposalBinding} :
    validateProposalIntake proposal binding = .ok () ↔
      proposal.intentId = binding.intentId ∧
        proposal.agentId = binding.agentId := by
  unfold validateProposalIntake
  by_cases hintent : proposal.intentId = binding.intentId
  · by_cases hagent : proposal.agentId = binding.agentId
    · simp [hintent, hagent]
    · simp [hintent, hagent]
  · simp [hintent]

theorem validateAssessmentBinding_proposal {rt : Runtime}
    {assessment : SecurityAssessment} {binding : AssessmentBinding}
    {now : ℤ}
    (h : validateAssessmentBinding rt assessment binding now = .ok ()) :
    assessment.proposalId = binding.proposalId := by
  unfold validateAssessmentBinding at h
  by_cases hproposal : assessment.proposalId = binding.proposalId
  · exact hproposal
  · rw [if_pos hproposal] at h
    exact absurd h (by simp)

/-! ## Storing -/

def intentRecordStatus : IntentStatus → IntentRecordStatus
  | .valid => .valid
  | .needsClarification => .needsClarification
  | .expired => .expired
  | .invalid => .cancelled

/-- Creates the intent once its schema was parsed. -/
def createIntent (rt : Runtime) (companyId : String) (intent : Intent)
    (uuid : String) : Service IntentRecord := do
  match ← Fallible.query (Agents.getAgent companyId intent.agentId) with
  | none =>
      Fallible.fail (.of .agentNotFound
        "Intent agent not found in this company."
        [("agentId", intent.agentId)])
  | some _ =>
      -- an invalid date is rejected by its column
      let validFrom ← Fallible.ofOption .language (rt.parseDate intent.validFrom)
      let validUntil ←
        Fallible.ofOption .language (rt.parseDate intent.validUntil)
      intentTable.create .constraint (companyExists companyId)
        { id := uuid
          companyId := companyId
          agentId := intent.agentId
          userGoal := intent.userGoal
          purpose := intent.purpose
          desiredOutcome := intent.desiredOutcome
          intentJson := intent.document
          autonomyLevel := intent.autonomyLevel
          validFrom := validFrom
          validUntil := validUntil
          status := intentRecordStatus intent.status }

def findIntent (companyId intentId : String) (db : Database) :
    Option IntentRecord :=
  intentTable.find
    (fun intent => intent.id = intentId ∧ intent.companyId = companyId) db

def createProposal (companyId : String) (proposal : ActionProposal)
    (uuid : String) : Service ActionProposalRecord := do
  match ← Fallible.query (findIntent companyId proposal.intentId) with
  | none =>
      Fallible.fail (.of .proposalInvalid
        "Proposal references an unknown intent."
        [("intentId", proposal.intentId)])
  | some intent =>
      if intent.agentId ≠ proposal.agentId then
        Fallible.fail (.of .proposalInvalid
          "Proposal agent does not match its intent's agent."
          [("proposalAgent", proposal.agentId),
            ("intentAgent", intent.agentId)])
      else
        proposalTable.create .constraint (companyExists companyId)
          { id := uuid
            companyId := companyId
            agentId := proposal.agentId
            intentId := proposal.intentId
            traceId := proposal.trajectoryEventIds.head?
            actionType := proposal.actionType
            purpose := proposal.purpose
            proposalJson := proposal.document
            paymentMethod := proposal.paymentMethod
            network := proposal.network
            evidenceRefsJson := proposal.evidenceIds
            trajectoryRefsJson := proposal.trajectoryEventIds
            status := .received }

def findProposal (companyId proposalId : String) (db : Database) :
    Option ActionProposalRecord :=
  proposalTable.find (fun proposal =>
    proposal.id = proposalId ∧ proposal.companyId = companyId) db

def ingestAssessment (rt : Runtime) (companyId proposalId : String)
    (assessment : SecurityAssessment) (uuid : String) :
    Service SecurityAssessmentRecord := do
  match ← Fallible.query (findProposal companyId proposalId) with
  | none =>
      Fallible.fail (.of .proposalInvalid
        "Assessment references an unknown proposal."
        [("proposalId", proposalId)])
  | some proposal =>
      securityAssessmentTable.create .constraint (companyExists companyId)
        { id := uuid
          companyId := companyId
          agentId := some proposal.agentId
          proposalId := proposalId
          traceId := proposal.traceId
          assessmentJson := assessment.document
          overallStatus := assessment.overallAssessment.status
          recommendedHandling :=
            assessment.overallAssessment.recommendedHandling
          assessmentHash := sha256Json rt assessment.document
          modelMetadataJson := assessment.modelMetadata }

end Intake
end Orvex
