import Orvex.Api.Permanence
import Orvex.Audit.Attestation
import Orvex.Audit.Service

/-!
# Forensic reconstruction

The lifecycle of an execution is read from the rows that refer to it.  What
was read once is read again after any calls, and what was complete stays
complete.
-/

namespace Orvex
namespace Forensics

open KeyedTable (Grows)

structure ForensicRecord where
  executionRequest : ExecutionRequestRecord
  decision : Option Decision
  approvalRequests : List ApprovalRequest
  executionResults : List ExecutionResultRecord
  receiptVerifications : List ReceiptVerificationRecord
  financialReservations : List FinancialReservation
  attestations : List Attestation.AttestationRecord
  auditTimeline : List AuditEvent
  complete : Bool

def findRequest (companyId executionId : String) (db : Database) :
    Option ExecutionRequestRecord :=
  executionRequestTable.find (fun request =>
    request.id = executionId ∧ request.companyId = companyId) db

def requestApprovals (companyId decisionId : String) (db : Database) :
    List ApprovalRequest :=
  db.approvalRequests.filter (fun request =>
    request.decisionId = decisionId ∧ request.companyId = companyId)

def resultsOf (executionId : String) (db : Database) :
    List ExecutionResultRecord :=
  db.executionResults.filter
    (fun result => result.executionRequestId = executionId)

def verificationsOf (executionId : String) (db : Database) :
    List ReceiptVerificationRecord :=
  db.receiptVerifications.filter
    (fun verification => verification.executionRequestId = executionId)

def reservationsOf (companyId executionId : String) (db : Database) :
    List FinancialReservation :=
  db.financialReservations.filter (fun res =>
    res.executionRequestId = some executionId ∧ res.companyId = companyId)

/-- The rows of an execution, and whether every stage has one. -/
def assemble (order : Audit.ByCreatedAt)
    (attestations : List Attestation.AttestationRecord)
    (companyId executionId : String) (db : Database)
    (request : ExecutionRequestRecord) : ForensicRecord :=
  let decision := Decisions.getDecision companyId request.decisionId db
  let results := resultsOf executionId db
  let verifications := verificationsOf executionId db
  let reservations := reservationsOf companyId executionId db
  { executionRequest := request
    decision := decision
    approvalRequests := requestApprovals companyId request.decisionId db
    executionResults := results
    receiptVerifications := verifications
    financialReservations := reservations
    attestations := attestations.filter (fun attestation =>
      attestation.executionRequestId = executionId ∧
        attestation.companyId = companyId)
    auditTimeline := Audit.getEntityTimeline order
      ⟨companyId, "EXECUTION", executionId⟩ db
    complete := decision.isSome && !results.isEmpty &&
      !verifications.isEmpty && !reservations.isEmpty }

def reconstruct (order : Audit.ByCreatedAt)
    (attestations : List Attestation.AttestationRecord)
    (companyId executionId : String) (db : Database) :
    Option ForensicRecord :=
  (findRequest companyId executionId db).map
    (assemble order attestations companyId executionId db)

/-! ## What a later reading still shows -/

/-- The later record shows the same decision and every row of the earlier
one, with its identity; the rows are not read in a fixed order. -/
structure ForensicRecord.Extends (later earlier : ForensicRecord) :
    Prop where
  executionRequest : later.executionRequest.identity =
    earlier.executionRequest.identity
  decision : ∀ decision, earlier.decision = some decision →
    later.decision = some decision
  approvalRequests :
    (earlier.approvalRequests.map ApprovalRequest.identity).Subperm
      (later.approvalRequests.map ApprovalRequest.identity)
  executionResults :
    earlier.executionResults.Subperm later.executionResults
  receiptVerifications :
    earlier.receiptVerifications.Subperm later.receiptVerifications
  financialReservations :
    (earlier.financialReservations.map
        FinancialReservation.identity).Subperm
      (later.financialReservations.map FinancialReservation.identity)
  complete : earlier.complete = true → later.complete = true

/-- A record that was found is found again, and extended. -/
def StillShown : Option ForensicRecord → Option ForensicRecord → Prop
  | none, _ => True
  | some _, none => False
  | some earlier, some later => later.Extends earlier

theorem isEmpty_of_extended {α β : Type} {f : α → β} {old new : List α}
    (h : ∃ added, new.map f = old.map f ++ added)
    (hnew : new.isEmpty = true) : old.isEmpty = true := by
  obtain ⟨added, hmap⟩ := h
  rw [List.isEmpty_iff] at hnew ⊢
  subst hnew
  rw [List.map_nil] at hmap
  have hnil := List.append_eq_nil_iff.mp hmap.symm
  exact List.map_eq_nil_iff.mp hnil.1

theorem subperm_of_extended {α : Type} {old new : List α}
    (h : ∃ added, new = old ++ added) : old.Subperm new := by
  obtain ⟨added, rfl⟩ := h
  exact (List.sublist_append_left old added).subperm

section

variable {start db : Database} (h : Permanent start db)

include h

theorem findRequest_again {companyId executionId : String}
    {request : ExecutionRequestRecord}
    (hrequest : findRequest companyId executionId start = some request) :
    ∃ later, findRequest companyId executionId db = some later ∧
      later.identity = request.identity := by
  refine h.executionRequests.find (q := fun row =>
    decide (row.id = executionId ∧ row.companyId = companyId)) ?_ hrequest
  exact fun _ => rfl

theorem getDecision_again {companyId decisionId : String}
    {decision : Decision}
    (hdecision : Decisions.getDecision companyId decisionId start =
      some decision) :
    Decisions.getDecision companyId decisionId db = some decision := by
  obtain ⟨later, hlater, hsame⟩ :=
    h.decisions.find (fun _ => rfl) hdecision
  rw [id, id] at hsame
  rw [← hsame]
  exact hlater

theorem reservationsOf_extend (companyId executionId : String) :
    ∃ added, (reservationsOf companyId executionId db).map
        FinancialReservation.identity =
      (reservationsOf companyId executionId start).map
        FinancialReservation.identity ++ added := by
  refine h.reservations.filter (q := fun res =>
    decide (res.executionRequestId = some executionId ∧
      res.companyId = companyId)) ?_
  exact fun _ => rfl

theorem requestApprovals_extend (companyId decisionId : String) :
    ∃ added, (requestApprovals companyId decisionId db).map
        ApprovalRequest.identity =
      (requestApprovals companyId decisionId start).map
        ApprovalRequest.identity ++ added := by
  refine h.approvalRequests.filter (q := fun request =>
    decide (request.decisionId = decisionId ∧
      request.companyId = companyId)) ?_
  exact fun _ => rfl

theorem resultsOf_extend (executionId : String) :
    ∃ added, (resultsOf executionId db).map id =
      (resultsOf executionId start).map id ++ added :=
  h.executionResults.filter (q := fun result =>
    decide (result.executionRequestId = executionId)) (fun _ => rfl)

theorem verificationsOf_extend (executionId : String) :
    ∃ added, (verificationsOf executionId db).map id =
      (verificationsOf executionId start).map id ++ added :=
  h.receiptVerifications.filter (q := fun verification =>
    decide (verification.executionRequestId = executionId)) (fun _ => rfl)

theorem assemble_complete (order : Audit.ByCreatedAt)
    (attestations : List Attestation.AttestationRecord)
    (companyId executionId : String)
    {request later : ExecutionRequestRecord}
    (hsame : later.decisionId = request.decisionId)
    (hcomplete : (assemble order attestations companyId executionId start
      request).complete = true) :
    (assemble order attestations companyId executionId db later).complete =
      true := by
  simp only [assemble, Bool.and_eq_true, Bool.not_eq_true'] at hcomplete ⊢
  obtain ⟨⟨⟨hdecision, hresults⟩, hverified⟩, hreserved⟩ := hcomplete
  obtain ⟨decision, hdecision⟩ := Option.isSome_iff_exists.mp hdecision
  have hlater := getDecision_again h hdecision
  refine ⟨⟨⟨?_, ?_⟩, ?_⟩, ?_⟩
  · rw [hsame, hlater]
    rfl
  · by_contra hempty
    rw [isEmpty_of_extended (resultsOf_extend h executionId)
      (by simpa using hempty)] at hresults
    contradiction
  · by_contra hempty
    rw [isEmpty_of_extended (verificationsOf_extend h executionId)
      (by simpa using hempty)] at hverified
    contradiction
  · by_contra hempty
    rw [isEmpty_of_extended (reservationsOf_extend h companyId executionId)
      (by simpa using hempty)] at hreserved
    contradiction

theorem assemble_extends (order : Audit.ByCreatedAt)
    (attestations : List Attestation.AttestationRecord)
    (companyId executionId : String)
    {request later : ExecutionRequestRecord}
    (hsame : later.identity = request.identity) :
    (assemble order attestations companyId executionId db later).Extends
      (assemble order attestations companyId executionId start
        request) := by
  have hdecisionId : later.decisionId = request.decisionId := by
    have hcolumn := congrArg ExecutionRequestRecord.decisionId hsame
    exact hcolumn
  have hresults := resultsOf_extend h executionId
  have hverified := verificationsOf_extend h executionId
  rw [List.map_id, List.map_id] at hresults hverified
  exact
    { executionRequest := hsame
      decision := by
        intro decision hdecision
        change Decisions.getDecision companyId later.decisionId db = _
        rw [hdecisionId]
        exact getDecision_again h hdecision
      approvalRequests := by
        change List.Subperm _ ((requestApprovals companyId later.decisionId
          db).map ApprovalRequest.identity)
        rw [hdecisionId]
        exact subperm_of_extended
          (requestApprovals_extend h companyId request.decisionId)
      executionResults := subperm_of_extended hresults
      receiptVerifications := subperm_of_extended hverified
      financialReservations := subperm_of_extended
        (reservationsOf_extend h companyId executionId)
      complete := assemble_complete h order attestations companyId
        executionId hdecisionId }

theorem reconstruct_stillShown (order : Audit.ByCreatedAt)
    (attestations : List Attestation.AttestationRecord)
    (companyId executionId : String) :
    StillShown (reconstruct order attestations companyId executionId start)
      (reconstruct order attestations companyId executionId db) := by
  unfold reconstruct
  cases hrequest : findRequest companyId executionId start with
  | none => exact trivial
  | some request =>
      obtain ⟨later, hlater, hsame⟩ := findRequest_again h hrequest
      rw [hlater]
      exact assemble_extends h order attestations companyId executionId
        hsame

end

/-- No call takes anything away from the reconstruction of an execution. -/
theorem reconstruct_after_run (rt : Runtime) (calls : List Api.Call)
    (order : Audit.ByCreatedAt)
    (attestations : List Attestation.AttestationRecord)
    (companyId executionId : String) (db : Database) :
    StillShown (reconstruct order attestations companyId executionId db)
      (reconstruct order attestations companyId executionId
        (Api.run rt calls db)) :=
  reconstruct_stillShown (Api.run_permanent rt calls db) order attestations
    companyId executionId

end Forensics
end Orvex
