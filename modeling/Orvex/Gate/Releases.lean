import Orvex.Gate.BoundHold

/-!
# When a report releases a reservation

Ingesting a result and reconciling an execution release a reservation only
where the executor reported the execution FAILED.
-/

namespace Orvex
namespace ExecutionResults

open Financial (lookupReservation)

def Released (id : String) (db : Database) : Prop :=
  ∃ res, lookupReservation id db = some res ∧ res.status = .released

/-- A reservation is RELEASED afterwards that was not before. -/
def Releases (db db' : Database) : Prop :=
  ∃ id, Released id db' ∧ ¬ Released id db

variable {rt : Runtime} {old : Database}

/-- Every released reservation was released before. -/
def NothingReleased (old db : Database) : Prop :=
  ∀ id, Released id db → Released id old

theorem NothingReleased.of_reservations {db db' : Database}
    (h : NothingReleased old db)
    (hsame : db'.financialReservations = db.financialReservations) :
    NothingReleased old db' := by
  rintro id ⟨res, hlookup, hstatus⟩
  refine h id ⟨res, ?_, hstatus⟩
  rw [← hlookup, lookupReservation, lookupReservation, hsame]

theorem not_releases {db : Database} (h : NothingReleased old db) :
    ¬ Releases old db :=
  fun ⟨id, hreleased, hnot⟩ => hnot (h id hreleased)

/-- Marking a reservation releases none. -/
theorem keeps_unreleased_markUnknown (companyId reservationId : String) :
    Fallible.Keeps (NothingReleased old)
      (Financial.markUnknown companyId reservationId) := by
  have hwrite : ∀ id, Fallible.Keeps (NothingReleased old)
      (Financial.writeReservation id Financial.setUnknown) := by
    intro id
    refine Fallible.Keeps.bind (Fallible.keeps_query _) (fun found => ?_)
    cases found with
    | none => exact Fallible.keeps_fail _
    | some res =>
        refine Fallible.Keeps.bind (Fallible.keeps_change (fun db h => ?_))
          (fun _ => Fallible.keeps_pure _)
        rintro other ⟨row, hrow, hstatus⟩
        have hkeep : KeyedTable.KeepsKey FinancialReservation.id
            Financial.setUnknown := fun _ => rfl
        rw [Financial.lookupReservation_updateReservation db hkeep] at hrow
        split at hrow
        next =>
          obtain ⟨before, -, rfl⟩ := Option.map_eq_some_iff.mp hrow
          simp [Financial.setUnknown] at hstatus
        next => exact h other ⟨row, hrow, hstatus⟩
  refine Fallible.Keeps.bind (Fallible.keeps_query _) (fun found => ?_)
  cases found with
  | none => exact Fallible.keeps_fail _
  | some res =>
      simp only
      split
      next => exact Fallible.keeps_fail _
      next => exact hwrite res.id

theorem keeps_unreleased_setStatus (requestId : String)
    (status : ExecutionRequestStatus) :
    Fallible.Keeps (NothingReleased old) (setStatus requestId status) :=
  Table.keeps_update (fun _ h => h.of_reservations rfl)

theorem ingestResult_releases {companyId : String}
    {input : ExecutionResultInput} {now : ℤ} {uuid : String}
    {db : Database}
    (h : Releases db (ingestResult rt companyId input now uuid db).2) :
    input.status = .failed := by
  by_contra hother
  have hkeeps : Fallible.Keeps (NothingReleased db)
      (ingestResult rt companyId input now uuid) :=
    keeps_ingestResult keeps_unreleased_setStatus
      (fun _ => keeps_createResult fun _ _ h => h.of_reservations rfl)
      (keeps_unreleased_markUnknown companyId)
      (fun hfailed => absurd hfailed hother)
  exact not_releases (hkeeps db fun _ h => h) h

theorem reconcile_releases {client : ExecutionClient}
    {companyId executionId : String} {now : ℤ} {db : Database}
    (h : Releases db (reconcile rt client companyId executionId now db).2) :
    client.getResult executionId = .ok .failed := by
  by_contra hother
  have hkeeps : Fallible.Keeps (NothingReleased db)
      (reconcile rt client companyId executionId now) :=
    keeps_reconcile keeps_unreleased_setStatus
      (fun hfailed => absurd hfailed hother)
  exact not_releases (hkeeps db fun _ h => h) h

/-- A reconciliation of an execution that is not known to have ended answers
STILL_UNKNOWN. -/
theorem reconcile_of_open {client : ExecutionClient}
    {companyId executionId : String} {now : ℤ} {db : Database}
    {request : ExecutionRequestRecord} {status : ClientStatus}
    (hrequest : getRequest companyId executionId db = some request)
    (hanswer : client.getResult executionId = .ok status)
    (hopen : status = .pending ∨ status = .unknown) :
    reconcile rt client companyId executionId now db =
      (.ok .stillUnknown, db) := by
  have hrequired : reading (requireRequest
      "Unknown execution_id for reconciliation." companyId executionId) db =
        (.ok request, db) := by
    refine reading_eq_ok.mpr ⟨?_, rfl⟩
    rw [requireRequest, hrequest]
  have hread : reading (fun _ => client.getResult executionId) db =
      (.ok status, db) := reading_eq_ok.mpr ⟨hanswer, rfl⟩
  unfold reconcile
  rw [Fallible.bind_of_ok hrequired, Fallible.bind_of_ok hread]
  rcases hopen with rfl | rfl
  · rfl
  · rfl

end ExecutionResults
end Orvex
