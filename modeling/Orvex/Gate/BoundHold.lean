import Orvex.Api.Footprints
import Orvex.Financial.Solo

/-!
# The reservation of an execution request

A request has one reservation bound to it.  The calls that report, reconcile
and verify its execution move that reservation from status to status, and
never take it out of COMMITTED or RELEASED.
-/

namespace Orvex
namespace ExecutionResults

open Financial (WellFormed Conserved Completion lookupReservation
  findReservation)

/-! ## States with the same ledger -/

def SameLedger (db' db : Database) : Prop :=
  (db'.financialAccounts, db'.financialReservations) =
    (db.financialAccounts, db.financialReservations)

section

variable {db db' : Database}

theorem SameLedger.accounts (h : SameLedger db' db) :
    db'.financialAccounts = db.financialAccounts :=
  (Prod.mk.inj h).1

theorem SameLedger.reservations (h : SameLedger db' db) :
    db'.financialReservations = db.financialReservations :=
  (Prod.mk.inj h).2

theorem SameLedger.lookupReservation (h : SameLedger db' db) (id : String) :
    Financial.lookupReservation id db' =
      Financial.lookupReservation id db := by
  unfold Financial.lookupReservation
  rw [h.reservations]

theorem SameLedger.lookupAccount (h : SameLedger db' db) (id : String) :
    Financial.lookupAccount id db' = Financial.lookupAccount id db := by
  unfold Financial.lookupAccount
  rw [h.accounts]

theorem SameLedger.wellFormed
    (h : SameLedger db' db) (hdb : WellFormed db) : WellFormed db' := by
  refine ⟨?_, ?_, ?_⟩
  · rw [h.accounts]
    exact hdb.accounts
  · rw [h.reservations]
    exact hdb.reservations
  · intro res hmem
    rw [h.lookupAccount]
    exact hdb.foreignKey res (h.reservations ▸ hmem)

end

/-! ## The bound reservation -/

/-- The reservation `id` is the one that is bound to the request, and `known`
holds of it. -/
structure BoundHold (requestId id : String)
    (known : FinancialReservation → Prop) (db : Database) : Prop where
  ledger : WellFormed db
  bound : ∃ res, lookupReservation id db = some res ∧
    res.executionRequestId = some requestId ∧ known res
  only : ∀ res ∈ db.financialReservations,
    res.executionRequestId = some requestId → res.id = id

/-- Completing or marking a reservation keeps what is known of it. -/
structure Lasting (known : FinancialReservation → Prop) : Prop where
  completed : ∀ (kind : Completion) (now : ℤ) (id : String)
    (res : FinancialReservation), known res →
      kind.refusal id res.status = none → res.status ≠ kind.final →
        known (kind.settle now res)
  marked : ∀ (id : String) (res : FinancialReservation), known res →
    Financial.unknownRefusal id res.status = none →
      known (Financial.setUnknown res)

/-! ## What keeps the binding -/

section

variable {requestId id : String} {known : FinancialReservation → Prop}
  {db : Database}

theorem BoundHold.unique (h : BoundHold requestId id known db)
    {res : FinancialReservation} (hmem : res ∈ db.financialReservations)
    (hbound : res.executionRequestId = some requestId) : known res := by
  obtain ⟨found, hlookup, _, hknown⟩ := h.bound
  have hid := h.only res hmem hbound
  have hsame : lookupReservation res.id db = some res :=
    KeyedTable.lookup_of_mem h.ledger.reservations hmem
  rw [hid, hlookup, Option.some.injEq] at hsame
  exact hsame ▸ hknown

theorem BoundHold.mono {weaker : FinancialReservation → Prop}
    (h : BoundHold requestId id known db)
    (himp : ∀ res, known res → weaker res) :
    BoundHold requestId id weaker db := by
  obtain ⟨res, hlookup, hbound, hknown⟩ := h.bound
  exact ⟨h.ledger, ⟨res, hlookup, hbound, himp res hknown⟩, h.only⟩

/-- The binding is read off the ledger alone. -/
theorem BoundHold.of_ledger {db' : Database}
    (h : BoundHold requestId id known db) (hsame : SameLedger db' db) :
    BoundHold requestId id known db' := by
  refine ⟨hsame.wellFormed h.ledger, ?_, ?_⟩
  · rw [hsame.lookupReservation]
    exact h.bound
  · intro res hmem
    exact h.only res (hsame.reservations ▸ hmem)

/-- A change of one reservation that keeps its binding. -/
theorem BoundHold.updateReservation {rid : String}
    {change : FinancialReservation → FinancialReservation}
    {changed : FinancialReservation → Prop}
    (h : BoundHold requestId id known db)
    (hsame : Financial.SameHold change)
    (hrequest : ∀ res, (change res).executionRequestId =
      res.executionRequestId)
    (hknown : ∀ res, lookupReservation id db = some res → known res →
      changed (if id = rid then change res else res)) :
    BoundHold requestId id changed
      (Financial.updateReservation rid change db) := by
  refine ⟨h.ledger.updateReservation hsame rid, ?_, ?_⟩
  · obtain ⟨res, hlookup, hbound, hres⟩ := h.bound
    have hchanged := hknown res hlookup hres
    rw [Financial.lookupReservation_updateReservation db hsame.keepsKey]
    by_cases hid : id = rid
    · rw [if_pos hid] at hchanged ⊢
      rw [← hid, hlookup]
      exact ⟨change res, rfl, (hrequest res).trans hbound, hchanged⟩
    · rw [if_neg hid] at hchanged ⊢
      exact ⟨res, hlookup, hbound, hchanged⟩
  · intro res hmem hbound
    obtain ⟨old, hold, heq⟩ := List.mem_map.mp hmem
    have hfields : res.id = old.id ∧
        res.executionRequestId = old.executionRequestId := by
      rw [← heq]
      split
      · exact ⟨(hsame old).1, hrequest old⟩
      · exact ⟨rfl, rfl⟩
    rw [hfields.1]
    exact h.only old hold (hfields.2 ▸ hbound)

theorem BoundHold.updateAccount {aid : String}
    {change : FinancialAccount → FinancialAccount}
    (h : BoundHold requestId id known db)
    (hkeep : KeyedTable.KeepsKey FinancialAccount.id change) :
    BoundHold requestId id known
      (Financial.updateAccount aid change db) :=
  ⟨h.ledger.updateAccount hkeep aid, h.bound, h.only⟩

end

/-! ## The ledger calls -/

section

variable {requestId id : String} {known : FinancialReservation → Prop}

theorem settle_requestId (kind : Completion) (now : ℤ)
    (res : FinancialReservation) :
    (kind.settle now res).executionRequestId = res.executionRequestId := by
  cases kind <;> rfl

theorem keeps_bound_completion (hlasting : Lasting known) (rt : Runtime)
    (kind : Completion) (companyId reservationId : String) (now : ℤ) :
    Fallible.Keeps (BoundHold requestId id known)
      (kind.run rt companyId reservationId now) := by
  intro db h
  rcases Completion.run_cases rt kind companyId reservationId now h.ledger
    with ⟨res, row, change, hcompletes, hrun⟩ | ⟨res, _, _, hrun⟩ |
      ⟨failure, hrun⟩
  · rw [hrun]
    have hlookup :=
      Financial.lookupReservation_of_found h.ledger hcompletes.found
    have hkeep := (Financial.totalsOnly_accountChange
      hcompletes.row_change).keepsKey
    refine (h.updateAccount hkeep).updateReservation
      (Financial.sameHold_settle kind now) (settle_requestId kind now) ?_
    intro found hfound hknown
    split
    next hid =>
      have hbound : lookupReservation id db = some found := hfound
      have hsame : res = found := by
        rw [← hid, hbound] at hlookup
        exact (Option.some.inj hlookup).symm
      subst hsame
      exact hlasting.completed kind now reservationId res hknown
        hcompletes.accepted hcompletes.unfinished
    next => exact hknown
  · rw [hrun]
    exact h
  · rw [hrun]
    exact h

theorem keeps_bound_markUnknown (hlasting : Lasting known)
    (companyId reservationId : String) :
    Fallible.Keeps (BoundHold requestId id known)
      (Financial.markUnknown companyId reservationId) := by
  intro db h
  rcases Financial.markUnknown_cases companyId reservationId h.ledger with
    ⟨res, hfound, hopen, hrun⟩ | ⟨failure, hrun⟩
  · rw [hrun]
    have hlookup := Financial.lookupReservation_of_found h.ledger hfound
    refine h.updateReservation Financial.sameHold_setUnknown
      (fun _ => rfl) ?_
    intro found hfound' hknown
    split
    next hid =>
      have hsame : res = found := by
        rw [← hid, hfound'] at hlookup
        exact (Option.some.inj hlookup).symm
      subst hsame
      refine hlasting.marked reservationId res hknown ?_
      rcases hopen with hstatus | hstatus <;> rw [hstatus] <;> rfl
    next => exact hknown
  · rw [hrun]
    exact h

theorem keeps_bound_of_preserves {α : Type} {x : Service α}
    (hx : Fallible.Preserves (fun db =>
      (db.financialAccounts, db.financialReservations)) x) :
    Fallible.Keeps (BoundHold requestId id known) x :=
  fun db h => h.of_ledger (hx.apply db)

end

/-! ## The three services -/

section

variable {rt : Runtime} {requestId id : String}
  {known : FinancialReservation → Prop}

theorem preserves_ledger_setStatus (rid : String)
    (status : ExecutionRequestStatus) :
    Fallible.Preserves (fun db =>
      (db.financialAccounts, db.financialReservations))
      (setStatus rid status) :=
  fun _ => Table.keeps_update (fun _ h => h)

theorem keeps_bound_ingestResult (hlasting : Lasting known)
    (companyId : String) (input : ExecutionResultInput) (now : ℤ)
    (uuid : String) :
    Fallible.Keeps (BoundHold requestId id known)
      (ingestResult rt companyId input now uuid) := by
  refine keeps_ingestResult (fun rid status => keeps_bound_of_preserves
      (preserves_ledger_setStatus rid status)) (fun rid => ?_)
    (keeps_bound_markUnknown hlasting companyId)
    (fun _ rid => keeps_bound_completion hlasting rt .release companyId rid
      now)
  exact keeps_createResult (fun _ _ h => h.of_ledger rfl)

theorem keeps_bound_reconcile (hlasting : Lasting known)
    (client : ExecutionClient) (companyId executionId : String) (now : ℤ) :
    Fallible.Keeps (BoundHold requestId id known)
      (reconcile rt client companyId executionId now) :=
  keeps_reconcile (fun rid status => keeps_bound_of_preserves
      (preserves_ledger_setStatus rid status))
    (fun _ rid => keeps_bound_completion hlasting rt .reconcileRelease
      companyId rid now)

theorem keeps_bound_verifyAndFinalize (hlasting : Lasting known)
    (client : ExecutionClient) (companyId executionId : String)
    (authorized : AuthorizedReceipt) (now : ℤ) (uuid : String) :
    Fallible.Keeps (BoundHold requestId id known)
      (verifyAndFinalize rt client companyId executionId authorized now
        uuid) :=
  keeps_verifyAndFinalize
    (fun _ _ => Table.keeps_create (fun _ h _ => h.of_ledger rfl))
    (fun rid => keeps_bound_completion hlasting rt .commit companyId rid
      now)

end

end ExecutionResults
end Orvex
