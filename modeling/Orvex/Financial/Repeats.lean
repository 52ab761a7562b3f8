import Orvex.Financial.Atomic
import Orvex.Financial.Calls
import Orvex.Financial.Idempotency

/-!
# Calls repeated with other ids

A registration or a reservation that succeeds also succeeds, from the same
rows, with other generated ids that are new.
-/

namespace Orvex

namespace Idempotency

/-- Registering goes through where the key is new or the body the same. -/
theorem register_eq_ok {rt : Runtime} {input : RegisterInput}
    {uuid : String} {db db' : Database}
    {answer : RegisterOutcome × IdempotencyRecord}
    (h : register rt input uuid db = (.ok answer, db')) :
    ∀ record, findRecord input db = some record →
      record.requestHash = requestHash rt input.request := by
  intro record hrecord
  unfold register at h
  rw [Fallible.query_bind] at h
  simp only [hrecord, replayOf] at h
  split at h
  next => simp at h
  next hsame => exact not_not.mp hsame

theorem register_of_new {rt : Runtime} {input : RegisterInput}
    {uuid : String} {db : Database}
    (hrecord : ∀ record, findRecord input db = some record →
      record.requestHash = requestHash rt input.request)
    (hnew : idempotencyTable.lookup uuid db = none) :
    ∃ answer db', register rt input uuid db = (.ok answer, db') := by
  cases hfind : findRecord input db with
  | some record =>
      refine ⟨(.replay, record), db, ?_⟩
      unfold register
      rw [Fallible.query_bind]
      simp only [hfind, replayOf]
      rw [if_neg (not_not.mpr (hrecord record hfind)), Fallible.pure_apply]
  | none =>
      have hcreate := @Table.create_eq_ok Database Failure _ idempotencyTable
        .constraint (fun db => (findRecord input db).isNone)
        (newRecord rt input uuid) (newRecord rt input uuid) db _ |>.mpr
        ⟨hnew, by rw [hfind]; rfl, rfl, rfl⟩
      refine ⟨(.new, newRecord rt input uuid),
        idempotencyTable.insert (newRecord rt input uuid) db, ?_⟩
      unfold register
      rw [Fallible.query_bind]
      simp only [hfind, Fallible.attempt_bind, hcreate, Fallible.pure_apply]

end Idempotency

namespace Financial

/-- What a reservation asks of the row it locks, and the row's id, apart. -/
structure SameBudget (a b : FinancialAccount) : Prop where
  reserved : a.currentReserved = b.currentReserved
  committed : a.currentCommitted = b.currentCommitted
  limit : a.limitAmount = b.limitAmount

theorem budgetRefusal_eq_none_congr {rt : Runtime} {requested : String}
    {amount : Decimal} {a b : FinancialAccount} (h : SameBudget a b)
    (ha : budgetRefusal rt requested amount a = none) :
    budgetRefusal rt requested amount b = none := by
  have hprojected : projected rt b amount = projected rt a amount := by
    unfold projected
    rw [h.reserved, h.committed]
  unfold budgetRefusal at ha ⊢
  rw [← h.limit, hprojected]
  cases hlimit : a.limitAmount with
  | none => rfl
  | some limit =>
      rw [hlimit] at ha
      simp only at ha ⊢
      split at ha
      next => simp at ha
      next hover => rw [if_neg hover]

theorem reserveChange_congr {rt : Runtime} {amount : Decimal}
    {a b : FinancialAccount} (h : SameBudget a b) :
    reserveChange rt b amount = reserveChange rt a amount := by
  unfold reserveChange
  rw [h.reserved]

/-- An account that one call ensures, another ensures as well; it has the
same budget. -/
theorem ensureAccount_again {rt : Runtime} {key : AccountKey}
    {uuid uuid' : String} {db mid db' : Database}
    {account row : FinancialAccount}
    (h : ensureAccount rt key none uuid db = (.ok account, mid))
    (hrow : lookupAccount account.id mid = some row)
    (hcompanies : db'.companies = db.companies)
    (haccounts : db'.financialAccounts = db.financialAccounts)
    (hnew : lookupAccount uuid' db = none) :
    ∃ account' mid' row',
      ensureAccount rt key none uuid' db' = (.ok account', mid') ∧
        lookupAccount account'.id mid' = some row' ∧ SameBudget row row' ∧
          mid'.financialReservations = db'.financialReservations ∧
            mid'.executionRequests = db'.executionRequests ∧
              mid'.companies = db'.companies := by
  have hfindSame : findAccount key db' = findAccount key db := by
    unfold findAccount
    rw [haccounts]
  have hlookupSame : ∀ id, lookupAccount id db' = lookupAccount id db := by
    intro id
    unfold lookupAccount
    rw [haccounts]
  rcases ensureAccount_eq_ok h with ⟨hfind, hmid⟩ |
    ⟨hfind, haccount, hallowed, hmid⟩
  · subst hmid
    refine ⟨account, db', row, ?_, ?_, ⟨rfl, rfl, rfl⟩, rfl, rfl, rfl⟩
    · unfold ensureAccount
      rw [Fallible.query_bind]
      simp only [hfindSame, hfind, Fallible.pure_apply]
    · rw [hlookupSame, hrow]
  · have hrowNew : row = newAccount key none uuid := by
      have hnone : lookupAccount account.id db = none := hallowed.2.1
      rw [hmid, lookupAccount_insertAccount, hnone, if_pos rfl,
        Option.none_or, Option.some.injEq] at hrow
      rw [← hrow, haccount]
    have hallowed' : AccountAllowed (newAccount key none uuid') db' := by
      refine ⟨?_, ?_, ?_⟩
      · have hcompany := hallowed.1
        rw [haccount] at hcompany
        rw [hcompanies]
        exact hcompany
      · rw [hlookupSame]
        exact hnew
      · have hbuckets := hallowed.2.2
        rw [haccount] at hbuckets
        rw [haccounts]
        exact hbuckets
    have hcreate : createAccount rt key none uuid' db' =
        (.ok (newAccount key none uuid'),
          insertAccount (newAccount key none uuid') db') := by
      unfold createAccount
      simp only [Fallible.pure_bind_apply, Fallible.query_bind,
        decide_eq_true hallowed', if_true, Fallible.change_bind,
        Fallible.pure_apply]
    refine ⟨newAccount key none uuid',
      insertAccount (newAccount key none uuid') db',
      newAccount key none uuid', ?_, ?_, ?_, rfl, rfl, rfl⟩
    · unfold ensureAccount
      rw [Fallible.query_bind]
      simp only [hfindSame, hfind, Fallible.attempt_bind, hcreate,
        Fallible.pure_apply]
    · have hnone : lookupAccount (newAccount key none uuid').id db' =
          none := hallowed'.2.1
      rw [lookupAccount_insertAccount, hnone, if_pos rfl, Option.none_or]
    · rw [hrowNew]
      exact ⟨rfl, rfl, rfl⟩

theorem reserve_again {rt : Runtime} {input : ReserveInput}
    {accountUuid uuid accountUuid' uuid' : String} {db held db' : Database}
    {res : FinancialReservation}
    (h : reserve rt input accountUuid uuid db = (.ok res, held))
    (hcompanies : db'.companies = db.companies)
    (haccounts : db'.financialAccounts = db.financialAccounts)
    (hnewAccount : lookupAccount accountUuid' db = none)
    (hnew : lookupReservation uuid' db' = none) :
    ∃ res' held', reserve rt input accountUuid' uuid' db' =
        (.ok res', held') ∧
      lookupReservation res'.id held' = some res' ∧
        held'.executionRequests = db'.executionRequests ∧
          held'.companies = db'.companies := by
  obtain ⟨account, mid, hensure, row, amount, stored, change, hreserved⟩ :=
    reserve_eq_ok h
  obtain ⟨account', mid', row', hensure', hrow', hsame, hreservations,
    hrequests, hcompanies'⟩ :=
    ensureAccount_again hensure hreserved.row_found hcompanies haccounts
      hnewAccount
  have hnew' : lookupReservation uuid' mid' = none := by
    unfold lookupReservation
    rw [hreservations]
    exact hnew
  have hchange : reserveChange rt row' amount = some change := by
    rw [reserveChange_congr hsame]
    exact hreserved.row_change
  have hrun := reserve_of_budget hensure' hrow' hreserved.amount_read
    (budgetRefusal_eq_none_congr hsame hreserved.accepted)
    hreserved.amount_stored hnew' hchange
  refine ⟨_, _, hrun, ?_, hrequests, hcompanies'⟩
  rw [lookupReservation_updateAccount, lookupReservation_insertReservation]
  have hid : (newReservation input account'.id stored uuid').id = uuid' := rfl
  rw [hid, hnew', if_pos rfl, Option.none_or]

end Financial
end Orvex
