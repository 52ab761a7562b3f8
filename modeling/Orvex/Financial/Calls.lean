import Orvex.Financial.Service

/-!
# What a financial call does when it runs alone

One lemma for each call tells what a successful call read and wrote, and one
tells that a refused reservation leaves accounts and reservations alone.
-/

namespace Orvex
namespace Financial

theorem findAccount_eq_some {key : AccountKey} {db : Database}
    {account : FinancialAccount} (h : findAccount key db = some account) :
    account ∈ db.financialAccounts ∧ key.Matches account := by
  have hmem := List.mem_of_find?_eq_some h
  have hkeys := List.find?_some h
  rw [decide_eq_true_eq] at hkeys
  exact ⟨hmem, hkeys⟩

theorem newAccount_matches (key : AccountKey) (limit : Option ℚ)
    (uuid : String) : key.Matches (newAccount key limit uuid) :=
  ⟨rfl, rfl, rfl, rfl, rfl⟩

/-- Creating an account either fails and writes nothing or appends the new
row. -/
theorem createAccount_cases (rt : Runtime) (key : AccountKey)
    (uuid : String) (db : Database) :
    (∃ failure, createAccount rt key none uuid db = (.error failure, db)) ∨
      (AccountAllowed (newAccount key none uuid) db ∧
        createAccount rt key none uuid db =
          (.ok (newAccount key none uuid),
            insertAccount (newAccount key none uuid) db)) := by
  unfold createAccount
  simp only [Fallible.pure_bind_apply, Fallible.query_bind]
  by_cases hallowed : AccountAllowed (newAccount key none uuid) db
  · right
    refine ⟨hallowed, ?_⟩
    simp [hallowed]
  · left
    refine ⟨.constraint, ?_⟩
    simp [hallowed]

theorem ensureAccount_eq_ok {rt : Runtime} {key : AccountKey}
    {uuid : String} {db db' : Database} {account : FinancialAccount}
    (h : ensureAccount rt key none uuid db = (.ok account, db')) :
    (findAccount key db = some account ∧ db' = db) ∨
      (findAccount key db = none ∧ account = newAccount key none uuid ∧
        AccountAllowed account db ∧ db' = insertAccount account db) := by
  unfold ensureAccount at h
  rw [Fallible.query_bind] at h
  cases hfind : findAccount key db with
  | some existing =>
      rw [hfind] at h
      simp only [Fallible.pure_apply, Prod.mk.injEq, Except.ok.injEq] at h
      exact Or.inl ⟨by rw [h.1], h.2.symm⟩
  | none =>
      rw [hfind] at h
      simp only [Fallible.attempt_bind] at h
      rcases createAccount_cases rt key uuid db with ⟨failure, hcreate⟩ |
        ⟨hallowed, hcreate⟩
      · rw [hcreate] at h
        simp only [Fallible.query_bind, hfind, Fallible.fail_apply,
          Prod.mk.injEq, reduceCtorEq, false_and] at h
      · rw [hcreate] at h
        simp only [Fallible.pure_apply, Prod.mk.injEq, Except.ok.injEq] at h
        exact Or.inr ⟨rfl, h.1.symm, h.1 ▸ hallowed, by rw [← h.2, h.1]⟩

/-- The account that a call works on answers its key and can be looked up. -/
theorem ensureAccount_lookup {rt : Runtime} {key : AccountKey}
    {uuid : String} {db db' : Database} {account : FinancialAccount}
    (hkeys : KeyedTable.UniqueKeys FinancialAccount.id db.financialAccounts)
    (h : ensureAccount rt key none uuid db = (.ok account, db')) :
    key.Matches account ∧ lookupAccount account.id db' = some account := by
  rcases ensureAccount_eq_ok h with ⟨hfind, rfl⟩ |
    ⟨_, rfl, hallowed, rfl⟩
  · obtain ⟨hmem, hmatches⟩ := findAccount_eq_some hfind
    exact ⟨hmatches, KeyedTable.lookup_of_mem hkeys hmem⟩
  · refine ⟨newAccount_matches key none uuid, ?_⟩
    unfold lookupAccount insertAccount
    rw [KeyedTable.lookup_append_singleton]
    have hnew : KeyedTable.lookup FinancialAccount.id
        (newAccount key none uuid).id db.financialAccounts = none :=
      hallowed.2.1
    rw [hnew]
    simp

/-- What a successful reservation read and wrote. -/
structure Reserved (rt : Runtime) (input : ReserveInput) (uuid : String)
    (account row : FinancialAccount) (amount : Decimal) (stored : ℚ)
    (change : FinancialAccount → FinancialAccount)
    (res : FinancialReservation) (db db' : Database) : Prop where
  row_found : lookupAccount account.id db = some row
  amount_read : rt.toDecimal input.amount = some amount
  accepted : budgetRefusal rt input.amount amount row = none
  amount_stored : rt.storeText input.amount = some stored
  res_eq : res = newReservation input account.id stored uuid
  allowed : ReservationAllowed res db
  row_change : reserveChange rt row amount = some change
  state_eq : db' = updateAccount account.id change (insertReservation res db)

theorem reserve_eq_ok {rt : Runtime} {input : ReserveInput}
    {accountUuid uuid : String} {db db' : Database}
    {res : FinancialReservation}
    (h : reserve rt input accountUuid uuid db = (.ok res, db')) :
    ∃ account mid, ensureAccount rt input.toAccountKey none accountUuid db =
        (.ok account, mid) ∧
      ∃ row amount stored change,
        Reserved rt input uuid account row amount stored change res mid
          db' := by
  unfold reserve at h
  obtain ⟨account, mid, hensure, h⟩ := Fallible.bind_eq_ok.mp h
  obtain ⟨amount, mid', hamount, h⟩ := Fallible.bind_eq_ok.mp h
  obtain ⟨hdecimal, rfl⟩ := Fallible.ofOption_eq_ok.mp hamount
  rw [Fallible.transaction_eq_ok, Fallible.query_bind] at h
  refine ⟨account, mid, hensure, ?_⟩
  cases hrow : lookupAccount account.id mid with
  | none =>
      rw [hrow] at h
      simp at h
  | some row =>
      rw [hrow] at h
      simp only at h
      cases hrefusal : budgetRefusal rt input.amount amount row with
      | some refusal =>
          rw [hrefusal] at h
          simp at h
      | none =>
          rw [hrefusal] at h
          simp only at h
          obtain ⟨stored, mid', hstored, h⟩ := Fallible.bind_eq_ok.mp h
          obtain ⟨hcolumn, rfl⟩ := Fallible.ofOption_eq_ok.mp hstored
          rw [Fallible.query_bind] at h
          by_cases hallowed : ReservationAllowed
              (newReservation input account.id stored uuid) mid
          · rw [if_pos (by simpa using hallowed), Fallible.change_bind] at h
            obtain ⟨change, mid', hchange, h⟩ := Fallible.bind_eq_ok.mp h
            obtain ⟨hwrite, rfl⟩ := Fallible.ofOption_eq_ok.mp hchange
            rw [Fallible.change_bind, Fallible.pure_apply, Prod.mk.injEq,
              Except.ok.injEq] at h
            exact ⟨row, amount, stored, change,
              { row_found := hrow
                amount_read := hdecimal
                accepted := hrefusal
                amount_stored := hcolumn
                res_eq := h.1.symm
                allowed := h.1 ▸ hallowed
                row_change := hwrite
                state_eq := by rw [← h.2, h.1] }⟩
          · rw [if_neg (by simpa using hallowed)] at h
            simp at h

theorem ensureAccount_of_found {rt : Runtime} {key : AccountKey}
    {uuid : String} {db : Database} {account : FinancialAccount}
    (hfind : findAccount key db = some account) :
    ensureAccount rt key none uuid db = (.ok account, db) := by
  unfold ensureAccount
  rw [Fallible.query_bind]
  simp only [hfind, Fallible.pure_apply]

/-- A reservation within the budget of the account it ensures succeeds. -/
theorem reserve_of_budget {rt : Runtime} {input : ReserveInput}
    {accountUuid uuid : String} {db mid : Database}
    {account row : FinancialAccount} {amount : Decimal} {stored : ℚ}
    {change : FinancialAccount → FinancialAccount}
    (hensure : ensureAccount rt input.toAccountKey none accountUuid db =
      (.ok account, mid))
    (hrow : lookupAccount account.id mid = some row)
    (hamount : rt.toDecimal input.amount = some amount)
    (hbudget : budgetRefusal rt input.amount amount row = none)
    (hstored : rt.storeText input.amount = some stored)
    (hnew : lookupReservation uuid mid = none)
    (hchange : reserveChange rt row amount = some change) :
    reserve rt input accountUuid uuid db =
      (.ok (newReservation input account.id stored uuid),
        updateAccount account.id change
          (insertReservation (newReservation input account.id stored uuid)
            mid)) := by
  have hallowed : ReservationAllowed
      (newReservation input account.id stored uuid) mid := by
    refine ⟨?_, hnew⟩
    have hid : (newReservation input account.id stored
      uuid).financialAccountId = account.id := rfl
    rw [hid, hrow]
    simp
  unfold reserve
  rw [Fallible.bind_of_ok hensure]
  simp only [hamount, Fallible.ofOption]
  rw [Fallible.pure_bind_apply, Fallible.transaction_eq_ok, Fallible.query_bind]
  simp only [hrow, hbudget, hstored]
  rw [Fallible.pure_bind_apply, Fallible.query_bind, decide_eq_true hallowed]
  simp only [if_true, Fallible.change_bind, hchange, Fallible.pure_bind_apply,
    Fallible.pure_apply]

end Financial
end Orvex
