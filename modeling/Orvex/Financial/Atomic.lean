import Orvex.Financial.Service
import Mathlib.Data.Rat.Defs

/-!
# The ledger, one effect at a time

What the financial calls do to the ledger, each as one indivisible effect:
an account is opened, an amount is reserved, a reservation is completed or
marked unknown.  An effect is computed from the account as it is, but from
the reservation as some earlier query may have seen it.  Under exact sums
each effect moves the totals of an account by a fixed amount.
-/

namespace Orvex
namespace Financial

/-! ## Looking rows up after a change -/

section

variable (db : Database)

@[simp] theorem lookupAccount_insertReservation (id : String)
    (res : FinancialReservation) :
    lookupAccount id (insertReservation res db) = lookupAccount id db := rfl

@[simp] theorem lookupAccount_updateReservation (id id' : String)
    (change : FinancialReservation → FinancialReservation) :
    lookupAccount id (updateReservation id' change db) =
      lookupAccount id db := rfl

@[simp] theorem lookupReservation_insertAccount (id : String)
    (account : FinancialAccount) :
    lookupReservation id (insertAccount account db) =
      lookupReservation id db := rfl

@[simp] theorem lookupReservation_updateAccount (id id' : String)
    (change : FinancialAccount → FinancialAccount) :
    lookupReservation id (updateAccount id' change db) =
      lookupReservation id db := rfl

theorem lookupAccount_insertAccount (id : String)
    (account : FinancialAccount) :
    lookupAccount id (insertAccount account db) =
      (lookupAccount id db).or
        (if account.id = id then some account else none) :=
  KeyedTable.lookup_append_singleton id db.financialAccounts account

theorem lookupReservation_insertReservation (id : String)
    (res : FinancialReservation) :
    lookupReservation id (insertReservation res db) =
      (lookupReservation id db).or
        (if res.id = id then some res else none) :=
  KeyedTable.lookup_append_singleton id db.financialReservations res

theorem lookupAccount_updateAccount
    {change : FinancialAccount → FinancialAccount}
    (hkeep : KeyedTable.KeepsKey FinancialAccount.id change)
    (id id' : String) :
    lookupAccount id' (updateAccount id change db) =
      if id' = id then (lookupAccount id db).map change
      else lookupAccount id' db :=
  KeyedTable.lookup_modify hkeep id id' db.financialAccounts

theorem lookupReservation_updateReservation
    {change : FinancialReservation → FinancialReservation}
    (hkeep : KeyedTable.KeepsKey FinancialReservation.id change)
    (id id' : String) :
    lookupReservation id' (updateReservation id change db) =
      if id' = id then (lookupReservation id db).map change
      else lookupReservation id' db :=
  KeyedTable.lookup_modify hkeep id id' db.financialReservations

end

/-! ## What the changes of a call write -/

/-- The change keeps the id, the amount and the account of a reservation. -/
def SameHold (change : FinancialReservation → FinancialReservation) : Prop :=
  ∀ res, (change res).id = res.id ∧ (change res).amount = res.amount ∧
    (change res).financialAccountId = res.financialAccountId

theorem sameHold_settle (kind : Completion) (now : ℤ) :
    SameHold (kind.settle now) := by
  intro res
  cases kind <;> exact ⟨rfl, rfl, rfl⟩

theorem sameHold_setUnknown : SameHold setUnknown :=
  fun _ => ⟨rfl, rfl, rfl⟩

theorem SameHold.keepsKey
    {change : FinancialReservation → FinancialReservation}
    (hsame : SameHold change) :
    KeyedTable.KeepsKey FinancialReservation.id change :=
  fun res => (hsame res).1

theorem settle_status (kind : Completion) (now : ℤ)
    (res : FinancialReservation) :
    (kind.settle now res).status = kind.final := by
  cases kind <;> rfl

theorem reserveChange_eq_some {rt : Runtime} {row : FinancialAccount}
    {amount : Decimal} {change : FinancialAccount → FinancialAccount}
    (h : reserveChange rt row amount = some change) :
    ∃ reserved,
      rt.store ((Decimal.finite row.currentReserved).plus rt amount) =
        some reserved ∧
      change = fun account =>
        { account with currentReserved := reserved } := by
  unfold reserveChange at h
  simp only [Option.bind_eq_bind, Option.bind_eq_some_iff, Option.pure_def,
    Option.some.injEq] at h
  obtain ⟨reserved, hstore, hchange⟩ := h
  exact ⟨reserved, hstore, hchange.symm⟩

/-- The change writes the totals of an account and nothing else. -/
def TotalsOnly (change : FinancialAccount → FinancialAccount) : Prop :=
  ∀ account, change account =
    { account with
      currentReserved := (change account).currentReserved
      currentCommitted := (change account).currentCommitted }

theorem TotalsOnly.keepsKey {change : FinancialAccount → FinancialAccount}
    (hchange : TotalsOnly change) :
    KeyedTable.KeepsKey FinancialAccount.id change := by
  intro account
  rw [hchange account]

theorem totalsOnly_reserveChange {rt : Runtime} {row : FinancialAccount}
    {amount : Decimal} {change : FinancialAccount → FinancialAccount}
    (h : reserveChange rt row amount = some change) : TotalsOnly change := by
  obtain ⟨reserved, _, hchange⟩ := reserveChange_eq_some h
  subst hchange
  exact fun _ => rfl

theorem totalsOnly_accountChange {rt : Runtime} {kind : Completion}
    {row : FinancialAccount} {amount : ℚ}
    {change : FinancialAccount → FinancialAccount}
    (h : kind.accountChange rt row amount = some change) :
    TotalsOnly change := by
  unfold Completion.accountChange at h
  simp only [Option.bind_eq_bind, Option.bind_eq_some_iff] at h
  obtain ⟨reserved, _, h⟩ := h
  cases kind with
  | commit =>
      simp only [Option.bind_eq_some_iff, Option.pure_def,
        Option.some.injEq] at h
      obtain ⟨committed, _, hchange⟩ := h
      subst hchange
      exact fun _ => rfl
  | release =>
      simp only [Option.pure_def, Option.some.injEq] at h
      subst h
      exact fun _ => rfl
  | reconcileRelease =>
      simp only [Option.pure_def, Option.some.injEq] at h
      subst h
      exact fun _ => rfl

/-! ## Effects -/

inductive Effect where
  | opened (account : FinancialAccount)
  | reserved (res : FinancialReservation)
  | completed (kind : Completion) (res : FinancialReservation)
  | marked (res : FinancialReservation)

/-- The amount and the account of a reservation never change. -/
def Recorded (res : FinancialReservation) (db : Database) : Prop :=
  ∃ current, lookupReservation res.id db = some current ∧
    current.amount = res.amount ∧
    current.financialAccountId = res.financialAccountId

/-- What the locked account row `row` says of a new reservation `res`. -/
structure Grant (rt : Runtime) (row : FinancialAccount) (amount : Decimal)
    (res : FinancialReservation) : Prop where
  text : ∃ text, rt.toDecimal text = some amount ∧
    rt.storeText text = some res.amount ∧
    budgetRefusal rt text amount row = none
  account : res.financialAccountId = row.id
  status : res.status = .reserved

inductive Atomic (rt : Runtime) : Effect → Database → Database → Prop
  | opened {db : Database} {account : FinancialAccount}
      (hfresh : lookupAccount account.id db = none)
      (hreserved : account.currentReserved = 0)
      (hcommitted : account.currentCommitted = 0) :
      Atomic rt (.opened account) db (insertAccount account db)
  | reserved {db : Database} {row : FinancialAccount} {amount : Decimal}
      {res : FinancialReservation}
      {change : FinancialAccount → FinancialAccount}
      (hrow : lookupAccount row.id db = some row)
      (hfresh : lookupReservation res.id db = none)
      (hgrant : Grant rt row amount res)
      (hchange : reserveChange rt row amount = some change) :
      Atomic rt (.reserved res) db
        (updateAccount row.id change (insertReservation res db))
  | completed {db : Database} {kind : Completion} {row : FinancialAccount}
      {res : FinancialReservation}
      {change : FinancialAccount → FinancialAccount} {now : ℤ}
      (hrow : lookupAccount row.id db = some row)
      (haccount : res.financialAccountId = row.id)
      (hrecorded : Recorded res db)
      (hchange : kind.accountChange rt row res.amount = some change) :
      Atomic rt (.completed kind res) db
        (updateReservation res.id (kind.settle now)
          (updateAccount row.id change db))
  | marked {db : Database} {res : FinancialReservation}
      (hrecorded : Recorded res db) :
      Atomic rt (.marked res) db (updateReservation res.id setUnknown db)

/-- Effects one after the other, each with the tables it found. -/
inductive AtomicRun (rt : Runtime) :
    List (Database × Effect) → Database → Database → Prop
  | refl (db : Database) : AtomicRun rt [] db db
  | tail {trace : List (Database × Effect)} {effect : Effect}
      {db db' db'' : Database} (hrun : AtomicRun rt trace db db')
      (hstep : Atomic rt effect db' db'') :
      AtomicRun rt (trace ++ [(db', effect)]) db db''

/-! ## Well-formed tables -/

structure WellFormed (db : Database) : Prop where
  accounts : KeyedTable.UniqueKeys FinancialAccount.id db.financialAccounts
  reservations :
    KeyedTable.UniqueKeys FinancialReservation.id db.financialReservations
  foreignKey : ∀ res ∈ db.financialReservations,
    lookupAccount res.financialAccountId db ≠ none

theorem lookupAccount_updateAccount_ne_none {db : Database}
    {change : FinancialAccount → FinancialAccount}
    (hkeep : KeyedTable.KeepsKey FinancialAccount.id change)
    {id id' : String} (h : lookupAccount id' db ≠ none) :
    lookupAccount id' (updateAccount id change db) ≠ none := by
  rw [lookupAccount_updateAccount db hkeep]
  split
  next heq =>
    subst heq
    simpa using h
  next => exact h

theorem WellFormed.insertAccount {db : Database} (hdb : WellFormed db)
    {account : FinancialAccount}
    (hfresh : lookupAccount account.id db = none) :
    WellFormed (insertAccount account db) := by
  refine ⟨hdb.accounts.append_singleton hfresh, hdb.reservations, ?_⟩
  intro res hmem
  have hold := hdb.foreignKey res hmem
  rw [lookupAccount_insertAccount]
  intro hnone
  rw [Option.or_eq_none_iff] at hnone
  exact hold hnone.1

theorem WellFormed.insertReservation {db : Database} (hdb : WellFormed db)
    {res : FinancialReservation}
    (hfresh : lookupReservation res.id db = none)
    (haccount : lookupAccount res.financialAccountId db ≠ none) :
    WellFormed (insertReservation res db) := by
  refine ⟨hdb.accounts, hdb.reservations.append_singleton hfresh, ?_⟩
  intro other hmem
  rcases List.mem_append.mp hmem with hold | hnew
  · exact hdb.foreignKey other hold
  · rw [List.mem_singleton] at hnew
    subst hnew
    exact haccount

theorem WellFormed.updateAccount {db : Database} (hdb : WellFormed db)
    {change : FinancialAccount → FinancialAccount}
    (hkeep : KeyedTable.KeepsKey FinancialAccount.id change) (id : String) :
    WellFormed (updateAccount id change db) := by
  refine ⟨hdb.accounts.modify hkeep id, hdb.reservations, ?_⟩
  intro res hmem
  exact lookupAccount_updateAccount_ne_none hkeep (hdb.foreignKey res hmem)

theorem WellFormed.updateReservation {db : Database} (hdb : WellFormed db)
    {change : FinancialReservation → FinancialReservation}
    (hsame : SameHold change) (id : String) :
    WellFormed (updateReservation id change db) := by
  refine ⟨hdb.accounts, hdb.reservations.modify hsame.keepsKey id, ?_⟩
  intro res hmem
  obtain ⟨old, hold, heq⟩ := List.mem_map.mp hmem
  have haccount' : res.financialAccountId = old.financialAccountId := by
    subst heq
    split
    · exact (hsame old).2.2
    · rfl
  rw [haccount']
  exact hdb.foreignKey old hold

theorem Atomic.wellFormed {rt : Runtime} {effect : Effect}
    {db db' : Database} (hdb : WellFormed db)
    (hstep : Atomic rt effect db db') : WellFormed db' := by
  cases hstep with
  | opened hfresh _ _ => exact hdb.insertAccount hfresh
  | reserved hrow hfresh hgrant hchange =>
      apply WellFormed.updateAccount _ (totalsOnly_reserveChange hchange).keepsKey
      apply hdb.insertReservation hfresh
      rw [hgrant.account, hrow]
      simp
  | completed hrow haccount hrecorded hchange =>
      apply WellFormed.updateReservation _ (sameHold_settle _ _)
      exact hdb.updateAccount (totalsOnly_accountChange hchange).keepsKey _
  | marked hrecorded =>
      exact hdb.updateReservation sameHold_setUnknown _

/-- Reservations are never deleted, and keep their amount and account. -/
theorem Atomic.recorded {rt : Runtime} {effect : Effect}
    {db db' : Database} (hstep : Atomic rt effect db db')
    {res : FinancialReservation} (hrecorded : Recorded res db) :
    Recorded res db' := by
  obtain ⟨current, hlookup, hamount, haccount⟩ := hrecorded
  have hupdate : ∀ (id : String)
      (change : FinancialReservation → FinancialReservation)
      (base : Database),
      lookupReservation res.id base = some current →
      SameHold change →
      Recorded res (updateReservation id change base) := by
    intro id change base hbase hsame
    have hkeep := hsame.keepsKey
    obtain ⟨_, hamount', haccount'⟩ := hsame current
    by_cases hid : res.id = id
    · subst hid
      refine ⟨change current, ?_, ?_, ?_⟩
      · rw [lookupReservation_updateReservation base hkeep, if_pos rfl, hbase]
        rfl
      · rw [hamount', hamount]
      · rw [haccount', haccount]
    · refine ⟨current, ?_, hamount, haccount⟩
      rw [lookupReservation_updateReservation base hkeep, if_neg hid, hbase]
  cases hstep with
  | opened _ _ _ => exact ⟨current, hlookup, hamount, haccount⟩
  | reserved _ _ _ _ =>
      refine ⟨current, ?_, hamount, haccount⟩
      rw [lookupReservation_updateAccount,
        lookupReservation_insertReservation, hlookup]
      rfl
  | completed _ _ _ _ =>
      exact hupdate _ _ _ hlookup (sameHold_settle _ _)
  | marked _ => exact hupdate _ _ _ hlookup sameHold_setUnknown

theorem AtomicRun.wellFormed {rt : Runtime}
    {trace : List (Database × Effect)} {db db' : Database}
    (hdb : WellFormed db) (hrun : AtomicRun rt trace db db') :
    WellFormed db' := by
  induction hrun with
  | refl db => exact hdb
  | tail _ hstep ih => exact hstep.wellFormed (ih hdb)

end Financial
end Orvex
