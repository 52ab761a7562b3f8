import Orvex.Financial.Atomic
import Mathlib.Algebra.Order.Ring.Rat

/-!
# Totals and reservations under exact sums

Every effect moves the totals of an account, and the sum of its open and of
its committed reservations, by an amount that depends only on the effect and
on the status of the reservation at that moment.
-/

namespace Orvex
namespace Financial

def Open (status : ReservationStatus) : Prop :=
  status = .reserved ∨ status = .unknown

instance (status : ReservationStatus) : Decidable (Open status) :=
  inferInstanceAs (Decidable (_ ∨ _))

theorem Completion.not_open_final (kind : Completion) :
    ¬ Open kind.final := by
  cases kind <;> simp [Open, Completion.final]

theorem open_ne_committed {status : ReservationStatus}
    (hopen : Open status) : status ≠ .committed := by
  rcases hopen with h | h <;> simp [h]

/-- What a reservation holds of the budget of account `id`. -/
def heldBy (id : String) (res : FinancialReservation) : ℚ :=
  if res.financialAccountId = id ∧ Open res.status then res.amount else 0

/-- What a reservation has spent of the budget of account `id`. -/
def spentBy (id : String) (res : FinancialReservation) : ℚ :=
  if res.financialAccountId = id ∧ res.status = .committed then res.amount
  else 0

def held (id : String) (db : Database) : ℚ :=
  (db.financialReservations.map (heldBy id)).sum

def spent (id : String) (db : Database) : ℚ :=
  (db.financialReservations.map (spentBy id)).sum

def reservedTotal (id : String) (db : Database) : ℚ :=
  ((lookupAccount id db).map FinancialAccount.currentReserved).getD 0

def committedTotal (id : String) (db : Database) : ℚ :=
  ((lookupAccount id db).map FinancialAccount.currentCommitted).getD 0

/-- The totals of every account are the sums over its reservations. -/
def Conserved (db : Database) : Prop :=
  ∀ account ∈ db.financialAccounts,
    account.currentReserved = held account.id db ∧
      account.currentCommitted = spent account.id db

instance (db : Database) : Decidable (Conserved db) :=
  inferInstanceAs (Decidable (∀ account ∈ db.financialAccounts, _ ∧ _))

/-! ## Exact changes -/

/-- The sum loses nothing when it is rounded and stored. -/
def StoresExactly (rt : Runtime) (x : ℚ) : Prop :=
  rt.store (.finite (rt.round x)) = some x

theorem storesExactly_of_exact {rt : Runtime} (hexact : rt.Exact)
    (x : ℚ) : StoresExactly rt x := by
  unfold StoresExactly
  rw [hexact.round]
  exact hexact.column x

/-- The sums that a completion writes lose nothing. -/
structure CompletionSums (rt : Runtime) (kind : Completion)
    (row : FinancialAccount) (amount : ℚ) : Prop where
  reserved : StoresExactly rt (row.currentReserved - amount)
  committed : kind = .commit →
    StoresExactly rt (row.currentCommitted + amount)

/-- What a completion writes when its sums lose nothing. -/
theorem accountChange_of_sums {rt : Runtime} {kind : Completion}
    {row : FinancialAccount} {amount : ℚ}
    (hsums : CompletionSums rt kind row amount)
    {change : FinancialAccount → FinancialAccount}
    (h : kind.accountChange rt row amount = some change)
    (account : FinancialAccount) :
    (change account).currentReserved = row.currentReserved - amount ∧
      (change account).currentCommitted =
        (if kind = .commit then row.currentCommitted + amount
          else account.currentCommitted) ∧
      (change account).limitAmount = account.limitAmount := by
  have hreserved : rt.store ((Decimal.finite row.currentReserved).minus rt
      (.finite amount)) = some (row.currentReserved - amount) := by
    rw [Decimal.minus_finite]
    exact hsums.reserved
  unfold Completion.accountChange at h
  rw [hreserved] at h
  cases kind with
  | commit =>
      have hcommitted : rt.store ((Decimal.finite row.currentCommitted).plus
          rt (.finite amount)) = some (row.currentCommitted + amount) := by
        rw [Decimal.plus_finite]
        exact hsums.committed rfl
      simp only [Option.bind_eq_bind, Option.bind_some, hcommitted,
        Option.pure_def, Option.some.injEq] at h
      subst h
      exact ⟨rfl, rfl, rfl⟩
  | release =>
      simp only [Option.bind_eq_bind, Option.bind_some, Option.pure_def,
        Option.some.injEq] at h
      subst h
      exact ⟨rfl, rfl, rfl⟩
  | reconcileRelease =>
      simp only [Option.bind_eq_bind, Option.bind_some, Option.pure_def,
        Option.some.injEq] at h
      subst h
      exact ⟨rfl, rfl, rfl⟩

/-- A completion whose sums lose nothing can be written. -/
theorem exists_change_of_sums {rt : Runtime} {kind : Completion}
    {row : FinancialAccount} {amount : ℚ}
    (hsums : CompletionSums rt kind row amount) :
    ∃ change, kind.accountChange rt row amount = some change := by
  have hreserved : rt.store ((Decimal.finite row.currentReserved).minus rt
      (.finite amount)) = some (row.currentReserved - amount) := by
    rw [Decimal.minus_finite]
    exact hsums.reserved
  unfold Completion.accountChange
  rw [hreserved]
  cases kind with
  | commit =>
      have hcommitted : rt.store ((Decimal.finite row.currentCommitted).plus
          rt (.finite amount)) = some (row.currentCommitted + amount) := by
        rw [Decimal.plus_finite]
        exact hsums.committed rfl
      simp only [Option.bind_eq_bind, Option.bind_some, hcommitted]
      exact ⟨_, rfl⟩
  | release => exact ⟨_, rfl⟩
  | reconcileRelease => exact ⟨_, rfl⟩

section

variable {rt : Runtime} (hexact : rt.Exact)

include hexact

theorem completionSums_of_exact (kind : Completion) (row : FinancialAccount)
    (amount : ℚ) : CompletionSums rt kind row amount :=
  ⟨storesExactly_of_exact hexact _, fun _ => storesExactly_of_exact hexact _⟩

theorem store_plus_exact {x : ℚ} {amount : Decimal} {v : ℚ}
    (h : rt.store ((Decimal.finite x).plus rt amount) = some v) :
    ∃ y, amount = .finite y ∧ v = x + y := by
  obtain ⟨z, hz, hcolumn⟩ := Runtime.store_eq_some h
  obtain ⟨a, y, ha, hy, hsum⟩ := Decimal.plus_eq_finite hz
  rw [hexact.column] at hcolumn
  rw [hexact.round] at hsum
  simp only [Decimal.finite.injEq] at ha
  simp only [Option.some.injEq] at hcolumn
  exact ⟨y, hy, by rw [← hcolumn, hsum, ha]⟩

theorem reserveChange_exact {row : FinancialAccount} {amount : Decimal}
    {change : FinancialAccount → FinancialAccount}
    (h : reserveChange rt row amount = some change) :
    ∃ x, amount = .finite x ∧
      change = fun account =>
        { account with currentReserved := row.currentReserved + x } := by
  obtain ⟨reserved, hstore, hchange⟩ := reserveChange_eq_some h
  obtain ⟨x, hx, hv⟩ := store_plus_exact hexact hstore
  exact ⟨x, hx, by rw [hchange, hv]⟩

theorem Grant.exact {row : FinancialAccount} {amount : Decimal}
    {res : FinancialReservation} (hgrant : Grant rt row amount res) :
    amount = .finite res.amount ∧
      ∀ limit, row.limitAmount = some limit →
        row.currentReserved + row.currentCommitted + res.amount ≤ limit := by
  obtain ⟨text, hdecimal, hstore, hbudget⟩ := hgrant.text
  obtain ⟨x, hx, hcolumn⟩ := Runtime.storeText_eq_some hstore
  rw [hexact.column, Option.some.injEq] at hcolumn
  subst hcolumn
  have hamount : amount = .finite res.amount :=
    Option.some.inj (hdecimal.symm.trans hx)
  refine ⟨hamount, ?_⟩
  intro limit hlimit
  subst hamount
  simp only [budgetRefusal, hlimit, projected, Decimal.plus_finite,
    hexact.round, Decimal.gt_finite, decide_eq_true_eq,
    ite_eq_right_iff, reduceCtorEq, imp_false, not_lt] at hbudget
  exact hbudget

end

/-! ## How an effect moves the totals -/

def Effect.reservedChange (id : String) : Effect → ℚ
  | .reserved res => if res.financialAccountId = id then res.amount else 0
  | .completed _ res =>
      if res.financialAccountId = id then -res.amount else 0
  | _ => 0

def Effect.committedChange (id : String) : Effect → ℚ
  | .completed .commit res =>
      if res.financialAccountId = id then res.amount else 0
  | _ => 0

theorem total_updateAccount (f : FinancialAccount → ℚ) {db : Database}
    {row : FinancialAccount} {change : FinancialAccount → FinancialAccount}
    (hkeep : KeyedTable.KeepsKey FinancialAccount.id change)
    (hrow : lookupAccount row.id db = some row) (id : String) :
    ((lookupAccount id (updateAccount row.id change db)).map f).getD 0 =
      ((lookupAccount id db).map f).getD 0 +
        (if row.id = id then f (change row) - f row else 0) := by
  rw [lookupAccount_updateAccount db hkeep]
  by_cases hid : id = row.id
  · subst hid
    simp [hrow]
  · have hne : ¬ row.id = id := fun h => hid h.symm
    simp [hid, hne]

theorem total_insertAccount (f : FinancialAccount → ℚ) {db : Database}
    {account : FinancialAccount}
    (hfresh : lookupAccount account.id db = none) (hzero : f account = 0)
    (id : String) :
    ((lookupAccount id (insertAccount account db)).map f).getD 0 =
      ((lookupAccount id db).map f).getD 0 := by
  rw [lookupAccount_insertAccount]
  by_cases hid : account.id = id
  · subst hid
    simp [hfresh, hzero]
  · simp [hid]

variable {rt : Runtime} (hexact : rt.Exact)

include hexact

theorem Atomic.reservedTotal {effect : Effect} {db db' : Database}
    (hstep : Atomic rt effect db db') (id : String) :
    reservedTotal id db' =
      reservedTotal id db + effect.reservedChange id := by
  unfold Financial.reservedTotal
  cases hstep with
  | opened hfresh hreserved _ =>
      rw [total_insertAccount _ hfresh hreserved]
      simp [Effect.reservedChange]
  | reserved hrow _ hgrant hchange =>
      obtain ⟨hamount, _⟩ := hgrant.exact hexact
      obtain ⟨x, hx, hvalue⟩ := reserveChange_exact hexact hchange
      rw [total_updateAccount _ (totalsOnly_reserveChange hchange).keepsKey
        (by rw [lookupAccount_insertReservation]; exact hrow)]
      rw [hamount, Decimal.finite.injEq] at hx
      subst hvalue
      simp only [lookupAccount_insertReservation, Effect.reservedChange,
        hgrant.account, hx, add_sub_cancel_left]
  | completed hrow haccount _ hchange =>
      rw [lookupAccount_updateReservation,
        total_updateAccount _ (totalsOnly_accountChange hchange).keepsKey hrow,
        (accountChange_of_sums (completionSums_of_exact hexact _ _ _)
          hchange _).1]
      simp only [Effect.reservedChange, haccount, sub_sub_cancel_left]
  | marked _ => simp [Effect.reservedChange]

theorem Atomic.committedTotal {effect : Effect} {db db' : Database}
    (hstep : Atomic rt effect db db') (id : String) :
    committedTotal id db' =
      committedTotal id db + effect.committedChange id := by
  unfold Financial.committedTotal
  cases hstep with
  | opened hfresh _ hcommitted =>
      rw [total_insertAccount _ hfresh hcommitted]
      simp [Effect.committedChange]
  | reserved hrow _ hgrant hchange =>
      obtain ⟨x, hx, hvalue⟩ := reserveChange_exact hexact hchange
      rw [total_updateAccount _ (totalsOnly_reserveChange hchange).keepsKey
        (by rw [lookupAccount_insertReservation]; exact hrow)]
      subst hvalue
      simp [Effect.committedChange]
  | @completed _ kind row res change now hrow haccount _ hchange =>
      rw [lookupAccount_updateReservation,
        total_updateAccount _ (totalsOnly_accountChange hchange).keepsKey hrow,
        (accountChange_of_sums (completionSums_of_exact hexact _ _ _)
          hchange _).2.1]
      cases kind with
      | commit => simp [Effect.committedChange, haccount]
      | _ => simp [Effect.committedChange]
  | marked _ => simp [Effect.committedChange]

/-! ## How an effect moves the reservations -/

section

omit hexact

theorem held_insertReservation (id : String) (res : FinancialReservation)
    (db : Database) :
    held id (insertReservation res db) = held id db + heldBy id res := by
  simp [held, insertReservation]

theorem spent_insertReservation (id : String) (res : FinancialReservation)
    (db : Database) :
    spent id (insertReservation res db) = spent id db + spentBy id res := by
  simp [spent, insertReservation]

theorem held_updateReservation {db : Database} (hdb : WellFormed db)
    {change : FinancialReservation → FinancialReservation} {rid : String}
    {current : FinancialReservation}
    (hlookup : lookupReservation rid db = some current) (id : String) :
    held id (updateReservation rid change db) =
      held id db + (heldBy id (change current) - heldBy id current) := by
  have hsum := KeyedTable.sum_modify (heldBy id) change
    hdb.reservations hlookup
  unfold held updateReservation
  linarith

theorem spent_updateReservation {db : Database} (hdb : WellFormed db)
    {change : FinancialReservation → FinancialReservation} {rid : String}
    {current : FinancialReservation}
    (hlookup : lookupReservation rid db = some current) (id : String) :
    spent id (updateReservation rid change db) =
      spent id db + (spentBy id (change current) - spentBy id current) := by
  have hsum := KeyedTable.sum_modify (spentBy id) change
    hdb.reservations hlookup
  unfold spent updateReservation
  linarith

theorem heldBy_settle (id : String) (kind : Completion) (now : ℤ)
    (res : FinancialReservation) : heldBy id (kind.settle now res) = 0 := by
  simp [heldBy, settle_status, kind.not_open_final]

theorem spentBy_settle (id : String) (kind : Completion) (now : ℤ)
    (res : FinancialReservation) :
    spentBy id (kind.settle now res) =
      if res.financialAccountId = id ∧ kind = .commit then res.amount
      else 0 := by
  cases kind <;>
    simp [spentBy, Completion.settle]

theorem heldBy_setUnknown (id : String) (res : FinancialReservation) :
    heldBy id (setUnknown res) =
      if res.financialAccountId = id then res.amount else 0 := by
  simp [heldBy, setUnknown, Open]

theorem spentBy_of_not_committed {res : FinancialReservation}
    (hstatus : res.status ≠ .committed) (id : String) :
    spentBy id res = 0 := by
  simp [spentBy, hstatus]

end

/-! ## Drift -/

/-- What the reserved total of an account shows beyond its open
reservations. -/
def reservedDrift (id : String) (db : Database) : ℚ :=
  reservedTotal id db - held id db

def committedDrift (id : String) (db : Database) : ℚ :=
  committedTotal id db - spent id db

/-- The reservation that the effect completes or marks is still open. -/
def Effect.Fresh (db : Database) : Effect → Prop
  | .completed _ res =>
      ∃ current, lookupReservation res.id db = some current ∧
        Open current.status
  | .marked res =>
      ∃ current, lookupReservation res.id db = some current ∧
        Open current.status
  | _ => True

/-- The amount of a reservation of account `id` that is no longer open. -/
def closedAmount (id : String) (res : FinancialReservation)
    (db : Database) : ℚ :=
  match lookupReservation res.id db with
  | some current =>
      if res.financialAccountId = id ∧ ¬ Open current.status then res.amount
      else 0
  | none => 0

/-- The amount by which the effect makes account `id` drift. -/
def Effect.staleAmount (id : String) (db : Database) : Effect → ℚ
  | .completed _ res => closedAmount id res db
  | .marked res => closedAmount id res db
  | _ => 0

section

omit hexact

theorem Atomic.reservedDrift_of_total {effect : Effect} {db db' : Database}
    (hdb : WellFormed db) (hstep : Atomic rt effect db db') {id : String}
    (htotal : Financial.reservedTotal id db' =
      Financial.reservedTotal id db + effect.reservedChange id) :
    reservedDrift id db' =
      reservedDrift id db - effect.staleAmount id db := by
  unfold Financial.reservedDrift
  rw [htotal]
  cases hstep with
  | opened _ _ _ =>
      simp [Effect.reservedChange, Effect.staleAmount, held, insertAccount]
  | @reserved _ row amount res change hrow hfresh hgrant hchange =>
      have hheld : held id
          (updateAccount row.id change (insertReservation res db)) =
            held id db + heldBy id res :=
        held_insertReservation id res db
      rw [hheld]
      simp only [Effect.reservedChange, Effect.staleAmount, heldBy,
        hgrant.status, Open, true_or, and_true]
      ring
  | @completed _ kind row res change now hrow haccount hrecorded hchange =>
      obtain ⟨current, hlookup, hamount, hsame⟩ := hrecorded
      have hbase : WellFormed (updateAccount row.id change db) :=
        hdb.updateAccount (totalsOnly_accountChange hchange).keepsKey _
      rw [held_updateReservation hbase
        (by rw [lookupReservation_updateAccount]; exact hlookup),
        heldBy_settle]
      have hheld : held id (updateAccount row.id change db) = held id db :=
        rfl
      rw [hheld]
      simp only [Effect.reservedChange, Effect.staleAmount, closedAmount,
        hlookup, heldBy, hamount, hsame]
      by_cases hid : res.financialAccountId = id
      · by_cases hopen : Open current.status
        · simp [hid, hopen]
        · simp only [hid, hopen, not_false_eq_true, and_self, and_false,
            if_true, if_false]
          ring
      · simp [hid]
  | @marked _ res hrecorded =>
      obtain ⟨current, hlookup, hamount, hsame⟩ := hrecorded
      rw [held_updateReservation hdb hlookup, heldBy_setUnknown]
      simp only [Effect.reservedChange, Effect.staleAmount, closedAmount,
        hlookup, heldBy, hamount, hsame]
      by_cases hid : res.financialAccountId = id
      · by_cases hopen : Open current.status
        · simp [hid, hopen]
        · simp only [hid, hopen, not_false_eq_true, and_self, and_false,
            if_true, if_false]
          ring
      · simp [hid]

theorem Atomic.committedDrift_of_total {effect : Effect} {db db' : Database}
    (hdb : WellFormed db) (hstep : Atomic rt effect db db')
    (hfresh : effect.Fresh db) {id : String}
    (htotal : Financial.committedTotal id db' =
      Financial.committedTotal id db + effect.committedChange id) :
    committedDrift id db' = committedDrift id db := by
  unfold Financial.committedDrift
  rw [htotal]
  cases hstep with
  | opened _ _ _ => simp [Effect.committedChange, spent, insertAccount]
  | @reserved _ row amount res change hrow _ hgrant hchange =>
      have hspent : spent id
          (updateAccount row.id change (insertReservation res db)) =
            spent id db + spentBy id res :=
        spent_insertReservation id res db
      rw [hspent, spentBy_of_not_committed (by rw [hgrant.status]; simp)]
      simp [Effect.committedChange]
  | @completed _ kind row res change now hrow haccount hrecorded hchange =>
      obtain ⟨current, hlookup, hamount, hsame⟩ := hrecorded
      obtain ⟨current', hlookup', hopen⟩ := hfresh
      obtain rfl : current = current' :=
        Option.some.inj (hlookup.symm.trans hlookup')
      have hbase : WellFormed (updateAccount row.id change db) :=
        hdb.updateAccount (totalsOnly_accountChange hchange).keepsKey _
      rw [spent_updateReservation hbase
        (by rw [lookupReservation_updateAccount]; exact hlookup),
        spentBy_settle, spentBy_of_not_committed (open_ne_committed hopen)]
      have hspent : spent id (updateAccount row.id change db) =
          spent id db := rfl
      rw [hspent, hamount, hsame]
      cases kind <;> simp [Effect.committedChange]
  | @marked _ res hrecorded =>
      obtain ⟨current, hlookup, hopen⟩ := hfresh
      rw [spent_updateReservation hdb hlookup,
        spentBy_of_not_committed (by simp [setUnknown]),
        spentBy_of_not_committed (open_ne_committed hopen)]
      simp [Effect.committedChange]

end

theorem Atomic.reservedDrift {effect : Effect} {db db' : Database}
    (hdb : WellFormed db) (hstep : Atomic rt effect db db') (id : String) :
    reservedDrift id db' =
      reservedDrift id db - effect.staleAmount id db :=
  hstep.reservedDrift_of_total hdb (hstep.reservedTotal hexact id)

theorem Atomic.committedDrift {effect : Effect} {db db' : Database}
    (hdb : WellFormed db) (hstep : Atomic rt effect db db')
    (hfresh : effect.Fresh db) (id : String) :
    committedDrift id db' = committedDrift id db :=
  hstep.committedDrift_of_total hdb hfresh (hstep.committedTotal hexact id)

/-! ## Effects that are counted -/

omit hexact

/-- The effect moves the totals by what it adds to the reservations. -/
def Effect.Counted (effect : Effect) (db db' : Database) : Prop :=
  ∀ id,
    Financial.reservedTotal id db' =
        Financial.reservedTotal id db + effect.reservedChange id ∧
      Financial.committedTotal id db' =
        Financial.committedTotal id db + effect.committedChange id

theorem counted_marked {res : FinancialReservation} {db : Database} :
    (Effect.marked res).Counted db (updateReservation res.id setUnknown db) := by
  intro id
  simp only [Effect.reservedChange, Effect.committedChange, add_zero]
  exact ⟨rfl, rfl⟩

end Financial
end Orvex
