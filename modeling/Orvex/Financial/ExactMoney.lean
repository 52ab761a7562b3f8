import Orvex.Core.Reference
import Orvex.Financial.Solo
import Orvex.Foundation.SignificantDigits

/-!
# Sums of twenty digits

The columns of an account hold twenty digits before the point and eighteen
after it.  The decimal package reads and compares such values exactly, but
its sums keep twenty significant digits.
-/

namespace Orvex

open SignificantDigits (Fits Multiple place)

/-! ## Columns -/

/-- A value of a DECIMAL(38,18) column. -/
structure InColumn (x : ℚ) : Prop where
  decimals : Multiple (-18) x
  range : |x| < 10 ^ 20

/-- What a DECIMAL(38,18) column keeps of a number: eighteen decimals.  A
number that is too large is refused. -/
def numeric (x : ℚ) : Option ℚ :=
  if |place 18 x| < 10 ^ 20 then some (place 18 x) else none

/-- The decimal package as it is configured by default, and the columns. -/
structure Runtime.DefaultDecimals (rt : Runtime) : Prop where
  round : ∀ x, rt.round x = SignificantDigits.round 20 x
  column : ∀ x, rt.column x = numeric x

theorem numeric_of_multiple {x : ℚ} (h : Multiple (-18) x) :
    numeric x = if |x| < 10 ^ 20 then some x else none := by
  have hplace : place 18 x = x := Multiple.place h
  unfold numeric
  rw [hplace]

section

variable {rt : Runtime} (hrt : rt.DefaultDecimals)

include hrt

/-- What is stored of a sum. -/
theorem store_sum {x : ℚ} (h : Multiple (-18) x) :
    rt.store (.finite (rt.round x)) =
      if |SignificantDigits.round 20 x| < 10 ^ 20 then
        some (SignificantDigits.round 20 x)
      else none := by
  change rt.column (rt.round x) = _
  rw [hrt.round, hrt.column, numeric_of_multiple (h.round 20)]

theorem store_sum_eq_some {x v : ℚ} (h : Multiple (-18) x) :
    rt.store (.finite (rt.round x)) = some v ↔
      |SignificantDigits.round 20 x| < 10 ^ 20 ∧
        v = SignificantDigits.round 20 x := by
  rw [store_sum hrt h]
  by_cases hrange : |SignificantDigits.round 20 x| < 10 ^ 20
  · rw [if_pos hrange, Option.some.injEq]
    exact ⟨fun heq => ⟨hrange, heq.symm⟩, fun heq => heq.2.symm⟩
  · rw [if_neg hrange]
    simp [hrange]

theorem storeText_of_column {text : String} {x : ℚ}
    (htext : rt.toDecimal text = some (.finite x)) (h : InColumn x) :
    rt.storeText text = some x := by
  unfold Runtime.storeText
  rw [htext, Option.bind_some]
  change rt.column x = _
  rw [hrt.column, numeric_of_multiple h.decimals, if_pos h.range]

end

namespace Financial

/-! ## Reservations -/

/-- The account of the call is there and holds these totals, and the amount
is one that the columns can hold. -/
structure ReserveSetup (rt : Runtime) (input : ReserveInput)
    (accountUuid uuid : String) (amount : ℚ) (row : FinancialAccount)
    (db mid : Database) : Prop where
  ensured : ensureAccount rt input.toAccountKey none accountUuid db =
    (.ok row, mid)
  found : lookupAccount row.id mid = some row
  fresh : lookupReservation uuid mid = none
  read : rt.toDecimal input.amount = some (.finite amount)
  amount : InColumn amount
  reserved : InColumn row.currentReserved
  committed : InColumn row.currentCommitted

def WithinLimit (row : FinancialAccount) (amount : ℚ) : Prop :=
  ∀ limit, row.limitAmount = some limit →
    row.currentCommitted + row.currentReserved + amount ≤ limit

/-- The same with each sum rounded. -/
def RoundedWithinLimit (row : FinancialAccount) (amount : ℚ) : Prop :=
  ∀ limit, row.limitAmount = some limit →
    SignificantDigits.round 20
      (SignificantDigits.round 20
        (row.currentReserved + row.currentCommitted) + amount) ≤ limit

/-- The call accepts exactly the amounts within the limit, and adds exactly
what it accepts. -/
structure ReservesExactly (rt : Runtime) (input : ReserveInput)
    (accountUuid uuid : String) (amount : ℚ) (row : FinancialAccount)
    (db : Database) : Prop where
  accepts : (∃ res db',
    reserve rt input accountUuid uuid db = (.ok res, db')) ↔
      WithinLimit row amount
  adds : ∀ res db', reserve rt input accountUuid uuid db = (.ok res, db') →
    res.amount = amount ∧
      lookupAccount row.id db' = some
        { row with currentReserved := row.currentReserved + amount }

/-- Rounding moves no sum across the limit, and an accepted total has twenty
significant digits. -/
structure ReserveFits (row : FinancialAccount) (amount : ℚ) : Prop where
  decision : WithinLimit row amount ↔
    RoundedWithinLimit row amount ∧
      |SignificantDigits.round 20 (row.currentReserved + amount)| < 10 ^ 20
  total : WithinLimit row amount → Fits 20 (row.currentReserved + amount)

section

variable {rt : Runtime} {input : ReserveInput} {accountUuid uuid : String}
  {amount : ℚ} {row : FinancialAccount} {db mid : Database}

theorem budgetRefusal_eq_none_iff (hrt : rt.DefaultDecimals)
    (requested : String) :
    budgetRefusal rt requested (.finite amount) row = none ↔
      RoundedWithinLimit row amount := by
  unfold budgetRefusal RoundedWithinLimit
  cases hlimit : row.limitAmount with
  | none => simp
  | some limit =>
      simp only [projected, Decimal.plus_finite, Decimal.gt_finite, hrt.round,
        Option.some.injEq, forall_eq']
      by_cases hexceeds : limit < SignificantDigits.round 20
          (SignificantDigits.round 20
            (row.currentReserved + row.currentCommitted) + amount)
      · rw [if_pos (decide_eq_true hexceeds)]
        simp [hexceeds]
      · rw [if_neg (by simpa using hexceeds)]
        simp [not_lt.mp hexceeds]

/-- The total that the call stores. -/
theorem reserveChange_iff (hrt : rt.DefaultDecimals)
    (hmultiple : Multiple (-18) (row.currentReserved + amount))
    {change : FinancialAccount → FinancialAccount} :
    reserveChange rt row (.finite amount) = some change ↔
      |SignificantDigits.round 20 (row.currentReserved + amount)| < 10 ^ 20 ∧
        change = fun account => { account with
          currentReserved :=
            SignificantDigits.round 20 (row.currentReserved + amount) } := by
  constructor
  · intro h
    obtain ⟨reserved, hstore, hchange⟩ := reserveChange_eq_some h
    rw [Decimal.plus_finite, store_sum_eq_some hrt hmultiple] at hstore
    exact ⟨hstore.1, by rw [hchange, hstore.2]⟩
  · rintro ⟨hrange, hchange⟩
    have hstore := (store_sum_eq_some hrt hmultiple).mpr ⟨hrange, rfl⟩
    unfold reserveChange
    rw [Decimal.plus_finite, hstore, hchange]
    rfl

theorem ReserveSetup.multiple
    (h : ReserveSetup rt input accountUuid uuid amount row db mid) :
    Multiple (-18) (row.currentReserved + amount) :=
  h.reserved.decimals.add h.amount.decimals

/-- What a successful call leaves. -/
theorem ReserveSetup.result (hrt : rt.DefaultDecimals)
    (h : ReserveSetup rt input accountUuid uuid amount row db mid)
    {res : FinancialReservation} {db' : Database}
    (hreserve : reserve rt input accountUuid uuid db = (.ok res, db')) :
    RoundedWithinLimit row amount ∧
      |SignificantDigits.round 20 (row.currentReserved + amount)| <
        10 ^ 20 ∧
      res.amount = amount ∧
      lookupAccount row.id db' = some { row with
        currentReserved :=
          SignificantDigits.round 20 (row.currentReserved + amount) } := by
  obtain ⟨account, mid', hensure, row', read, stored, change, hreserved⟩ :=
    reserve_eq_ok hreserve
  rw [h.ensured, Prod.mk.injEq, Except.ok.injEq] at hensure
  obtain ⟨rfl, rfl⟩ := hensure
  have hrow : row = row' :=
    Option.some.inj (h.found.symm.trans hreserved.row_found)
  have hread : Decimal.finite amount = read :=
    Option.some.inj (h.read.symm.trans hreserved.amount_read)
  subst hrow hread
  have hstored : amount = stored := Option.some.inj
    ((storeText_of_column hrt h.read h.amount).symm.trans
      hreserved.amount_stored)
  obtain ⟨hrange, hchange⟩ :=
    (reserveChange_iff hrt h.multiple).mp hreserved.row_change
  refine ⟨(budgetRefusal_eq_none_iff hrt _).mp hreserved.accepted, hrange,
    ?_, ?_⟩
  · rw [hreserved.res_eq, hstored]
    rfl
  · have hkeeps :=
      (totalsOnly_reserveChange hreserved.row_change).keepsKey
    rw [hreserved.state_eq, lookupAccount_updateAccount _ hkeeps, if_pos rfl,
      lookupAccount_insertReservation, h.found, hchange]
    rfl

/-- The calls that succeed. -/
theorem ReserveSetup.succeeds_iff (hrt : rt.DefaultDecimals)
    (h : ReserveSetup rt input accountUuid uuid amount row db mid) :
    (∃ res db', reserve rt input accountUuid uuid db = (.ok res, db')) ↔
      RoundedWithinLimit row amount ∧
        |SignificantDigits.round 20 (row.currentReserved + amount)| <
          10 ^ 20 := by
  constructor
  · rintro ⟨res, db', hreserve⟩
    have hresult := h.result hrt hreserve
    exact ⟨hresult.1, hresult.2.1⟩
  · rintro ⟨hwithin, hrange⟩
    exact ⟨_, _, reserve_of_budget h.ensured h.found h.read
      ((budgetRefusal_eq_none_iff hrt _).mpr hwithin)
      (storeText_of_column hrt h.read h.amount) h.fresh
      ((reserveChange_iff hrt h.multiple).mpr ⟨hrange, rfl⟩)⟩

theorem reservesExactly_iff (hrt : rt.DefaultDecimals)
    (h : ReserveSetup rt input accountUuid uuid amount row db mid) :
    ReservesExactly rt input accountUuid uuid amount row db ↔
      ReserveFits row amount := by
  have hsucceeds := h.succeeds_iff hrt
  constructor
  · intro hexact
    have hdecision : WithinLimit row amount ↔
        RoundedWithinLimit row amount ∧
          |SignificantDigits.round 20 (row.currentReserved + amount)| <
            10 ^ 20 := hexact.accepts.symm.trans hsucceeds
    refine ⟨hdecision, ?_⟩
    intro hwithin
    obtain ⟨res, db', hreserve⟩ := hexact.accepts.mpr hwithin
    have hrounded := (h.result hrt hreserve).2.2.2
    rw [(hexact.adds res db' hreserve).2, Option.some.injEq] at hrounded
    have htotal := congrArg FinancialAccount.currentReserved hrounded
    exact SignificantDigits.round_eq_iff.mp htotal.symm
  · intro hfits
    refine ⟨hsucceeds.trans hfits.decision.symm, ?_⟩
    intro res db' hreserve
    obtain ⟨hrounded, hrange, hamount, hlookup⟩ := h.result hrt hreserve
    have hwithin := hfits.decision.mpr ⟨hrounded, hrange⟩
    rw [SignificantDigits.round_eq_iff.mpr (hfits.total hwithin)] at hlookup
    exact ⟨hamount, hlookup⟩

end

/-! ## Completions -/

/-- The reservation and its account are there, and the call has not been
made before. -/
structure CompletionSetup (kind : Completion) (companyId reservationId :
    String) (res : FinancialReservation) (row : FinancialAccount)
    (db : Database) : Prop where
  wellFormed : WellFormed db
  found : findReservation companyId reservationId db = some res
  accepted : kind.refusal reservationId res.status = none
  unfinished : res.status ≠ kind.final
  row_found : lookupAccount res.financialAccountId db = some row
  amount : InColumn res.amount
  reserved : InColumn row.currentReserved
  committed : InColumn row.currentCommitted

/-- The account after the call, without rounding. -/
def Completion.exactly (kind : Completion) (row : FinancialAccount)
    (amount : ℚ) : FinancialAccount :=
  match kind with
  | .commit =>
      { row with
        currentReserved := row.currentReserved - amount
        currentCommitted := row.currentCommitted + amount }
  | _ => { row with currentReserved := row.currentReserved - amount }

def CompletesExactly (rt : Runtime) (kind : Completion)
    (companyId reservationId : String) (now : ℤ)
    (res : FinancialReservation) (row : FinancialAccount) (db : Database) :
    Prop :=
  ∃ settled db', kind.run rt companyId reservationId now db =
      (.ok settled, db') ∧
    lookupAccount row.id db' = some (kind.exactly row res.amount)

/-- The sum has twenty significant digits and the column can hold it. -/
def SumFits (x : ℚ) : Prop := Fits 20 x ∧ |x| < 10 ^ 20

/-- The sums that the call stores. -/
def CompletionFits (kind : Completion) (row : FinancialAccount)
    (amount : ℚ) : Prop :=
  SumFits (row.currentReserved - amount) ∧
    (kind = .commit → SumFits (row.currentCommitted + amount))

theorem store_eq_self_iff {rt : Runtime} (hrt : rt.DefaultDecimals) {x : ℚ}
    (h : Multiple (-18) x) :
    rt.store (.finite (rt.round x)) = some x ↔ SumFits x := by
  rw [store_sum_eq_some hrt h]
  unfold SumFits
  rw [← SignificantDigits.round_eq_iff]
  constructor
  · rintro ⟨hrange, heq⟩
    rw [← heq] at hrange
    exact ⟨heq.symm, hrange⟩
  · rintro ⟨heq, hrange⟩
    rw [heq]
    exact ⟨hrange, rfl⟩

section

variable {rt : Runtime} {kind : Completion}
  {companyId reservationId : String} {res : FinancialReservation}
  {row : FinancialAccount} {db : Database}

/-- The columns that the call writes are exact when the sums are. -/
theorem accountChange_exactly_iff (hrt : rt.DefaultDecimals)
    (h : CompletionSetup kind companyId reservationId res row db) :
    (∃ change, kind.accountChange rt row res.amount = some change ∧
      change row = kind.exactly row res.amount) ↔
      CompletionFits kind row res.amount := by
  have hreserved := @store_eq_self_iff rt hrt
    (row.currentReserved - res.amount)
    (h.reserved.decimals.sub h.amount.decimals)
  have hcommitted := @store_eq_self_iff rt hrt
    (row.currentCommitted + res.amount)
    (h.committed.decimals.add h.amount.decimals)
  unfold CompletionFits
  rw [← hreserved, ← hcommitted]
  unfold Completion.accountChange
  simp only [Decimal.minus_finite, Decimal.plus_finite, Option.bind_eq_bind,
    Option.bind_eq_some_iff]
  cases kind with
  | commit =>
      simp only [Option.bind_eq_some_iff, Option.pure_def, Option.some.injEq,
        Completion.exactly, true_implies]
      constructor
      · rintro ⟨change, ⟨reserved, hleft, committed, hright, rfl⟩, heq⟩
        have hres := congrArg FinancialAccount.currentReserved heq
        have hcom := congrArg FinancialAccount.currentCommitted heq
        simp only at hres hcom
        rw [hleft, hright, hres, hcom]
        exact ⟨rfl, rfl⟩
      · rintro ⟨hleft, hright⟩
        exact ⟨_, ⟨_, hleft, _, hright, rfl⟩, rfl⟩
  | release =>
      simp only [Option.pure_def, Option.some.injEq, Completion.exactly]
      constructor
      · rintro ⟨change, ⟨reserved, hleft, rfl⟩, heq⟩
        have hres := congrArg FinancialAccount.currentReserved heq
        simp only at hres
        rw [hleft, hres]
        exact ⟨rfl, fun hkind => by cases hkind⟩
      · rintro ⟨hleft, _⟩
        exact ⟨_, ⟨_, hleft, rfl⟩, rfl⟩
  | reconcileRelease =>
      simp only [Option.pure_def, Option.some.injEq, Completion.exactly]
      constructor
      · rintro ⟨change, ⟨reserved, hleft, rfl⟩, heq⟩
        have hres := congrArg FinancialAccount.currentReserved heq
        simp only at hres
        rw [hleft, hres]
        exact ⟨rfl, fun hkind => by cases hkind⟩
      · rintro ⟨hleft, _⟩
        exact ⟨_, ⟨_, hleft, rfl⟩, rfl⟩

theorem keepsKey_accountChange {amount : ℚ}
    {change : FinancialAccount → FinancialAccount}
    (h : kind.accountChange rt row amount = some change) :
    KeyedTable.KeepsKey FinancialAccount.id change :=
  (totalsOnly_accountChange h).keepsKey

theorem completesExactly_iff (hrt : rt.DefaultDecimals)
    (h : CompletionSetup kind companyId reservationId res row db) (now : ℤ) :
    CompletesExactly rt kind companyId reservationId now res row db ↔
      CompletionFits kind row res.amount := by
  have hid : row.id = res.financialAccountId :=
    KeyedTable.key_of_lookup h.row_found
  rw [← accountChange_exactly_iff hrt h]
  have hafter : ∀ change, kind.accountChange rt row res.amount = some change →
      lookupAccount row.id (completedState kind now res change db) =
        some (change row) := by
    intro change hchange
    unfold completedState
    rw [lookupAccount_updateReservation,
      lookupAccount_updateAccount _ (keepsKey_accountChange hchange),
      if_pos hid, h.row_found]
    rfl
  constructor
  · rintro ⟨settled, db', hrun, hlookup⟩
    rcases Completion.run_cases rt kind companyId reservationId now
        h.wellFormed with ⟨res', row', change, hcompletes, hdone⟩ |
        ⟨res', hfound, hfinal, _⟩ | ⟨failure, hfailed⟩
    · have hres : res = res' :=
        Option.some.inj (h.found.symm.trans hcompletes.found)
      subst hres
      have hrow : row = row' :=
        Option.some.inj (h.row_found.symm.trans hcompletes.row_found)
      subst hrow
      rw [hdone, Prod.mk.injEq] at hrun
      refine ⟨change, hcompletes.row_change, ?_⟩
      rw [← hrun.2, hafter change hcompletes.row_change] at hlookup
      exact Option.some.inj hlookup
    · have hres : res = res' := Option.some.inj (h.found.symm.trans hfound)
      rw [← hres] at hfinal
      exact absurd hfinal h.unfinished
    · rw [hfailed] at hrun
      cases hrun
  · rintro ⟨change, hchange, heq⟩
    have hrun := Completion.run_of_completes h.wellFormed
      ⟨h.found, h.accepted, h.unfinished, h.row_found, hchange⟩ now
    refine ⟨_, _, hrun, ?_⟩
    rw [hafter change hchange, heq]

end

/-! ## Exact money -/

/-- Totals and decisions are exact exactly where the sums have no more than
twenty significant digits, and rounding moves none across the limit. -/
theorem exact_money_iff {rt : Runtime} (hrt : rt.DefaultDecimals) :
    (∀ input accountUuid uuid amount row db mid,
      ReserveSetup rt input accountUuid uuid amount row db mid →
      (ReservesExactly rt input accountUuid uuid amount row db ↔
        ReserveFits row amount)) ∧
    (∀ kind companyId reservationId now res row db,
      CompletionSetup kind companyId reservationId res row db →
      (CompletesExactly rt kind companyId reservationId now res row db ↔
        CompletionFits kind row res.amount)) := by
  constructor
  · intro input accountUuid uuid amount row db mid h
    exact reservesExactly_iff hrt h
  · intro kind companyId reservationId now res row db h
    exact completesExactly_iff hrt h now

/-- A runtime with twenty digits. -/
def twentyDigits : Runtime :=
  { Runtime.reference with
    round := SignificantDigits.round 20
    column := numeric }

theorem twentyDigits_default : twentyDigits.DefaultDecimals :=
  ⟨fun _ => rfl, fun _ => rfl⟩

def tokenKey : AccountKey where
  companyId := "acme"
  agentId := none
  scope := .company
  scopeKey := "acme"
  asset := "TOKEN"
  network := some "base"

/-- An account of which `reserved` of 100 is reserved. -/
def tokenAccount (reserved : ℚ) : FinancialAccount :=
  { newAccount tokenKey (some 100) "account-1" with
    currentReserved := reserved }

def tokenTables (reserved : ℚ) : Database :=
  { Database.empty with
    companies := ["acme"]
    financialAccounts := [tokenAccount reserved] }

def tokenInput (amount : String) : ReserveInput :=
  ⟨tokenKey, amount, none⟩

theorem inColumn_of_decimals {x : ℚ} (n : ℤ) (hx : x = n * 10 ^ (-18 : ℤ))
    (hrange : |x| < 10 ^ 20) : InColumn x :=
  ⟨⟨n, hx⟩, hrange⟩

theorem tokenSetup {reserved amount : ℚ} {text : String}
    (hread : twentyDigits.toDecimal text = some (.finite amount))
    (hamount : InColumn amount) (hreserved : InColumn reserved) :
    ReserveSetup twentyDigits (tokenInput text) "account-2" "reservation-1"
      amount (tokenAccount reserved) (tokenTables reserved)
      (tokenTables reserved) where
  ensured := by
    apply ensureAccount_of_found
    rfl
  found := rfl
  fresh := rfl
  read := hread
  amount := hamount
  reserved := hreserved
  committed := inColumn_of_decimals 0 (by norm_num [tokenAccount, newAccount])
    (by norm_num [tokenAccount, newAccount])

/-- A reservation of 5.25. -/
def tokenReservation : FinancialReservation :=
  newReservation (tokenInput "5.25") "account-1" (21 / 4) "reservation-0"

def heldTables : Database :=
  { tokenTables 10 with financialReservations := [tokenReservation] }

theorem inColumn_ten : InColumn 10 :=
  inColumn_of_decimals (10 ^ 19) (by norm_num) (by norm_num)

theorem inColumn_payment : InColumn (21 / 4) :=
  inColumn_of_decimals (525 * 10 ^ 16) (by norm_num) (by norm_num)

theorem sumFits_of_hundredths {x : ℚ} (n : ℤ) (hx : x = n * 10 ^ (-2 : ℤ))
    (hn : |n| < 10 ^ 20) (hrange : |x| < 10 ^ 20) : SumFits x :=
  ⟨⟨n, -2, hn, hx⟩, hrange⟩

theorem heldSetup : CompletionSetup .release "acme" "reservation-0"
    tokenReservation (tokenAccount 10) heldTables where
  wellFormed := by
    constructor
    · exact List.nodup_singleton _
    · exact List.nodup_singleton _
    · intro res hmem
      rw [List.mem_singleton.mp hmem]
      exact Option.some_ne_none (tokenAccount 10)
  found := rfl
  accepted := rfl
  unfinished := by decide
  row_found := rfl
  amount := inColumn_payment
  reserved := inColumn_ten
  committed := inColumn_of_decimals 0 (by norm_num [tokenAccount, newAccount])
    (by norm_num [tokenAccount, newAccount])

/-- 5.25 of 100 is reserved and released exactly. -/
theorem payment_is_exact :
    ReservesExactly twentyDigits (tokenInput "5.25") "account-2"
        "reservation-1" (21 / 4) (tokenAccount 10) (tokenTables 10) ∧
      CompletesExactly twentyDigits .release "acme" "reservation-0" 0
        tokenReservation (tokenAccount 10) heldTables := by
  have hread : twentyDigits.toDecimal "5.25" = some (.finite (21 / 4)) := by
    decide +kernel
  have hsum : SumFits (10 + 21 / 4) :=
    sumFits_of_hundredths 1525 (by norm_num) (by norm_num) (by norm_num)
  have hten : SignificantDigits.round 20 (10 + 0) = 10 := by
    rw [add_zero]
    exact SignificantDigits.round_eq_iff.mpr
      (sumFits_of_hundredths 1000 (by norm_num) (by norm_num)
        (by norm_num)).1
  have hrounded : SignificantDigits.round 20 (10 + 21 / 4) = 10 + 21 / 4 :=
    SignificantDigits.round_eq_iff.mpr hsum.1
  constructor
  · apply ((exact_money_iff twentyDigits_default).1 _ _ _ _ _ _ _
      (tokenSetup hread inColumn_payment inColumn_ten)).mpr
    constructor
    · simp only [WithinLimit, RoundedWithinLimit, tokenAccount, newAccount,
        Option.some.injEq, forall_eq', hten, hrounded]
      norm_num
    · intro _
      exact hsum.1
  · apply ((exact_money_iff twentyDigits_default).2 _ _ _ _ _ _ _
      heldSetup).mpr
    constructor
    · exact sumFits_of_hundredths 475
        (by norm_num [tokenAccount, tokenReservation, newReservation])
        (by norm_num)
        (by norm_num [tokenAccount, tokenReservation, newReservation])
    · intro hkind
      cases hkind

theorem round_dust :
    SignificantDigits.round 20 (100 + 1 / 10 ^ 18) = 100 := by
  have hlog : Int.log 10 |(100 + 1 / 10 ^ 18 : ℚ)| = 2 := by
    have hpos : (0 : ℚ) < |100 + 1 / 10 ^ 18| := by norm_num
    apply le_antisymm
    · have hlt : |(100 + 1 / 10 ^ 18 : ℚ)| < ((10 : ℕ) : ℚ) ^ (3 : ℤ) := by
        rw [abs_of_pos (by norm_num)]
        norm_num
      have hlog := (Int.lt_zpow_iff_log_lt (by norm_num) hpos).mp hlt
      omega
    · apply (Int.zpow_le_iff_le_log (by norm_num) hpos).mp
      rw [abs_of_pos (by norm_num)]
      norm_num
  have hdigit : SignificantDigits.lastDigit 20 (100 + 1 / 10 ^ 18) = -17 := by
    unfold SignificantDigits.lastDigit
    rw [hlog]
    norm_num
  have hround : SignificantDigits.halfUp
      ((100 + 1 / 10 ^ 18) / 10 ^ (-17 : ℤ)) = 10 ^ 19 := by
    unfold SignificantDigits.halfUp
    rw [if_pos (by norm_num)]
    apply Int.floor_eq_iff.mpr
    constructor <;> norm_num
  unfold SignificantDigits.round
  rw [hdigit, hround]
  norm_num

/-- With 100 of 100 reserved, 0.000000000000000001 more is accepted, and the
reserved total stays what it was. -/
theorem dust_is_not_counted :
    ReserveSetup twentyDigits (tokenInput "0.000000000000000001")
        "account-2" "reservation-1" (1 / 10 ^ 18) (tokenAccount 100)
        (tokenTables 100) (tokenTables 100) ∧
      ¬ WithinLimit (tokenAccount 100) (1 / 10 ^ 18) ∧
      (∃ res db', reserve twentyDigits (tokenInput "0.000000000000000001")
          "account-2" "reservation-1" (tokenTables 100) = (.ok res, db') ∧
        lookupAccount "account-1" db' = some (tokenAccount 100)) ∧
      ¬ ReservesExactly twentyDigits (tokenInput "0.000000000000000001")
        "account-2" "reservation-1" (1 / 10 ^ 18) (tokenAccount 100)
        (tokenTables 100) := by
  have hread : twentyDigits.toDecimal "0.000000000000000001" =
      some (.finite (1 / 10 ^ 18)) := by decide +kernel
  have hsetup := tokenSetup hread
    (inColumn_of_decimals 1 (by norm_num) (by norm_num))
    (inColumn_of_decimals (10 ^ 20) (by norm_num) (by norm_num) :
      InColumn 100)
  have hhundred : SignificantDigits.round 20 (100 + 0) = 100 := by
    rw [add_zero]
    exact SignificantDigits.round_eq_iff.mpr
      (sumFits_of_hundredths 10000 (by norm_num) (by norm_num)
        (by norm_num)).1
  have hrounded : RoundedWithinLimit (tokenAccount 100) (1 / 10 ^ 18) := by
    simp only [RoundedWithinLimit, tokenAccount, newAccount,
      Option.some.injEq, forall_eq', hhundred, round_dust]
    exact le_refl 100
  have htotal : SignificantDigits.round 20
      ((tokenAccount 100).currentReserved + 1 / 10 ^ 18) = 100 := round_dust
  have hexceeds : ¬ WithinLimit (tokenAccount 100) (1 / 10 ^ 18) := by
    intro hwithin
    have hlimit := hwithin 100 rfl
    norm_num [tokenAccount, newAccount] at hlimit
  have hsucceeds := (hsetup.succeeds_iff twentyDigits_default).mpr
    ⟨hrounded, by rw [htotal]; norm_num⟩
  refine ⟨hsetup, hexceeds, ?_, ?_⟩
  · obtain ⟨res, db', hreserve⟩ := hsucceeds
    have hlookup := (hsetup.result twentyDigits_default hreserve).2.2.2
    rw [htotal] at hlookup
    exact ⟨res, db', hreserve, hlookup⟩
  · intro hexact
    exact hexceeds (hexact.accepts.mp hsucceeds)

end Financial
end Orvex
