import Orvex.Gate.Soundness

/-!
# The request that is minted and the budget that is held

A call that mints writes an idempotency record, a reservation on one account
and the request, and binds the reservation to the request.  What the
reservation holds comes from other fields of the input than what the gate
compared.
-/

namespace Orvex
namespace Revalidation

open Financial (lookupAccount lookupReservation)

/-- What a call that mints wrote, from the state after the registration. -/
structure Mints (rt : Runtime) (input : RevalidateInput)
    (policy : PolicyReading) (now : ℤ) (ids : MintIds)
    (account : FinancialAccount) (res : FinancialReservation)
    (outcome : RevalidationOutcome) (mid ensured held db' : Database) :
    Prop where
  no_request : findExisting rt input mid = none
  account_ensured : Financial.ensureAccount rt
    (reserveInput input).toAccountKey none ids.account mid =
      (.ok account, ensured)
  budget_reserved : ∃ row amount stored change,
    Financial.Reserved rt (reserveInput input) ids.reservation account row
      amount stored change res ensured held
  outcome_eq : outcome =
    minted (newRequest rt input policy now ids.executionRequest) res.id
  state_eq : db' = reservationTable.modify res.id
    (bindTo ids.executionRequest)
    (executionRequestTable.insert
      (newRequest rt input policy now ids.executionRequest) held)

theorem mints_of_allow {rt : Runtime} {input : RevalidateInput} {now : ℤ}
    {ids : MintIds} {db db' : Database} {outcome : RevalidationOutcome}
    (hrun : revalidate rt input now ids db = (.ok outcome, db'))
    (hallow : outcome.result = .allow)
    (hfresh : outcome.determinant = "allow") :
    ∃ state mid account res ensured held,
      resolve rt input now db = .ok state ∧
        DecisionEngine.Cleared (decisionInput rt input state now db) ∧
        Registered db mid ∧
        Mints rt input state.policy now ids account res outcome mid ensured
          held db' := by
  obtain ⟨state, hresolve, hcleared, hmint⟩ := mint_of_allow hrun hallow
  obtain ⟨mid, hmid, hend⟩ := mint_eq_ok hmint
  rcases hend with ⟨existing, _, rfl, _⟩ | rfl |
    ⟨hnone, res, held, hreserve, hauthorize⟩
  · exact absurd hfresh (by simp [reused])
  · exact absurd hfresh (by simp [budgetExceeded])
  · obtain ⟨account, ensured, hensure, hreserved⟩ :=
      Financial.reserve_eq_ok hreserve
    obtain ⟨_, _, houtcome, hstate⟩ := authorize_eq_ok hauthorize
    exact ⟨state, mid, account, res, ensured, held, hresolve, hcleared, hmid,
      { no_request := hnone
        account_ensured := hensure
        budget_reserved := hreserved
        outcome_eq := houtcome
        state_eq := hstate }⟩

/-! ## The hold in the final state -/

/-- The rows that a call that mints leaves behind. -/
structure Held (rt : Runtime) (input : RevalidateInput) (ids : MintIds)
    (outcome : RevalidationOutcome) (db' : Database)
    (res : FinancialReservation) (row : FinancialAccount)
    (amount : Decimal) (stored : ℚ)
    (change : FinancialAccount → FinancialAccount) : Prop where
  named : outcome.reservationId = some res.id
  amount_read : rt.toDecimal input.amount = some amount
  amount_stored : rt.storeText input.amount = some stored
  row_change : Financial.reserveChange rt row amount = some change
  reservation : lookupReservation res.id db' =
    some (bindTo ids.executionRequest res)
  account : lookupAccount res.financialAccountId db' = some (change row)
  res_amount : res.amount = stored
  res_asset : res.asset = input.asset
  res_company : res.companyId = input.companyId
  bucket : (reserveInput input).toAccountKey.Matches (change row)

theorem held_of_mints {rt : Runtime} {input : RevalidateInput}
    {policy : PolicyReading} {now : ℤ} {ids : MintIds}
    {account : FinancialAccount} {res : FinancialReservation}
    {outcome : RevalidationOutcome} {mid ensured held db' : Database}
    (hkeys : KeyedTable.UniqueKeys FinancialAccount.id mid.financialAccounts)
    (h : Mints rt input policy now ids account res outcome mid ensured held
      db') :
    ∃ row amount stored change,
      Held rt input ids outcome db' res row amount stored change := by
  obtain ⟨row, amount, stored, change, hreserved⟩ := h.budget_reserved
  obtain ⟨hmatches, hensured⟩ :=
    Financial.ensureAccount_lookup hkeys h.account_ensured
  have hrow : row = account :=
    Option.some.inj (hreserved.row_found.symm.trans hensured)
  have htotals := Financial.totalsOnly_reserveChange hreserved.row_change
  have hstate := h.state_eq
  rw [hreserved.state_eq] at hstate
  have haccount : res.financialAccountId = account.id := by
    rw [hreserved.res_eq]
    rfl
  refine ⟨row, amount, stored, change, ?_⟩
  exact
    { named := by
        rw [h.outcome_eq]
        rfl
      amount_read := hreserved.amount_read
      amount_stored := hreserved.amount_stored
      row_change := hreserved.row_change
      reservation := by
        have hbind : KeyedTable.KeepsKey FinancialReservation.id
            (bindTo ids.executionRequest) := fun _ => rfl
        rw [hstate]
        change KeyedTable.lookup FinancialReservation.id res.id
          (KeyedTable.modify FinancialReservation.id res.id
            (bindTo ids.executionRequest)
            (ensured.financialReservations ++ [res])) = _
        have hnew : KeyedTable.lookup FinancialReservation.id res.id
          ensured.financialReservations = none := hreserved.allowed.2
        rw [KeyedTable.lookup_modify hbind, if_pos rfl,
          KeyedTable.lookup_append_singleton, hnew, if_pos rfl,
          Option.none_or, Option.map_some]
      account := by
        rw [hstate, haccount]
        change lookupAccount account.id (Financial.updateAccount account.id
          change ensured) = _
        rw [Financial.lookupAccount_updateAccount ensured htotals.keepsKey,
          if_pos rfl, hensured, Option.map_some, hrow]
      res_amount := by
        rw [hreserved.res_eq]
        rfl
      res_asset := by
        rw [hreserved.res_eq]
        rfl
      res_company := by
        rw [hreserved.res_eq]
        rfl
      bucket := by
        rw [hrow, htotals account]
        exact hmatches }

/-- The hold that a fresh ALLOW names. -/
theorem held_of_allow {rt : Runtime} {input : RevalidateInput} {now : ℤ}
    {ids : MintIds} {db db' : Database} {outcome : RevalidationOutcome}
    (hkeys : KeyedTable.UniqueKeys FinancialAccount.id db.financialAccounts)
    (hrun : revalidate rt input now ids db = (.ok outcome, db'))
    (hallow : outcome.result = .allow)
    (hfresh : outcome.determinant = "allow") :
    ∃ res row amount stored change,
      Held rt input ids outcome db' res row amount stored change := by
  obtain ⟨state, mid, account, res, ensured, held, _, _, hmid, hmints⟩ :=
    mints_of_allow hrun hallow hfresh
  have hmidKeys : KeyedTable.UniqueKeys FinancialAccount.id
      mid.financialAccounts := by
    obtain ⟨records, hmid⟩ := hmid
    rw [hmid]
    exact hkeys
  exact ⟨res, held_of_mints hmidKeys hmints⟩

/-! ## The hold matches the payment -/

/-- The hold is for the amount and the asset that will be paid, on the
account of the agent. -/
def HoldMatches (rt : Runtime) (input : RevalidateInput)
    (outcome : RevalidationOutcome) (db' : Database) : Prop :=
  ∃ id res account x, outcome.reservationId = some id ∧
    lookupReservation id db' = some res ∧
    rt.toDecimal input.analysis.amount = some (.finite x) ∧
    res.amount = x ∧ res.asset = input.analysis.asset ∧
    lookupAccount res.financialAccountId db' = some account ∧
    account.companyId = input.companyId ∧ account.scope = .agent ∧
    account.scopeKey = input.agentId ∧
    account.network = some input.actualNetwork

/-- A hold matches the payment exactly when the caller asked for the budget
of the agent with the amount and the asset of the analysis. -/
theorem hold_matches_iff {rt : Runtime} {input : RevalidateInput} {now : ℤ}
    {ids : MintIds} {db db' : Database} {outcome : RevalidationOutcome}
    (hkeys : KeyedTable.UniqueKeys FinancialAccount.id db.financialAccounts)
    (hrun : revalidate rt input now ids db = (.ok outcome, db'))
    (hallow : outcome.result = .allow)
    (hfresh : outcome.determinant = "allow") :
    HoldMatches rt input outcome db' ↔
      (∃ x, rt.toDecimal input.analysis.amount = some (.finite x) ∧
        rt.storeText input.amount = some x) ∧
      input.asset = input.analysis.asset ∧
      input.financialScopeKey = input.agentId := by
  obtain ⟨res, row, amount, stored, change, hheld⟩ :=
    held_of_allow hkeys hrun hallow hfresh
  obtain ⟨hcompany, hscope, hscopeKey, hasset, hnetwork⟩ := hheld.bucket
  constructor
  · rintro ⟨id, found, account, x, hid, hlookup, hpaid, hamount, hpaidAsset,
      haccount, _, _, hkey, _⟩
    have hname : id = res.id := Option.some.inj (hid.symm.trans hheld.named)
    subst hname
    have hfound : found = bindTo ids.executionRequest res :=
      Option.some.inj (hlookup.symm.trans hheld.reservation)
    subst hfound
    have hrow : account = change row :=
      Option.some.inj (haccount.symm.trans hheld.account)
    have hstored : stored = x := hheld.res_amount.symm.trans hamount
    refine ⟨⟨x, hpaid, hstored ▸ hheld.amount_stored⟩, ?_, ?_⟩
    · exact hheld.res_asset.symm.trans hpaidAsset
    · rw [hrow, hscopeKey] at hkey
      exact hkey
  · rintro ⟨⟨x, hpaid, hstored⟩, hpaidAsset, hkey⟩
    have hamount : stored = x :=
      Option.some.inj (hheld.amount_stored.symm.trans hstored)
    refine ⟨res.id, bindTo ids.executionRequest res, change row, x,
      hheld.named, hheld.reservation, hpaid, ?_, ?_, hheld.account, hcompany,
      hscope, ?_, hnetwork⟩
    · exact hheld.res_amount.trans hamount
    · exact hheld.res_asset.trans hpaidAsset
    · exact hscopeKey.trans hkey

theorem sample_hold_matches :
    ∃ outcome db',
      revalidate .reference samplePayment sampleNow sampleIds
        (sampleDatabase []) = (.ok outcome, db') ∧
      HoldMatches .reference samplePayment outcome db' := by
  have hamount : Reference.decimal? samplePayment.amount = some 10 := by
    decide
  obtain ⟨state, db', _, _, hrun⟩ :=
    minted_of_plain sample_plain sample_ready
      (sample_mint ⟨rfl, rfl, rfl, rfl, rfl⟩ ⟨rfl, rfl, rfl⟩ hamount
        (by norm_num))
  have hstored : Runtime.reference.storeText samplePayment.amount =
      some 10 := by
    decide
  have hpaid : Runtime.reference.toDecimal samplePayment.analysis.amount =
      some (.finite 10) := by
    decide
  exact ⟨_, db', hrun, (hold_matches_iff (by decide) hrun rfl
    rfl).mpr ⟨⟨10, hpaid, hstored⟩, rfl, rfl⟩⟩

/-- The payment of 10 with a hold of 1. -/
def cheapPayment : RevalidateInput := { samplePayment with amount := "1" }

theorem cheap_hold_mismatch :
    ∃ outcome db',
      revalidate .reference cheapPayment sampleNow sampleIds
        (sampleDatabase []) = (.ok outcome, db') ∧
      outcome.result = .allow ∧ outcome.determinant = "allow" ∧
        ¬ HoldMatches .reference cheapPayment outcome db' := by
  have hplain : Plain .reference cheapPayment sampleNow :=
    ⟨sample_plain.intent, sample_plain.gate, ⟨rfl, rfl⟩, rfl, rfl, rfl, rfl,
      rfl⟩
  have hready : (resolve .reference cheapPayment sampleNow
      (sampleDatabase [])).toOption.map Resolved.ready = some true := by
    decide
  have hheldAmount : Reference.decimal? cheapPayment.amount = some 1 := by
    decide
  obtain ⟨state, db', _, _, hrun⟩ :=
    minted_of_plain hplain hready
      (sample_mint ⟨rfl, rfl, rfl, rfl, rfl⟩ ⟨rfl, rfl, rfl⟩ hheldAmount
        (by norm_num))
  refine ⟨_, db', hrun, rfl, rfl, ?_⟩
  intro hmatches
  obtain ⟨res, row, amount, stored, change, hheld⟩ :=
    held_of_allow (by decide) hrun rfl rfl
  obtain ⟨id, found, account, x, hid, hlookup, hpaid, hamount, _⟩ := hmatches
  have hname : id = res.id := Option.some.inj (hid.symm.trans hheld.named)
  rw [hname, hheld.reservation, Option.some.injEq] at hlookup
  have hstored : Runtime.reference.storeText cheapPayment.amount =
      some 1 := by
    decide
  have hten : Runtime.reference.toDecimal cheapPayment.analysis.amount =
      some (.finite 10) := by
    decide
  have hone : stored = 1 :=
    Option.some.inj (hheld.amount_stored.symm.trans hstored)
  rw [hten, Option.some.injEq, Decimal.finite.injEq] at hpaid
  rw [← hlookup] at hamount
  have heq : (1 : ℚ) = 10 := by
    rw [← hone, hpaid, ← hamount]
    exact hheld.res_amount.symm
  exact absurd heq (by norm_num)

end Revalidation
end Orvex
