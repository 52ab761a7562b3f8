import Orvex.Api.Bindings
import Orvex.Api.Footprints
import Orvex.Financial.Solo

/-!
# The sign of an amount

The contracts accept an amount with a sign, and nothing after them looks at
it: the gate compares two decimals, and the ledger adds one.
-/

namespace Orvex
namespace Api

open Financial (lookupReservation reservedTotal)
open Revalidation (RevalidateInput RevalidationOutcome MintIds revalidate)

/-- `/^-?\d+(\.\d+)?$/u`. -/
def moneyAmount (text : String) : Bool :=
  match text.toList with
  | '-' :: rest => Constitutions.isDecimalText (String.ofList rest)
  | _ => Constitutions.isDecimalText text

def PositiveAmount (rt : Runtime) (text : String) : Prop :=
  ∃ d, rt.toDecimal text = some d ∧ d.gt (.finite 0) = true

/-- The authorised amount is positive, and a call that names a hold raised
the reserved total of the account it is on. -/
structure OnlyPositive (rt : Runtime) (input : RevalidateInput)
    (outcome : RevalidationOutcome) (db db' : Database) : Prop where
  authorised : PositiveAmount rt input.analysis.amount
  raised : ∀ id, outcome.reservationId = some id →
    ∃ res, lookupReservation id db' = some res ∧
      reservedTotal res.financialAccountId db <
        reservedTotal res.financialAccountId db'

/-! ## One call -/

/-- A call that mints names the hold that it reserves. -/
theorem held_of_minted {rt : Runtime} {input : RevalidateInput}
    {policy : Revalidation.PolicyReading} {now : ℤ} {ids : MintIds}
    {mid held db' : Database} {res : FinancialReservation}
    {outcome : RevalidationOutcome}
    (hreserve : Financial.reserve rt (Revalidation.reserveInput input)
      ids.account ids.reservation mid = (.ok res, held))
    (hauthorize : Revalidation.authorize rt input policy now
      ids.executionRequest res.id held = (.ok outcome, db')) :
    outcome.reservationId = some res.id ∧
      lookupReservation res.id db' =
        some (Revalidation.bindTo ids.executionRequest res) ∧
      reservedTotal res.financialAccountId db' =
        reservedTotal res.financialAccountId held := by
  obtain ⟨_, _, rfl, rfl⟩ := Revalidation.authorize_eq_ok hauthorize
  have hlookup : lookupReservation res.id held = some res := by
    obtain ⟨account, opened, _, row, amount, stored, change, hreserved⟩ :=
      Financial.reserve_eq_ok hreserve
    rw [hreserved.state_eq, Financial.lookupReservation_updateAccount,
      Financial.lookupReservation_insertReservation, hreserved.allowed.2,
      if_pos rfl, Option.none_or]
  have hbind : KeyedTable.KeepsKey FinancialReservation.id
      (Revalidation.bindTo ids.executionRequest) := fun _ => rfl
  have hmodify := Financial.lookupReservation_updateReservation held hbind
    res.id res.id
  rw [if_pos rfl, hlookup, Option.map_some] at hmodify
  exact ⟨rfl, hmodify, rfl⟩

theorem positive_of_finite {rt : Runtime} {text : String} {x : ℚ}
    (htext : rt.toDecimal text = some (.finite x)) :
    PositiveAmount rt text ↔ 0 < x := by
  unfold PositiveAmount
  rw [htext]
  simp

theorem only_positive_iff {rt : Runtime} {input : RevalidateInput} {now : ℤ}
    {ids : MintIds} {db db' : Database} {outcome : RevalidationOutcome}
    (hrun : revalidate rt input now ids db = (.ok outcome, db'))
    (hallow : outcome.result = .allow) :
    OnlyPositive rt input outcome db db' ↔
      PositiveAmount rt input.analysis.amount ∧
        ((Revalidation.findExisting rt input db).isSome = true ∨
          Financial.Lifts rt (Revalidation.reserveInput input) db) := by
  obtain ⟨state, _, _, hmint⟩ := Revalidation.mint_of_allow hrun hallow
  obtain ⟨mid, hmid, hend⟩ := Revalidation.mint_eq_ok hmint
  obtain ⟨records, rfl⟩ := hmid
  rcases hend with ⟨existing, hexisting, rfl, rfl⟩ | rfl |
    ⟨hnone, res, held, hreserve, hauthorize⟩
  · have hfound : Revalidation.findExisting rt input db = some existing :=
      hexisting
    rw [hfound]
    constructor
    · exact fun h => ⟨h.authorised, Or.inl rfl⟩
    · exact fun h => ⟨h.1, fun id hid => absurd hid (by
        simp [Revalidation.reused])⟩
  · exact absurd hallow (by simp [Revalidation.budgetExceeded])
  · have hfound : Revalidation.findExisting rt input db = none := hnone
    obtain ⟨hnamed, hlookup, hsame⟩ := held_of_minted hreserve hauthorize
    obtain ⟨row, x, reserved, opened, hlocks⟩ :=
      Financial.reserve_locks hreserve
    obtain ⟨hbefore, hafter⟩ := hlocks.reservedTotals
    -- the record of the idempotency key is not read
    have hbefore : reservedTotal res.financialAccountId db =
        Financial.chargedTotal
          (Revalidation.reserveInput input).toAccountKey db := hbefore
    rw [hafter] at hsame
    rw [hfound]
    constructor
    · intro h
      obtain ⟨found, hres, hlt⟩ := h.raised res.id hnamed
      obtain rfl : found = _ := Option.some.inj (hres.symm.trans hlookup)
      have hlt : reservedTotal res.financialAccountId db <
          reservedTotal res.financialAccountId db' := hlt
      rw [hbefore, hsame] at hlt
      exact ⟨h.authorised,
        Or.inr ⟨x, reserved, hlocks.amount, hlocks.stored, hlt⟩⟩
    · intro h
      have hlifts : Financial.Lifts rt (Revalidation.reserveInput input)
          db := by simpa using h.2
      obtain ⟨y, stored, hy, hstored, hlt⟩ := hlifts
      obtain rfl : y = x := by
        simpa using hy.symm.trans hlocks.amount
      obtain rfl : stored = reserved :=
        Option.some.inj (hstored.symm.trans hlocks.stored)
      refine ⟨h.1, fun id hid => ?_⟩
      obtain rfl : res.id = id := Option.some.inj (hnamed.symm.trans hid)
      refine ⟨_, hlookup, ?_⟩
      change reservedTotal res.financialAccountId db <
        reservedTotal res.financialAccountId db'
      rw [hbefore, hsame]
      exact hlt

/-! ## Runs of prepare calls -/

/-- A call of the prepare route whose amount is not negative, and whose sum
with the reserved total loses nothing. -/
def PreparesNonnegative (rt : Runtime) (call : Call) (db : Database) :
    Prop :=
  ∃ body ids, call.operation = .prepare body ids ∧
    (∀ x, rt.toDecimal body.amount = some (.finite x) → 0 ≤ x) ∧
    Financial.ReserveSums rt
      (Revalidation.reserveInput (revalidateInput call.auth body)) db

section

variable {rt : Runtime} {input : RevalidateInput} {id : String} {bound : ℚ}

/-- The reserved total has not fallen. -/
abbrev AtLeast (id : String) (bound : ℚ) (db : Database) : Prop :=
  bound ≤ reservedTotal id db

/-- Nothing was charged yet. -/
abbrev Uncharged (rt : Runtime) (input : RevalidateInput) (id : String)
    (bound : ℚ) (db : Database) : Prop :=
  AtLeast id bound db ∧
    Financial.ReserveSums rt (Revalidation.reserveInput input) db

theorem brings_reserve (accountUuid uuid : String)
    (hamount : ∀ x, rt.toDecimal input.amount = some (.finite x) → 0 ≤ x) :
    Fallible.Brings (Uncharged rt input id bound) (AtLeast id bound)
      (Financial.reserve rt (Revalidation.reserveInput input) accountUuid
        uuid) := by
  intro db hdb
  obtain ⟨hbound, hsums⟩ := hdb
  rcases Financial.reserve_cases hsums accountUuid uuid with hopened |
    ⟨res, hraises⟩
  · have hsame := hopened.reservedTotal id
    exact hbound.trans hsame.ge
  · have hraised := hraises.reservedTotal id
    have hnonneg : 0 ≤ res.amount := hamount _ hraises.amount
    refine hbound.trans ?_
    rw [hraised]
    split
    · linarith
    · linarith

theorem keeps_authorize (policy : Revalidation.PolicyReading) (now : ℤ)
    (uuid reservationId : String) :
    Fallible.Keeps (AtLeast id bound)
      (Revalidation.authorize rt input policy now uuid reservationId) := by
  refine Fallible.Keeps.bind (Table.keeps_create (fun _ hdb _ => hdb))
    (fun request => ?_)
  refine Fallible.Keeps.bind (Table.keeps_update (fun _ hdb => hdb))
    (fun _ => Fallible.keeps_pure _)

theorem brings_revalidate (now : ℤ) (ids : MintIds)
    (hamount : ∀ x, rt.toDecimal input.amount = some (.finite x) → 0 ≤ x) :
    Fallible.Brings (Uncharged rt input id bound) (AtLeast id bound)
      (revalidate rt input now ids) := by
  have hweak : ∀ db, Uncharged rt input id bound db → AtLeast id bound db :=
    fun _ h => h.1
  apply Revalidation.brings_revalidate hweak
  intro policy
  apply Revalidation.brings_mint hweak
  · exact Idempotency.keeps_register (fun _ _ hdb => hdb) rt _ _
  · exact brings_reserve ids.account ids.reservation hamount
  · exact keeps_authorize policy now _

end

theorem prepare_atLeast {rt : Runtime} {call : Call} {id : String}
    {bound : ℚ} {db : Database} (hcall : PreparesNonnegative rt call db)
    (hbound : AtLeast id bound db) : AtLeast id bound (call.step rt db) := by
  obtain ⟨body, ids, hoperation, hamount, hsums⟩ := hcall
  have hbrings : Fallible.Brings
      (Uncharged rt (revalidateInput call.auth body) id bound)
      (AtLeast id bound) (postPrepare rt call.auth body call.now ids) :=
    brings_postPrepare (fun _ h => h.1)
      (brings_revalidate call.now ids hamount)
  have hstep : call.step rt db =
      (postPrepare rt call.auth body call.now ids db).2 := by
    simp only [Call.step, Call.perform, hoperation, discard_state]
  rw [hstep]
  exact hbrings db ⟨hbound, hsums⟩

/-- Prepare calls without negative amounts never lower a reserved total. -/
theorem prepares_reservedTotal_le {rt : Runtime} {calls : List Call}
    {db : Database}
    (hcalls : Along (fun db call => call.step rt db)
      (PreparesNonnegative rt) calls db) (id : String) :
    reservedTotal id db ≤ reservedTotal id (run rt calls db) := by
  have hstep : ∀ call s, PreparesNonnegative rt call s →
      AtLeast id (reservedTotal id db) s →
        AtLeast id (reservedTotal id db) (call.step rt s) :=
    fun _ _ => prepare_atLeast
  exact hcalls.induction hstep (le_refl _)

theorem run_append (rt : Runtime) (before later : List Call)
    (db : Database) :
    run rt (before ++ later) db = run rt later (run rt before db) :=
  List.foldl_append

/-- An ALLOW authorises a positive amount and lifts the reserved total that
it charges exactly when the amount of its analysis is positive and, unless
its payload was authorised before, the sum that is stored is above the
total: where the sum loses nothing, when its amount is positive.  Prepare
calls without negative amounts, whose sums lose nothing, never lower a
reserved total. -/
theorem positive_amounts_iff (rt : Runtime) :
    (∀ (input : RevalidateInput) (now : ℤ) (ids : MintIds)
      (db db' : Database) (outcome : RevalidationOutcome),
      revalidate rt input now ids db = (.ok outcome, db') →
      outcome.result = .allow →
      (OnlyPositive rt input outcome db db' ↔
        PositiveAmount rt input.analysis.amount ∧
          ((Revalidation.findExisting rt input db).isSome = true ∨
            Financial.Lifts rt (Revalidation.reserveInput input) db))) ∧
    (∀ (input : RevalidateInput) (db : Database),
      Financial.ReserveSums rt (Revalidation.reserveInput input) db →
      (Financial.Lifts rt (Revalidation.reserveInput input) db ↔
        ∃ x, rt.toDecimal input.amount = some (.finite x) ∧ 0 < x)) ∧
    ∀ (before later : List Call) (db : Database) (id : String),
      Along (fun db call => call.step rt db) (PreparesNonnegative rt)
        (before ++ later) db →
      reservedTotal id (run rt before db) ≤
          reservedTotal id (run rt (before ++ later) db) ∧
        (0 ≤ reservedTotal id db →
          0 ≤ reservedTotal id (run rt (before ++ later) db)) := by
  refine ⟨?_, ?_, ?_⟩
  · intro input now ids db db' outcome hrun hallow
    exact only_positive_iff hrun hallow
  · intro input db hsums
    exact Financial.lifts_iff_of_sums hsums
  · intro before later db id hcalls
    constructor
    · rw [run_append]
      exact prepares_reservedTotal_le (Along.append.mp hcalls).2 id
    · intro hnonneg
      exact hnonneg.trans (prepares_reservedTotal_le hcalls id)

/-- The body of a prepare call for an input. -/
def prepareBody (input : RevalidateInput) : PrepareBody where
  agentId := input.agentId
  decisionId := input.decisionId
  intent := input.intent
  proposal := input.proposal
  securityAssessment := input.securityAssessment
  transactionId := input.transactionId
  analysis := input.analysis
  expectedNetwork := input.expectedNetwork
  actualNetwork := input.actualNetwork
  simulation := input.simulation
  simulatedPayloadHash := input.simulatedPayloadHash
  approvalId := input.approvalId
  decisionContextHash := input.decisionContextHash
  financialScopeKey := input.financialScopeKey
  asset := input.asset
  amount := input.amount
  assessmentMaxAgeMs := input.assessmentMaxAgeMs
  requireSimulation := input.simulationRequired

def samplePrepare : Call :=
  ⟨sampleAuth, Revalidation.sampleNow,
    .prepare (prepareBody Revalidation.samplePayment) Revalidation.sampleIds⟩

theorem sample_amounts_positive :
    (∃ outcome db',
      revalidate .reference Revalidation.samplePayment Revalidation.sampleNow
        Revalidation.sampleIds (Revalidation.sampleDatabase []) =
          (.ok outcome, db') ∧
      OnlyPositive .reference Revalidation.samplePayment outcome
        (Revalidation.sampleDatabase []) db') ∧
    0 ≤ reservedTotal "account-1"
      (run .reference [samplePrepare, samplePrepare]
        (Revalidation.sampleDatabase [])) := by
  obtain ⟨hcall, hlifts, hruns⟩ := positive_amounts_iff .reference
  have hten : Runtime.reference.toDecimal "10" = some (.finite 10) := by
    decide
  have hpositive : PositiveAmount .reference "10" :=
    (positive_of_finite hten).mpr (by norm_num)
  have hsums : ∀ input db, Financial.ReserveSums .reference
      (Revalidation.reserveInput input) db := fun input db =>
    Financial.reserveSums_of_exact Runtime.reference_exact _ db
  constructor
  · obtain ⟨outcome, db', hrun, hallow⟩ := sample_payment_allowed
    refine ⟨outcome, db', hrun, (hcall _ _ _ _ _ _ hrun hallow).mpr
      ⟨hpositive, Or.inr ?_⟩⟩
    exact (hlifts _ _ (hsums _ _)).mpr ⟨10, hten, by norm_num⟩
  · have hprepare : ∀ db, PreparesNonnegative .reference samplePrepare db := by
      intro db
      refine ⟨_, _, rfl, ?_, hsums _ db⟩
      intro x hx
      have hsame : Runtime.reference.toDecimal "10" = some (.finite x) := hx
      rw [hten, Option.some.injEq, Decimal.finite.injEq] at hsame
      rw [← hsame]
      norm_num
    exact (hruns [samplePrepare] [samplePrepare] _ "account-1"
      ⟨hprepare _, hprepare _, trivial⟩).2 (le_refl _)

/-- A payment of -10. -/
def negativePayment : RevalidateInput :=
  Revalidation.simulated .reference
    { Revalidation.sampleInput with
      proposal := { Revalidation.sampleProposal with
        amount := some ⟨"-10", "USDC"⟩ }
      analysis := { Revalidation.sampleAnalysis with amount := "-10" }
      amount := "-10" }

theorem reservedTotal_sample (rules : List CompiledRule) (id : String) :
    reservedTotal id (Revalidation.sampleDatabase rules) = 0 := by
  unfold reservedTotal
  cases hlookup : Financial.lookupAccount id
      (Revalidation.sampleDatabase rules) with
  | none => rfl
  | some account =>
      have hmem := KeyedTable.mem_of_lookup hlookup
      rw [List.mem_singleton.mp hmem]
      rfl

theorem negative_amount_authorized :
    moneyAmount "-10" = true ∧
    ∃ outcome db',
      revalidate .reference negativePayment Revalidation.sampleNow
        Revalidation.sampleIds (Revalidation.sampleDatabase []) =
          (.ok outcome, db') ∧
      outcome.result = .allow ∧
      ¬ OnlyPositive .reference negativePayment outcome
        (Revalidation.sampleDatabase []) db' ∧
      ∃ id, reservedTotal id (Revalidation.sampleDatabase []) = 0 ∧
        reservedTotal id db' < 0 := by
  have hplain : Revalidation.Plain .reference negativePayment
      Revalidation.sampleNow :=
    ⟨by decide, by decide, ⟨rfl, rfl⟩, rfl, rfl, rfl, rfl,
      rfl⟩
  have hready : (Revalidation.resolve .reference negativePayment
      Revalidation.sampleNow (Revalidation.sampleDatabase
        [])).toOption.map Revalidation.Resolved.ready = some true := by
    decide
  have hamount : Reference.decimal? negativePayment.amount =
      some (-10) := by
    decide
  obtain ⟨state, db', _, _, hrun⟩ :=
    Revalidation.minted_of_plain hplain hready
      (Revalidation.sample_mint ⟨rfl, rfl, rfl, rfl, rfl⟩ ⟨rfl, rfl, rfl⟩
        hamount (by norm_num))
  have hnegative : Runtime.reference.toDecimal "-10" =
      some (.finite (-10)) := by
    decide
  refine ⟨by decide, _, db', hrun, rfl, ?_, ?_⟩
  · intro hpositive
    have hauthorised : PositiveAmount .reference "-10" :=
      hpositive.authorised
    rw [positive_of_finite hnegative] at hauthorised
    exact absurd hauthorised (by norm_num)
  · obtain ⟨state', _, _, hmint⟩ := Revalidation.mint_of_allow hrun rfl
    obtain ⟨mid, ⟨records, rfl⟩, hend⟩ := Revalidation.mint_eq_ok hmint
    rcases hend with ⟨existing, _, houtcome, _⟩ | houtcome |
      ⟨_, res, held, hreserve, hauthorize⟩
    · exact absurd houtcome (by
        simp [Revalidation.minted, Revalidation.reused])
    · exact absurd houtcome (by
        simp [Revalidation.minted, Revalidation.budgetExceeded])
    · obtain ⟨_, _, hsame⟩ := held_of_minted hreserve hauthorize
      have hraises := Financial.reserve_raises
        (Financial.reserveSums_of_exact Runtime.reference_exact _ _) hreserve
      have hheld : Runtime.reference.toDecimal "-10" =
          some (.finite res.amount) := hraises.amount
      rw [hnegative, Option.some.injEq, Decimal.finite.injEq] at hheld
      refine ⟨res.financialAccountId, reservedTotal_sample [] _, ?_⟩
      rw [hsame, hraises.reservedTotal, if_pos rfl, ← hheld]
      change reservedTotal res.financialAccountId
        (Revalidation.sampleDatabase []) + -10 < 0
      rw [reservedTotal_sample]
      norm_num

end Api
end Orvex
