import Orvex.Core.Reference
import Orvex.Financial.Sessions
import Orvex.Financial.Totals

/-!
# Conservation of the ledger under concurrent calls

A completion checks the status of its reservation before it locks the
account, and `markUnknown` locks nothing.  An effect is stale when another
call has completed the reservation in between.  Without stale effects every
schedule conserves the ledger and completes each reservation once; with
positive amounts a single stale effect breaks the totals for good.
-/

namespace Orvex
namespace Financial

open ReadCommitted

/-! ## Conserved means without drift -/

theorem held_eq_zero {db : Database} (hdb : WellFormed db) {id : String}
    (hnone : lookupAccount id db = none) : held id db = 0 := by
  apply List.sum_eq_zero
  intro x hx
  obtain ⟨res, hmem, rfl⟩ := List.mem_map.mp hx
  have hne : res.financialAccountId ≠ id := by
    intro heq
    exact hdb.foreignKey res hmem (by rw [heq, hnone])
  simp [heldBy, hne]

theorem spent_eq_zero {db : Database} (hdb : WellFormed db) {id : String}
    (hnone : lookupAccount id db = none) : spent id db = 0 := by
  apply List.sum_eq_zero
  intro x hx
  obtain ⟨res, hmem, rfl⟩ := List.mem_map.mp hx
  have hne : res.financialAccountId ≠ id := by
    intro heq
    exact hdb.foreignKey res hmem (by rw [heq, hnone])
  simp [spentBy, hne]

theorem conserved_iff_drift {db : Database} (hdb : WellFormed db) :
    Conserved db ↔
      ∀ id, reservedDrift id db = 0 ∧ committedDrift id db = 0 := by
  constructor
  · intro hconserved id
    unfold reservedDrift committedDrift reservedTotal committedTotal
    cases hlookup : lookupAccount id db with
    | none =>
        simp [held_eq_zero hdb hlookup, spent_eq_zero hdb hlookup]
    | some account =>
        have hid : account.id = id := KeyedTable.key_of_lookup hlookup
        have hsame := hconserved account (KeyedTable.mem_of_lookup hlookup)
        rw [hid] at hsame
        simp [hsame.1, hsame.2]
  · intro hdrift account hmem
    have hlookup : lookupAccount account.id db = some account :=
      KeyedTable.lookup_of_mem hdb.accounts hmem
    have hzero := hdrift account.id
    simp only [reservedDrift, committedDrift, reservedTotal, committedTotal,
      hlookup, Option.map_some, Option.getD_some, sub_eq_zero] at hzero
    exact hzero

/-! ## Runs of effects -/

/-- The reservations that the effects complete, once for each completion. -/
def credits (trace : List (Database × Effect)) : List String :=
  trace.flatMap (fun step =>
    match step.2 with
    | .completed _ res => [res.id]
    | _ => [])

@[simp] theorem credits_append (trace trace' : List (Database × Effect)) :
    credits (trace ++ trace') = credits trace ++ credits trace' := by
  simp [credits]

theorem mem_credits {past : List (Database × Effect)} {id : String} :
    id ∈ credits past ↔
      ∃ step ∈ past, ∃ kind res, step.2 = .completed kind res ∧
        res.id = id := by
  simp only [credits, List.mem_flatMap]
  constructor
  · rintro ⟨step, hmem, hid⟩
    refine ⟨step, hmem, ?_⟩
    split at hid
    next kind res heffect =>
      exact ⟨kind, res, heffect, (List.mem_singleton.mp hid).symm⟩
    next => simp at hid
  · rintro ⟨step, hmem, kind, res, heffect, hid⟩
    exact ⟨step, hmem, by simp [heffect, hid]⟩

/-- No effect of the run found its reservation closed. -/
def AllFresh (trace : List (Database × Effect)) : Prop :=
  ∀ step ∈ trace, step.2.Fresh step.1

theorem AllFresh.init {trace : List (Database × Effect)}
    {step : Database × Effect} (hfresh : AllFresh (trace ++ [step])) :
    AllFresh trace ∧ step.2.Fresh step.1 := by
  constructor
  · intro other hmem
    exact hfresh other (List.mem_append_left _ hmem)
  · exact hfresh step (by simp)

theorem closedAmount_of_open {id : String} {res : FinancialReservation}
    {db : Database}
    (hopen : ∃ current, lookupReservation res.id db = some current ∧
      Open current.status) : closedAmount id res db = 0 := by
  obtain ⟨current, hlookup, hstatus⟩ := hopen
  simp [closedAmount, hlookup, hstatus]

theorem Effect.Fresh.staleAmount {effect : Effect} {db : Database}
    (hfresh : effect.Fresh db) (id : String) :
    effect.staleAmount id db = 0 := by
  cases effect with
  | completed kind res => exact closedAmount_of_open hfresh
  | marked res => exact closedAmount_of_open hfresh
  | _ => rfl

theorem AtomicRun.drift_of_fresh {rt : Runtime} (hexact : rt.Exact)
    {trace : List (Database × Effect)} {db db' : Database}
    (hdb : WellFormed db) (hrun : AtomicRun rt trace db db')
    (hfresh : AllFresh trace) (id : String) :
    reservedDrift id db' = reservedDrift id db ∧
      committedDrift id db' = committedDrift id db := by
  induction hrun with
  | refl db => exact ⟨rfl, rfl⟩
  | tail hrun hstep ih =>
      obtain ⟨hpast, hlast⟩ := hfresh.init
      obtain ⟨hreserved, hcommitted⟩ := ih hdb hpast
      have hmid := hrun.wellFormed hdb
      rw [hstep.reservedDrift hexact hmid, hlast.staleAmount, sub_zero,
        hstep.committedDrift hexact hmid hlast]
      exact ⟨hreserved, hcommitted⟩

/-- The reservation is in the tables and no longer open. -/
def Closed (id : String) (db : Database) : Prop :=
  ∃ current, lookupReservation id db = some current ∧
    ¬ Open current.status

theorem closed_updateReservation {db : Database} {rid id : String}
    {change : FinancialReservation → FinancialReservation}
    (hkeep : KeyedTable.KeepsKey FinancialReservation.id change)
    (hclosed : Closed id db) (hne : id ≠ rid) :
    Closed id (updateReservation rid change db) := by
  obtain ⟨current, hlookup, hstatus⟩ := hclosed
  refine ⟨current, ?_, hstatus⟩
  rw [lookupReservation_updateReservation db hkeep, if_neg hne, hlookup]

/-- A fresh effect keeps a closed reservation closed, and closes none that
is closed already. -/
theorem Atomic.closed {rt : Runtime} {effect : Effect} {db db' : Database}
    (hstep : Atomic rt effect db db') (hfresh : effect.Fresh db)
    {id : String} (hclosed : Closed id db) :
    Closed id db' ∧ id ∉ credits [(db, effect)] := by
  have hne : ∀ {res : FinancialReservation},
      (∃ current, lookupReservation res.id db = some current ∧
        Open current.status) → id ≠ res.id := by
    rintro res ⟨current, hlookup, hopen⟩ rfl
    obtain ⟨current', hlookup', hstatus⟩ := hclosed
    obtain rfl : current = current' :=
      Option.some.inj (hlookup.symm.trans hlookup')
    exact hstatus hopen
  cases hstep with
  | opened _ _ _ => exact ⟨hclosed, by simp [credits]⟩
  | reserved _ _ _ _ =>
      obtain ⟨current, hlookup, hstatus⟩ := hclosed
      refine ⟨⟨current, ?_, hstatus⟩, by simp [credits]⟩
      rw [lookupReservation_updateAccount,
        lookupReservation_insertReservation, hlookup]
      rfl
  | completed _ _ _ _ =>
      refine ⟨closed_updateReservation (sameHold_settle _ _).keepsKey hclosed
        (hne hfresh), ?_⟩
      simpa [credits] using hne hfresh
  | marked _ =>
      exact ⟨closed_updateReservation sameHold_setUnknown.keepsKey hclosed
        (hne hfresh), by simp [credits]⟩

theorem Atomic.closed_of_credit {rt : Runtime} {effect : Effect}
    {db db' : Database} (hstep : Atomic rt effect db db') {id : String}
    (hcredit : id ∈ credits [(db, effect)]) : Closed id db' := by
  cases hstep with
  | @completed _ kind row res change now _ _ hrecorded _ =>
      simp only [credits, List.flatMap_cons, List.flatMap_nil,
        List.append_nil, List.mem_singleton] at hcredit
      obtain ⟨current, hlookup, _⟩ := hrecorded
      subst hcredit
      refine ⟨kind.settle now current, ?_, ?_⟩
      · rw [lookupReservation_updateReservation _ (sameHold_settle _ _).keepsKey,
          if_pos rfl, lookupReservation_updateAccount, hlookup]
        rfl
      · rw [settle_status]
        exact Completion.not_open_final _
  | _ => simp [credits] at hcredit

/-- In a run without stale effects each reservation is completed once. -/
theorem AtomicRun.credits_nodup {rt : Runtime}
    {trace : List (Database × Effect)} {db db' : Database}
    (hrun : AtomicRun rt trace db db') (hfresh : AllFresh trace) :
    (credits trace).Nodup ∧ ∀ id ∈ credits trace, Closed id db' := by
  induction hrun with
  | refl db => simp [credits]
  | @tail trace effect db db' db'' hrun hstep ih =>
      obtain ⟨hpast, hlast⟩ := hfresh.init
      obtain ⟨hnodup, hclosed⟩ := ih hpast
      rw [credits_append]
      constructor
      · rw [List.nodup_append]
        refine ⟨hnodup, ?_, ?_⟩
        · cases effect <;> simp [credits]
        · intro id hid id' hid' heq
          subst heq
          exact (hstep.closed hlast (hclosed id hid)).2 hid'
      · intro id hid
        rcases List.mem_append.mp hid with hold | hnew
        · exact (hstep.closed hlast (hclosed id hold)).1
        · exact hstep.closed_of_credit hnew

/-! ## One stale effect breaks the totals -/

/-- Every reservation recorded in the tables has a positive amount. -/
def PositiveAmounts (db : Database) : Prop :=
  ∀ res ∈ db.financialReservations, 0 < res.amount

instance (db : Database) : Decidable (PositiveAmounts db) :=
  inferInstanceAs (Decidable (∀ res ∈ db.financialReservations, _))

theorem PositiveAmounts.of_recorded {db : Database}
    (hpositive : PositiveAmounts db) {res : FinancialReservation}
    (hrecorded : Recorded res db) : 0 < res.amount := by
  obtain ⟨current, hlookup, hamount, _⟩ := hrecorded
  rw [← hamount]
  exact hpositive current (KeyedTable.mem_of_lookup hlookup)

theorem Atomic.positiveAmounts {rt : Runtime} {effect : Effect}
    {db db' : Database} (hdb : WellFormed db)
    (hstep : Atomic rt effect db db') (hpositive : PositiveAmounts db') :
    PositiveAmounts db := by
  intro res hmem
  have hrecorded : Recorded res db :=
    ⟨res, KeyedTable.lookup_of_mem hdb.reservations hmem, rfl, rfl⟩
  exact hpositive.of_recorded (hstep.recorded hrecorded)

theorem closedAmount_nonneg {db : Database} {res : FinancialReservation}
    (hpositive : 0 < res.amount) (id : String) :
    0 ≤ closedAmount id res db := by
  unfold closedAmount
  split
  next =>
    split
    next => exact hpositive.le
    next => exact le_rfl
  next => exact le_rfl

/-- A closed reservation weighs on its own account. -/
theorem closedAmount_pos {db : Database} {res : FinancialReservation}
    (hrecorded : Recorded res db) (hpositive : 0 < res.amount)
    (hclosed : ¬ ∃ current, lookupReservation res.id db = some current ∧
      Open current.status) :
    0 < closedAmount res.financialAccountId res db := by
  obtain ⟨current, hlookup, _⟩ := hrecorded
  have hstatus : ¬ Open current.status :=
    fun hopen => hclosed ⟨current, hlookup, hopen⟩
  simp [closedAmount, hlookup, hstatus, hpositive]

theorem Atomic.staleAmount_nonneg {rt : Runtime} {effect : Effect}
    {db db' : Database} (hstep : Atomic rt effect db db')
    (hpositive : PositiveAmounts db) (id : String) :
    0 ≤ effect.staleAmount id db := by
  cases hstep with
  | completed _ _ hrecorded _ =>
      exact closedAmount_nonneg (hpositive.of_recorded hrecorded) id
  | marked hrecorded =>
      exact closedAmount_nonneg (hpositive.of_recorded hrecorded) id
  | _ => exact le_rfl

theorem Atomic.staleAmount_pos {rt : Runtime} {effect : Effect}
    {db db' : Database} (hstep : Atomic rt effect db db')
    (hpositive : PositiveAmounts db) (hstale : ¬ effect.Fresh db) :
    ∃ id, 0 < effect.staleAmount id db := by
  cases hstep with
  | completed _ _ hrecorded _ =>
      exact ⟨_, closedAmount_pos hrecorded
        (hpositive.of_recorded hrecorded) hstale⟩
  | marked hrecorded =>
      exact ⟨_, closedAmount_pos hrecorded
        (hpositive.of_recorded hrecorded) hstale⟩
  | _ => simp [Effect.Fresh] at hstale

/-- With positive amounts the reserved drift never grows, and it shrinks on
some account as soon as one effect is stale. -/
theorem AtomicRun.drift_of_stale {rt : Runtime} (hexact : rt.Exact)
    {trace : List (Database × Effect)} {db db' : Database}
    (hdb : WellFormed db) (hrun : AtomicRun rt trace db db')
    (hpositive : PositiveAmounts db') :
    (∀ id, reservedDrift id db' ≤ reservedDrift id db) ∧
      (¬ AllFresh trace →
        ∃ id, reservedDrift id db' < reservedDrift id db) := by
  induction hrun with
  | refl db =>
      exact ⟨fun _ => le_rfl, fun h => absurd (by simp [AllFresh]) h⟩
  | @tail trace effect db db' db'' hrun hstep ih =>
      have hmid := hrun.wellFormed hdb
      have hamounts := hstep.positiveAmounts hmid hpositive
      obtain ⟨hle, hlt⟩ := ih hdb hamounts
      have hdrift := hstep.reservedDrift hexact hmid
      have hnonneg := hstep.staleAmount_nonneg hamounts
      refine ⟨fun id => ?_, fun hstale => ?_⟩
      · have h1 := hle id
        have h2 := hnonneg id
        rw [hdrift id]
        linarith
      · by_cases hpast : AllFresh trace
        · have hlast : ¬ effect.Fresh db' := by
            intro hfresh
            apply hstale
            intro step hmem
            rcases List.mem_append.mp hmem with hold | hnew
            · exact hpast step hold
            · rw [List.mem_singleton] at hnew
              subst hnew
              exact hfresh
          obtain ⟨id, hpos⟩ := hstep.staleAmount_pos hamounts hlast
          have h1 := hle id
          refine ⟨id, ?_⟩
          rw [hdrift id]
          linarith
        · obtain ⟨id, h1⟩ := hlt hpast
          have h2 := hnonneg id
          refine ⟨id, ?_⟩
          rw [hdrift id]
          linarith

/-- A fresh effect that is counted conserves the ledger. -/
theorem Atomic.conserved {rt : Runtime} {effect : Effect}
    {db db' : Database} (hdb : WellFormed db) (hconserved : Conserved db)
    (hstep : Atomic rt effect db db') (hfresh : effect.Fresh db)
    (hcounted : effect.Counted db db') : Conserved db' := by
  rw [conserved_iff_drift (hstep.wellFormed hdb)]
  intro id
  obtain ⟨hreserved, hcommitted⟩ := (conserved_iff_drift hdb).mp hconserved id
  constructor
  · rw [hstep.reservedDrift_of_total hdb (hcounted id).1,
      hfresh.staleAmount, sub_zero, hreserved]
  · rw [hstep.committedDrift_of_total hdb hfresh (hcounted id).2,
      hcommitted]

theorem AtomicRun.conserved_of_fresh {rt : Runtime} (hexact : rt.Exact)
    {trace : List (Database × Effect)} {db db' : Database}
    (hdb : WellFormed db) (hconserved : Conserved db)
    (hrun : AtomicRun rt trace db db') (hfresh : AllFresh trace) :
    Conserved db' := by
  rw [conserved_iff_drift (hrun.wellFormed hdb)]
  intro id
  obtain ⟨hreserved, hcommitted⟩ :=
    hrun.drift_of_fresh hexact hdb hfresh id
  rw [hreserved, hcommitted]
  exact (conserved_iff_drift hdb).mp hconserved id

theorem AtomicRun.fresh_of_conserved {rt : Runtime} (hexact : rt.Exact)
    {trace : List (Database × Effect)} {db db' : Database}
    (hdb : WellFormed db) (hconserved : Conserved db)
    (hrun : AtomicRun rt trace db db') (hpositive : PositiveAmounts db')
    (hfinal : Conserved db') : AllFresh trace := by
  by_contra hstale
  obtain ⟨id, hlt⟩ :=
    (hrun.drift_of_stale hexact hdb hpositive).2 hstale
  have hstart := (conserved_iff_drift hdb).mp hconserved id
  have hend :=
    (conserved_iff_drift (hrun.wellFormed hdb)).mp hfinal id
  rw [hstart.1, hend.1] at hlt
  exact lt_irrefl _ hlt

/-! ## Schedules of statements -/

/-- The effects that a schedule of the calls publishes, each with the tables
it finds. -/
def effectsOf {ι : Type*} [Fintype ι] [DecidableEq ι] (rt : Runtime)
    (db : Database) (calls : ι → Call) (schedule : List (Event ι)) :
    List (Database × Effect) :=
  (launch db calls).collect (program rt) published schedule

/-- Every schedule whose effects find their reservations open conserves the
ledger and completes each reservation at most once.  With positive amounts
no other schedule conserves it. -/
theorem concurrent_calls_conserve {ι : Type*} [Fintype ι] [DecidableEq ι]
    {rt : Runtime} (hexact : rt.Exact) {db : Database}
    (hdb : WellFormed db) (hconserved : Conserved db) {calls : ι → Call}
    {schedule : List (Event ι)} {final : Ledger ι}
    (hrun : (launch db calls).run (program rt) schedule = some final) :
    (AllFresh (effectsOf rt db calls schedule) →
      Conserved final.committed ∧
        (credits (effectsOf rt db calls schedule)).Nodup) ∧
    (PositiveAmounts final.committed → Conserved final.committed →
      AllFresh (effectsOf rt db calls schedule)) := by
  have heffects := atomicRun_of_run hdb hrun
  constructor
  · intro hfresh
    exact ⟨heffects.conserved_of_fresh hexact hdb hconserved hfresh,
      (heffects.credits_nodup hfresh).1⟩
  · intro hpositive hfinal
    exact heffects.fresh_of_conserved hexact hdb hconserved hpositive hfinal

/-! ## Two commits of one reservation -/

def contestedAccount : FinancialAccount where
  id := "account-1"
  companyId := "company-1"
  agentId := some "agent-1"
  scope := .agent
  scopeKey := "agent-1"
  asset := "USDC"
  network := some "base-sepolia"
  currentReserved := 10
  currentCommitted := 0
  limitAmount := some 100

def contestedReservation : FinancialReservation where
  id := "reservation-1"
  companyId := "company-1"
  agentId := some "agent-1"
  executionRequestId := none
  financialAccountId := "account-1"
  amount := 10
  asset := "USDC"
  status := .reserved
  releasedAt := none
  committedAt := none

def contestedLedger : Database :=
  { Database.empty with
    companies := ["company-1"]
    financialAccounts := [contestedAccount]
    financialReservations := [contestedReservation] }

def twoCommits : Fin 2 → Call :=
  fun _ => .complete ⟨.commit, "company-1", "reservation-1", 0⟩

/-- Both calls read the status before either locks the account. -/
def bothLoadFirst : List (Event (Fin 2)) :=
  [.run 0, .run 1, .run 0, .run 0, .run 0, .run 0, .run 1, .run 1, .run 1,
    .run 1]

theorem wellFormed_contestedLedger : WellFormed contestedLedger := by
  refine ⟨by decide, by decide, ?_⟩
  intro res hmem
  simp only [contestedLedger, List.mem_singleton] at hmem
  subst hmem
  decide

def Pc.succeeded : Pc → Bool
  | .finished (.ok _) => true
  | _ => false

/-- Both commits of a reservation of 10 succeed, and the account shows -10
reserved and 20 committed. -/
theorem double_commit_breaks_conservation :
    WellFormed contestedLedger ∧ Conserved contestedLedger ∧
      ∃ final,
        (launch contestedLedger twoCommits).run (program Runtime.reference)
          bothLoadFirst = some final ∧
        (∀ i, (final.sessions i).point.succeeded = true) ∧
        ¬ Conserved final.committed ∧
        final.committed.financialAccounts =
          [{ contestedAccount with
            currentReserved := -10
            currentCommitted := 20 }] := by
  refine ⟨wellFormed_contestedLedger, by decide +kernel, ?_⟩
  have hrun : ((launch contestedLedger twoCommits).run
      (program Runtime.reference) bothLoadFirst).map (fun final =>
        decide ((∀ i, (final.sessions i).point.succeeded = true) ∧
          ¬ Conserved final.committed ∧
          final.committed.financialAccounts =
            [{ contestedAccount with
              currentReserved := -10
              currentCommitted := 20 }])) = some true := by
    decide +kernel
  obtain ⟨final, hfinal, hcheck⟩ := Option.map_eq_some_iff.mp hrun
  exact ⟨final, hfinal, of_decide_eq_true hcheck⟩

def oneAfterTheOther : List (Event (Fin 2)) :=
  [.run 0, .run 0, .run 0, .run 0, .run 0, .run 1, .run 1]

/-- The same two commits, one after the other, conserve the ledger. -/
theorem commits_in_turn_conserve :
    ∃ final,
      (launch contestedLedger twoCommits).run (program Runtime.reference)
        oneAfterTheOther = some final ∧
      Conserved final.committed ∧
      (credits (effectsOf Runtime.reference contestedLedger twoCommits
        oneAfterTheOther)).Nodup := by
  have hrun : ((launch contestedLedger twoCommits).run
      (program Runtime.reference) oneAfterTheOther).map (fun final =>
        decide (PositiveAmounts final.committed ∧
          Conserved final.committed)) = some true := by
    decide +kernel
  obtain ⟨final, hfinal, hcheck⟩ := Option.map_eq_some_iff.mp hrun
  obtain ⟨hpositive, hconserved⟩ := of_decide_eq_true hcheck
  have hclaim := concurrent_calls_conserve Runtime.reference_exact
    wellFormed_contestedLedger (by decide +kernel) hfinal
  exact ⟨final, hfinal, hclaim.1 (hclaim.2 hpositive hconserved)⟩

end Financial
end Orvex
