import Orvex.Financial.Conservation
import Orvex.Financial.Origins

/-!
# The row lock prevents overspending

When each reservation receives at most one completion, the reserved total of
an account is the sum of the reservations no call has completed, whatever
`markUnknown` does to their status.  Every reservation is then counted
against the limit from its grant to its completion.
-/

namespace Orvex
namespace Financial

open ReadCommitted

/-! ## What the calls allow -/

section

variable {ι : Type*}

/-- No two calls complete the same reservation. -/
def CompletedOnce (calls : ι → Call) : Prop :=
  ∀ i j c d, calls i = .complete c → calls j = .complete d →
    c.reservationId = d.reservationId → i = j

/-- Every reserve call asks for a positive amount. -/
def PositiveRequests (rt : Runtime) (calls : ι → Call) : Prop :=
  ∀ i c x, calls i = .reserve c →
    rt.toDecimal c.input.amount = some (.finite x) → 0 < x

/-- No call completes a reservation of the account that was there before. -/
def CompletesNew (db : Database) (accountId : String)
    (calls : ι → Call) : Prop :=
  ∀ i c, calls i = .complete c → ∀ res ∈ db.financialReservations,
    res.financialAccountId = accountId → res.id ≠ c.reservationId

end

section

variable {ι : Type*} [DecidableEq ι] {rt : Runtime} {calls : ι → Call}

/-- What the record of a run says of the calls. -/
structure Origin (rt : Runtime) (calls : ι → Call) (ledger : Ledger ι)
    (past : List (Database × Effect)) : Prop where
  points : ∀ i, Belongs rt (calls i) (ledger.sessions i).point
  once : (credits past).Nodup
  completed : ∀ id ∈ credits past, ∃ i c result,
    calls i = .complete c ∧ c.reservationId = id ∧
      (ledger.sessions i).point = .finished result
  reserved : ∀ step ∈ past, ∀ res, step.2 = .reserved res →
    ∃ i c, calls i = .reserve c ∧
      rt.storeText c.input.amount = some res.amount

theorem Origin.step (honce : CompletedOnce calls) {ledger next : Ledger ι}
    {past : List (Database × Effect)} {event : Event ι}
    (horigin : Origin rt calls ledger past)
    (hstep : Step (program rt) ledger event next) :
    Origin rt calls next (past ++ published ledger event) := by
  have hnew : ∀ id ∈ credits (published ledger event), ∃ i c result,
      calls i = .complete c ∧ c.reservationId = id ∧
        (∀ result', (ledger.sessions i).point ≠ .finished result') ∧
        (next.sessions i).point = .finished result := by
    intro id hid
    obtain ⟨step, hmem, kind, res, heffect, rfl⟩ := mem_credits.mp hid
    obtain ⟨i, rfl, hpoint⟩ := effect_of_published hmem
    rw [heffect] at hpoint
    obtain ⟨c, settled, hpc⟩ := point_of_completed hpoint
    have hbelongs := horigin.points i
    rw [hpc] at hbelongs
    refine ⟨i, c, .ok settled, hbelongs.1, hbelongs.2.symm, ?_, ?_⟩
    · rw [hpc]
      simp
    · exact point_after_commit hstep (by rw [hpc]; rfl)
  constructor
  · exact belongs_step horigin.points hstep
  · rw [credits_append, List.nodup_append]
    refine ⟨horigin.once, ?_, ?_⟩
    · cases event with
      | lose i => simp [published, credits]
      | run i =>
          simp only [published]
          split
          next effect _ => cases effect <;> simp [credits]
          next => simp [credits]
    · intro id hold id' hid heq
      subst heq
      obtain ⟨i, c, result, hcall, hreservation, hfinished⟩ :=
        horigin.completed id hold
      obtain ⟨j, d, _, hcall', hreservation', hunfinished, _⟩ := hnew id hid
      obtain rfl : i = j :=
        honce i j c d hcall hcall' (hreservation.trans hreservation'.symm)
      exact hunfinished result hfinished
  · intro id hid
    rw [credits_append] at hid
    rcases List.mem_append.mp hid with hold | hid
    · obtain ⟨i, c, result, hcall, hreservation, hfinished⟩ :=
        horigin.completed id hold
      exact ⟨i, c, result, hcall, hreservation,
        finished_step hfinished hstep⟩
    · obtain ⟨i, c, result, hcall, hreservation, _, hfinished⟩ := hnew id hid
      exact ⟨i, c, result, hcall, hreservation, hfinished⟩
  · intro step hmem res heffect
    rcases List.mem_append.mp hmem with hold | hmem
    · exact horigin.reserved step hold res heffect
    · obtain ⟨i, rfl, hpoint⟩ := effect_of_published hmem
      rw [heffect] at hpoint
      obtain ⟨c, hpc⟩ := point_of_reserved hpoint
      have hbelongs := horigin.points i
      rw [hpc] at hbelongs
      exact ⟨i, c, hbelongs⟩

theorem origin_of_run [Fintype ι] (honce : CompletedOnce calls)
    {db : Database} {schedule : List (Event ι)} {final : Ledger ι}
    (hrun : (launch db calls).run (program rt) schedule = some final) :
    Origin rt calls final (effectsOf rt db calls schedule) := by
  have hstart : Origin rt calls (launch db calls) [] := by
    refine ⟨belongs_launch rt db calls, ?_, ?_, ?_⟩ <;> simp [credits]
  exact Machine.run_induction_collect
    (fun _ _ _ _ horigin hstep => horigin.step honce hstep) hstart hrun

end

/-! ## Outstanding reservations -/

/-- The amount of a reservation of the account that no call completed. -/
def uncompleted (accountId : String) (gone : List String)
    (res : FinancialReservation) : ℚ :=
  if res.financialAccountId = accountId ∧ res.id ∉ gone then res.amount
  else 0

def outstanding (accountId : String) (gone : List String) (db : Database) :
    ℚ :=
  (db.financialReservations.map (uncompleted accountId gone)).sum

theorem outstanding_insertReservation (accountId : String)
    (gone : List String) (res : FinancialReservation) (db : Database) :
    outstanding accountId gone (insertReservation res db) =
      outstanding accountId gone db + uncompleted accountId gone res := by
  simp [outstanding, insertReservation]

theorem outstanding_updateReservation (accountId : String)
    (gone : List String) (id : String)
    {change : FinancialReservation → FinancialReservation}
    (hsame : SameHold change) (db : Database) :
    outstanding accountId gone (updateReservation id change db) =
      outstanding accountId gone db := by
  apply KeyedTable.sum_modify_of_agree
  intro res
  obtain ⟨hid, hamount, haccount⟩ := hsame res
  simp [uncompleted, hid, hamount, haccount]

/-- Completing one more reservation takes its amount out. -/
theorem outstanding_completed {db : Database} (hdb : WellFormed db)
    {res : FinancialReservation} (hrecorded : Recorded res db)
    (accountId : String) {gone : List String} (hnew : res.id ∉ gone) :
    outstanding accountId (gone ++ [res.id]) db =
      outstanding accountId gone db -
        (if res.financialAccountId = accountId then res.amount else 0) := by
  obtain ⟨current, hlookup, hamount, haccount⟩ := hrecorded
  have hid : current.id = res.id := KeyedTable.key_of_lookup hlookup
  have hagree : ∀ r : FinancialReservation, r.id ≠ res.id →
      uncompleted accountId (gone ++ [res.id]) r =
        uncompleted accountId gone r := by
    intro r hr
    simp [uncompleted, hr]
  have hsum := KeyedTable.sum_of_agree hagree hdb.reservations hlookup
  have hbefore : uncompleted accountId gone current =
      if res.financialAccountId = accountId then res.amount else 0 := by
    simp [uncompleted, hid, hnew, haccount, hamount]
  have hafter : uncompleted accountId (gone ++ [res.id]) current = 0 := by
    simp [uncompleted, hid]
  rw [hbefore, hafter] at hsum
  unfold outstanding
  linarith

/-- The account keeps its limit through every effect. -/
theorem Atomic.limit {rt : Runtime} {effect : Effect} {db db' : Database}
    (hstep : Atomic rt effect db db') {id : String}
    {account : FinancialAccount} (hlookup : lookupAccount id db = some account) :
    ∃ account', lookupAccount id db' = some account' ∧
      account'.limitAmount = account.limitAmount := by
  have hupdate : ∀ {other : String}
      {change : FinancialAccount → FinancialAccount} {base : Database},
      lookupAccount id base = some account → TotalsOnly change →
      ∃ account',
        lookupAccount id (updateAccount other change base) = some account' ∧
          account'.limitAmount = account.limitAmount := by
    intro other change base hbase hchange
    by_cases hid : id = other
    · refine ⟨change account, ?_, by rw [hchange account]⟩
      rw [lookupAccount_updateAccount base hchange.keepsKey, if_pos hid,
        ← hid, hbase]
      rfl
    · refine ⟨account, ?_, rfl⟩
      rw [lookupAccount_updateAccount base hchange.keepsKey, if_neg hid,
        hbase]
  cases hstep with
  | opened _ _ _ =>
      refine ⟨account, ?_, rfl⟩
      rw [lookupAccount_insertAccount, hlookup]
      rfl
  | reserved _ _ _ hchange =>
      exact hupdate (by rw [lookupAccount_insertReservation, hlookup])
        (totalsOnly_reserveChange hchange)
  | completed _ _ _ hchange =>
      rw [lookupAccount_updateReservation]
      exact hupdate hlookup (totalsOnly_accountChange hchange)
  | marked _ =>
      rw [lookupAccount_updateReservation]
      exact ⟨account, hlookup, rfl⟩

/-- What is true of the account after every effect: `old` are the
reservations it had at the start. -/
structure Budget (accountId : String) (limit : ℚ) (old : List String)
    (past : List (Database × Effect)) (db : Database) : Prop where
  account : ∃ account, lookupAccount accountId db = some account ∧
    account.limitAmount = some limit
  reserved : reservedTotal accountId db =
    outstanding accountId (old ++ credits past) db
  positive : ∀ res ∈ db.financialReservations,
    res.financialAccountId = accountId → res.id ∉ old → 0 < res.amount
  within : reservedTotal accountId db + committedTotal accountId db ≤ limit
  committed : 0 ≤ committedTotal accountId db
  known : ∀ id ∈ old ++ credits past, lookupReservation id db ≠ none

theorem Budget.reserved_nonneg {accountId : String} {limit : ℚ}
    {old : List String} {past : List (Database × Effect)} {db : Database}
    (hbudget : Budget accountId limit old past db) :
    0 ≤ reservedTotal accountId db := by
  rw [hbudget.reserved]
  apply List.sum_nonneg
  intro x hx
  obtain ⟨res, hmem, rfl⟩ := List.mem_map.mp hx
  unfold uncompleted
  split
  next h =>
    apply le_of_lt
    apply hbudget.positive res hmem h.1
    intro hold
    exact h.2 (List.mem_append_left _ hold)
  next => exact le_rfl

theorem lookupReservation_ne_none_step {rt : Runtime} {effect : Effect}
    {db db' : Database} (hstep : Atomic rt effect db db') {id : String}
    (h : lookupReservation id db ≠ none) :
    lookupReservation id db' ≠ none := by
  obtain ⟨res, hres⟩ := Option.ne_none_iff_exists'.mp h
  have hid : res.id = id := KeyedTable.key_of_lookup hres
  subst hid
  obtain ⟨current, hcurrent, _⟩ := hstep.recorded ⟨res, hres, rfl, rfl⟩
  rw [hcurrent]
  simp

section

variable {rt : Runtime} {accountId : String} {limit : ℚ}
  {old : List String} {past : List (Database × Effect)}
  {db db' : Database} {effect : Effect}

theorem outstanding_step (hdb : WellFormed db)
    (hbudget : Budget accountId limit old past db)
    (hstep : Atomic rt effect db db')
    (hnew : ∀ id ∈ credits [(db, effect)], id ∉ old ++ credits past) :
    outstanding accountId (old ++ credits (past ++ [(db, effect)])) db' =
      outstanding accountId (old ++ credits past) db +
        effect.reservedChange accountId := by
  rw [credits_append, ← List.append_assoc]
  cases hstep with
  | @opened _ account _ _ _ =>
      have hsame : credits [(db, Effect.opened account)] = [] := rfl
      rw [hsame, List.append_nil]
      simp only [Effect.reservedChange, add_zero]
      rfl
  | @reserved _ row amount res change hrow hfresh hgrant hchange =>
      have hsame : credits [(db, Effect.reserved res)] = [] := rfl
      have hunknown : res.id ∉ old ++ credits past :=
        fun hmem => hbudget.known _ hmem hfresh
      have hinsert := outstanding_insertReservation accountId
        (old ++ credits past) res db
      rw [hsame, List.append_nil]
      refine hinsert.trans ?_
      simp [uncompleted, Effect.reservedChange, hunknown]
  | @completed _ kind row res change now hrow haccount hrecorded hchange =>
      have hsame : credits [(db, Effect.completed kind res)] = [res.id] := rfl
      rw [hsame] at hnew ⊢
      rw [outstanding_updateReservation _ _ _ (sameHold_settle _ _)]
      have hbase := outstanding_completed hdb hrecorded accountId
        (hnew res.id (by simp))
      refine hbase.trans ?_
      by_cases hid : res.financialAccountId = accountId
      · simp only [Effect.reservedChange, hid, if_true]
        ring
      · simp only [Effect.reservedChange, hid, if_false]
        ring
  | @marked _ res hrecorded =>
      have hsame : credits [(db, Effect.marked res)] = [] := rfl
      rw [hsame, List.append_nil,
        outstanding_updateReservation _ _ _ sameHold_setUnknown]
      simp [Effect.reservedChange]

theorem positive_step (hbudget : Budget accountId limit old past db)
    (hstep : Atomic rt effect db db')
    (hpositive : ∀ res, effect = .reserved res → 0 < res.amount) :
    ∀ res ∈ db'.financialReservations,
      res.financialAccountId = accountId → res.id ∉ old →
        0 < res.amount := by
  have hupdate : ∀ {id : String}
      {change : FinancialReservation → FinancialReservation},
      SameHold change →
      ∀ res ∈ (updateReservation id change db).financialReservations,
        res.financialAccountId = accountId → res.id ∉ old →
          0 < res.amount := by
    intro id change hsame res hmem haccount hold
    obtain ⟨before, hbefore, rfl⟩ := List.mem_map.mp hmem
    have hfields := hsame before
    split at haccount
    next h =>
      simp only [h, if_true] at hold ⊢
      rw [hfields.2.2] at haccount
      rw [hfields.1] at hold
      rw [hfields.2.1]
      exact hbudget.positive before hbefore haccount hold
    next h =>
      simp only [h, if_false] at hold ⊢
      exact hbudget.positive before hbefore haccount hold
  cases hstep with
  | opened _ _ _ => exact hbudget.positive
  | reserved _ _ _ _ =>
      intro res hmem haccount hold
      rcases List.mem_append.mp hmem with hbefore | hnew
      · exact hbudget.positive res hbefore haccount hold
      · rw [List.mem_singleton] at hnew
        subst hnew
        exact hpositive _ rfl
  | completed _ _ _ _ =>
      exact hupdate (sameHold_settle _ _)
  | marked _ => exact hupdate sameHold_setUnknown

/-- The amount an effect completes on the account is positive. -/
theorem completed_positive (hbudget : Budget accountId limit old past db)
    (hstep : Atomic rt effect db db')
    (hnew : ∀ id ∈ credits [(db, effect)], id ∉ old ++ credits past)
    {kind : Completion} {res : FinancialReservation}
    (heffect : effect = .completed kind res)
    (haccount : res.financialAccountId = accountId) : 0 < res.amount := by
  subst heffect
  have hold : res.id ∉ old := fun hmem =>
    hnew res.id (by simp [credits]) (List.mem_append_left _ hmem)
  cases hstep with
  | completed _ _ hrecorded _ =>
      obtain ⟨current, hlookup, hamount, hsame⟩ := hrecorded
      have hid : current.id = res.id := KeyedTable.key_of_lookup hlookup
      rw [← hamount]
      exact hbudget.positive current (KeyedTable.mem_of_lookup hlookup)
        (hsame.trans haccount) (by rw [hid]; exact hold)

theorem Budget.step (hexact : rt.Exact) (hdb : WellFormed db)
    (hbudget : Budget accountId limit old past db)
    (hstep : Atomic rt effect db db')
    (hnew : ∀ id ∈ credits [(db, effect)], id ∉ old ++ credits past)
    (hpositive : ∀ res, effect = .reserved res → 0 < res.amount) :
    Budget accountId limit old (past ++ [(db, effect)]) db' := by
  have hreserved := hstep.reservedTotal hexact accountId
  have hcommitted := hstep.committedTotal hexact accountId
  obtain ⟨row, hlookup, hlimit⟩ := hbudget.account
  have hwithin : effect.reservedChange accountId +
      effect.committedChange accountId +
        (reservedTotal accountId db + committedTotal accountId db) ≤
          limit := by
    have hbefore := hbudget.within
    cases effect with
    | reserved res =>
        cases hstep with
        | @reserved _ locked amount _ change hrow _ hgrant _ =>
            simp only [Effect.reservedChange, Effect.committedChange]
            split
            next haccount =>
              have hid : locked.id = accountId :=
                hgrant.account.symm.trans haccount
              have hsame : locked = row := by
                rw [hid, hlookup] at hrow
                exact (Option.some.inj hrow).symm
              subst hsame
              have hle := (hgrant.exact hexact).2 limit hlimit
              simp only [reservedTotal, committedTotal, hlookup,
                Option.map_some, Option.getD_some]
              linarith
            next => linarith
    | completed kind res =>
        simp only [Effect.reservedChange]
        by_cases haccount : res.financialAccountId = accountId
        · have hamount := completed_positive hbudget hstep hnew rfl haccount
          cases kind <;> simp only [Effect.committedChange, haccount,
            if_true] <;> linarith
        · cases kind <;> simp only [Effect.committedChange, haccount,
            if_false] <;> linarith
    | _ =>
        simp only [Effect.reservedChange, Effect.committedChange]
        linarith
  constructor
  · obtain ⟨row', hlookup', hlimit'⟩ := hstep.limit hlookup
    exact ⟨row', hlookup', hlimit'.trans hlimit⟩
  · rw [outstanding_step hdb hbudget hstep hnew, hreserved,
      hbudget.reserved]
  · exact positive_step hbudget hstep hpositive
  · rw [hreserved, hcommitted]
    linarith
  · rw [hcommitted]
    have hbefore := hbudget.committed
    cases effect with
    | completed kind res =>
        by_cases haccount : res.financialAccountId = accountId
        · have hamount := completed_positive hbudget hstep hnew rfl haccount
          cases kind <;> simp only [Effect.committedChange, haccount,
            if_true] <;> linarith
        · cases kind <;> simp only [Effect.committedChange, haccount,
            if_false] <;> linarith
    | _ =>
        simp only [Effect.committedChange]
        linarith
  · intro id hmem
    rw [credits_append, ← List.append_assoc] at hmem
    rcases List.mem_append.mp hmem with hbefore | hcredit
    · exact lookupReservation_ne_none_step hstep (hbudget.known id hbefore)
    · obtain ⟨current, hcurrent, _⟩ := hstep.closed_of_credit hcredit
      rw [hcurrent]
      simp

end

theorem AtomicRun.budget {rt : Runtime} (hexact : rt.Exact)
    {accountId : String} {limit : ℚ} {old : List String}
    {trace : List (Database × Effect)} {db db' : Database}
    (hdb : WellFormed db) (hstart : Budget accountId limit old [] db)
    (hrun : AtomicRun rt trace db db') (honce : (credits trace).Nodup)
    (hnew : ∀ id ∈ credits trace, id ∉ old)
    (hpositive : ∀ step ∈ trace, ∀ res, step.2 = .reserved res →
      0 < res.amount) :
    Budget accountId limit old trace db' := by
  induction hrun with
  | refl db => exact hstart
  | @tail trace effect db db' db'' hrun hstep ih =>
      rw [credits_append] at honce hnew
      obtain ⟨hpast, _, hdisjoint⟩ := List.nodup_append.mp honce
      have hbefore := ih hdb hstart hpast
        (fun id hid => hnew id (List.mem_append_left _ hid))
        (fun step hmem => hpositive step (List.mem_append_left _ hmem))
      refine hbefore.step hexact (hrun.wellFormed hdb) hstep ?_ ?_
      · intro id hid hmem
        rcases List.mem_append.mp hmem with hold | hcredit
        · exact hnew id (List.mem_append_right _ hid) hold
        · exact hdisjoint id hcredit id hid rfl
      · intro res heffect
        exact hpositive (db', effect) (by simp) res heffect

/-! ## Calls that throw -/

section

variable {ι : Type*} [Fintype ι] [DecidableEq ι] {rt : Runtime}
  {db : Database} {calls : ι → Call}

theorem inv_of_run (hdb : WellFormed db) {schedule : List (Event ι)}
    {ledger : Ledger ι}
    (hrun : (launch db calls).run (program rt) schedule = some ledger) :
    Inv rt ledger ∧
      ∀ i, Belongs rt (calls i) (ledger.sessions i).point := by
  have hkeep : ∀ (machine : Ledger ι) (event : Event ι) (next : Ledger ι),
      (Inv rt machine ∧
        ∀ i, Belongs rt (calls i) (machine.sessions i).point) →
      Step (program rt) machine event next →
      Inv rt next ∧ ∀ i, Belongs rt (calls i) (next.sessions i).point :=
    fun _ _ _ h hstep => ⟨h.1.step hstep, belongs_step h.2 hstep⟩
  exact Machine.run_induction hkeep
    ⟨inv_launch rt hdb calls, belongs_launch rt db calls⟩ hrun

theorem finished_of_run {ledger final : Ledger ι}
    {schedule : List (Event ι)} {i : ι}
    {result : Except Failure FinancialReservation}
    (hfinished : (ledger.sessions i).point = .finished result)
    (hrun : ledger.run (program rt) schedule = some final) :
    (final.sessions i).point = .finished result :=
  Machine.run_induction
    (fun _ _ _ h hstep => finished_step h hstep) hfinished hrun

/-- The statements that session `i` executes during the schedule leave the
account and all reservations as they find them. -/
def LeavesLedger (rt : Runtime) (db : Database) (calls : ι → Call)
    (schedule : List (Event ι)) (accountId : String) (i : ι) : Prop :=
  ∀ before event after ledger next,
    schedule = before ++ event :: after → event.session = i →
    (launch db calls).run (program rt) before = some ledger →
    ledger.step (program rt) event = some next →
    lookupAccount accountId next.committed =
        lookupAccount accountId ledger.committed ∧
      next.committed.financialReservations =
        ledger.committed.financialReservations

omit [Fintype ι] in
/-- A reserve call changes an existing account and the reservations only by
the commit with which it returns its reservation. -/
theorem reserve_event_cases {ledger next : Ledger ι} {event : Event ι}
    (hinv : Inv rt ledger)
    (hbelongs : ∀ i, Belongs rt (calls i) (ledger.sessions i).point)
    (hstep : Step (program rt) ledger event next) {c : ReserveCall}
    (hcall : calls event.session = .reserve c) {accountId : String}
    (hexists : lookupAccount accountId ledger.committed ≠ none) :
    (lookupAccount accountId next.committed =
        lookupAccount accountId ledger.committed ∧
      next.committed.financialReservations =
        ledger.committed.financialReservations) ∨
    ∃ res, (next.sessions event.session).point = .finished (.ok res) := by
  rcases hinv.committed_cases hstep with ⟨_, heq⟩ | ⟨effect, hsome, hatomic⟩
  · rw [heq]
    exact .inl ⟨rfl, rfl⟩
  · obtain ⟨i, rfl, hpoint⟩ := effect_of_published
      (by rw [hsome]; exact List.mem_singleton_self _)
    have hown := hbelongs i
    simp only [Event.session] at hcall
    rw [hcall] at hown
    cases effect with
    | opened account =>
        left
        generalize next.committed = tables at hatomic
        cases hatomic with
        | opened hfresh _ _ =>
            refine ⟨?_, rfl⟩
            rw [lookupAccount_insertAccount]
            have hne : ¬ account.id = accountId := by
              intro h
              rw [h] at hfresh
              exact hexists hfresh
            simp [hne]
    | reserved res =>
        obtain ⟨d, hpc⟩ := point_of_reserved hpoint
        have hcommit : stmt rt (ledger.sessions i).point =
            .commit (.finished (.ok res)) := by
          rw [hpc]
          rfl
        exact .inr ⟨res, point_after_commit hstep hcommit⟩
    | completed kind res =>
        obtain ⟨d, settled, hpc⟩ := point_of_completed hpoint
        rw [hpc] at hown
        exact absurd hown.1 (by simp)
    | marked res =>
        generalize hpc : (ledger.sessions i).point = pc at hown hpoint
        cases pc <;> simp [Pc.effect] at hpoint
        simp [Belongs] at hown

theorem lookupAccount_ne_none_of_run (hdb : WellFormed db)
    {schedule : List (Event ι)} {ledger : Ledger ι}
    (hrun : (launch db calls).run (program rt) schedule = some ledger)
    {id : String} (hexists : lookupAccount id db ≠ none) :
    lookupAccount id ledger.committed ≠ none := by
  have hatomic := atomicRun_of_run hdb hrun
  generalize ledger.committed = db' at hatomic ⊢
  generalize (launch db calls).collect (program rt) published schedule =
    trace at hatomic
  clear hrun
  induction hatomic with
  | refl db => exact hexists
  | tail _ hstep ih =>
      obtain ⟨account, haccount⟩ :=
        Option.ne_none_iff_exists'.mp (ih hdb hexists)
      obtain ⟨account', haccount', _⟩ := hstep.limit haccount
      rw [haccount']
      simp

/-- A reserve call that throws has left the ledger alone. -/
theorem leavesLedger_of_error (hdb : WellFormed db)
    {schedule : List (Event ι)} {final : Ledger ι}
    (hrun : (launch db calls).run (program rt) schedule = some final)
    {accountId : String} (hexists : lookupAccount accountId db ≠ none)
    {i : ι} {c : ReserveCall} (hcall : calls i = .reserve c)
    {failure : Failure}
    (herror : (final.sessions i).point = .finished (.error failure)) :
    LeavesLedger rt db calls schedule accountId i := by
  intro before event after ledger next hschedule hsession hbefore hevent
  subst hsession
  obtain ⟨hinv, hbelongs⟩ := inv_of_run hdb hbefore
  have hstep := ledger.step_cases hevent
  rcases reserve_event_cases hinv hbelongs hstep hcall
    (lookupAccount_ne_none_of_run hdb hbefore hexists) with
    hsame | ⟨res, hok⟩
  · exact hsame
  · rw [hschedule, Machine.run_append, hbefore] at hrun
    simp only [Option.bind_some, Machine.run, hevent] at hrun
    have hfinal := finished_of_run hok hrun
    rw [herror] at hfinal
    simp at hfinal

/-! ## The bound -/

theorem no_overspend (hexact : rt.Exact) (hdb : WellFormed db)
    {account : FinancialAccount}
    (haccount : lookupAccount account.id db = some account) {limit : ℚ}
    (hlimit : account.limitAmount = some limit) (hnonneg : 0 ≤ limit)
    (hreserved : account.currentReserved = 0)
    (hcommitted : account.currentCommitted = 0)
    (hpositive : PositiveRequests rt calls)
    (honce : CompletedOnce calls)
    (hnew : CompletesNew db account.id calls)
    {schedule : List (Event ι)} {final : Ledger ι}
    (hrun : (launch db calls).run (program rt) schedule = some final) :
    (∃ row, lookupAccount account.id final.committed = some row ∧
      0 ≤ row.currentReserved ∧ 0 ≤ row.currentCommitted ∧
      row.currentReserved + row.currentCommitted ≤ limit) ∧
    ∀ i c failure, calls i = .reserve c →
      (final.sessions i).point = .finished (.error failure) →
      LeavesLedger rt db calls schedule account.id i := by
  have horigin := origin_of_run honce hrun
  let old := (db.financialReservations.filter (fun res =>
    res.financialAccountId = account.id)).map FinancialReservation.id
  have hreservedTotal : reservedTotal account.id db = 0 := by
    simp [reservedTotal, haccount, hreserved]
  have hcommittedTotal : committedTotal account.id db = 0 := by
    simp [committedTotal, haccount, hcommitted]
  have hold : ∀ res ∈ db.financialReservations,
      res.financialAccountId = account.id → res.id ∈ old := by
    intro res hmem hsame
    exact List.mem_map_of_mem (List.mem_filter.mpr ⟨hmem, by simpa⟩)
  have hstart : Budget account.id limit old [] db := by
    refine ⟨⟨account, haccount, hlimit⟩, ?_, ?_, ?_, ?_, ?_⟩
    · rw [hreservedTotal]
      symm
      apply List.sum_eq_zero
      intro x hx
      obtain ⟨res, hmem, rfl⟩ := List.mem_map.mp hx
      unfold uncompleted
      split
      next h =>
        exact absurd (List.mem_append_left _ (hold res hmem h.1)) h.2
      next => rfl
    · intro res hmem hsame hout
      exact absurd (hold res hmem hsame) hout
    · rw [hreservedTotal, hcommittedTotal]
      simpa using hnonneg
    · exact hcommittedTotal.ge
    · intro id hid
      simp only [credits, List.flatMap_nil, List.append_nil] at hid
      obtain ⟨res, hmem, rfl⟩ := List.mem_map.mp hid
      rw [lookupReservation, KeyedTable.lookup_of_mem hdb.reservations
        (List.mem_filter.mp hmem).1]
      simp
  have hfresh : ∀ id ∈ credits (effectsOf rt db calls schedule),
      id ∉ old := by
    intro id hid hmem
    obtain ⟨i, c, _, hcall, hreservation, _⟩ := horigin.completed id hid
    obtain ⟨res, hres, rfl⟩ := List.mem_map.mp hmem
    obtain ⟨hin, hsame⟩ := List.mem_filter.mp hres
    exact hnew i c hcall res hin (by simpa using hsame) hreservation.symm
  have hamounts : ∀ step ∈ effectsOf rt db calls schedule, ∀ res,
      step.2 = .reserved res → 0 < res.amount := by
    intro step hmem res heffect
    obtain ⟨i, c, hcall, hstored⟩ :=
      horigin.reserved step hmem res heffect
    obtain ⟨x, hx, hcolumn⟩ := Runtime.storeText_eq_some hstored
    rw [hexact.column, Option.some.injEq] at hcolumn
    rw [← hcolumn]
    exact hpositive i c x hcall hx
  have hbudget := (atomicRun_of_run hdb hrun).budget hexact hdb hstart
    horigin.once hfresh hamounts
  constructor
  · obtain ⟨row, hrow, _⟩ := hbudget.account
    have hres := hbudget.reserved_nonneg
    have hcom := hbudget.committed
    have hsum := hbudget.within
    simp only [reservedTotal, committedTotal, hrow, Option.map_some,
      Option.getD_some] at hres hcom hsum
    exact ⟨row, hrow, hres, hcom, hsum⟩
  · intro i c failure hcall herror
    exact leavesLedger_of_error hdb hrun (by rw [haccount]; simp) hcall
      herror

end

/-! ## Two reservations and a commit -/

def smallAccount : FinancialAccount where
  id := "account-1"
  companyId := "company-1"
  agentId := some "agent-1"
  scope := .agent
  scopeKey := "agent-1"
  asset := "USDC"
  network := some "base-sepolia"
  currentReserved := 0
  currentCommitted := 0
  limitAmount := some 10

def smallLedger : Database :=
  { Database.empty with
    companies := ["company-1"]
    financialAccounts := [smallAccount] }

def smallRequest (amount uuid : String) : Call :=
  .reserve
    { input :=
        { companyId := "company-1"
          agentId := some "agent-1"
          scope := .agent
          scopeKey := "agent-1"
          asset := "USDC"
          network := some "base-sepolia"
          amount := amount
          executionRequestId := none }
      accountUuid := "account-2"
      uuid := uuid }

def smallCalls : Fin 3 → Call
  | 0 => smallRequest "6" "reservation-1"
  | 1 => smallRequest "5.5" "reservation-2"
  | 2 => .complete ⟨.commit, "company-1", "reservation-1", 0⟩

/-- The second request arrives while the first holds the row lock, and is
refused once it gets the row; the first is committed. -/
def smallSchedule : List (Event (Fin 3)) :=
  [.run 0, .run 1, .run 0, .run 0, .run 0, .run 0, .run 2, .run 1, .run 1,
    .run 2, .run 2, .run 2, .run 2]

theorem small_requests_stay_within_limit :
    ∃ final,
      (launch smallLedger smallCalls).run (program Runtime.reference)
        smallSchedule = some final ∧
      (∃ row, lookupAccount "account-1" final.committed = some row ∧
        0 ≤ row.currentReserved ∧ 0 ≤ row.currentCommitted ∧
        row.currentReserved + row.currentCommitted ≤ 10) ∧
      ∀ i c failure, smallCalls i = .reserve c →
        (final.sessions i).point = .finished (.error failure) →
        LeavesLedger Runtime.reference smallLedger smallCalls smallSchedule
          "account-1" i := by
  have hrun : ((launch smallLedger smallCalls).run
      (program Runtime.reference) smallSchedule).isSome = true := by
    decide +kernel
  obtain ⟨final, hfinal⟩ := Option.isSome_iff_exists.mp hrun
  have hdb : WellFormed smallLedger :=
    ⟨by decide, by decide, by simp [smallLedger, Database.empty]⟩
  have hpositive : PositiveRequests Runtime.reference smallCalls := by
    intro i c x hcall hamount
    have hvalue : ∀ amount uuid, smallRequest amount uuid = .reserve c →
        Reference.decimal? amount = some x := by
      intro amount uuid hrequest
      obtain rfl := Call.reserve.inj hrequest
      simpa [Runtime.reference] using hamount
    fin_cases i
    · have hx := hvalue "6" _ hcall
      rw [show Reference.decimal? "6" = some 6 by decide] at hx
      obtain rfl := Option.some.inj hx
      norm_num
    · have hx := hvalue "5.5" _ hcall
      rw [show Reference.decimal? "5.5" = some (11 / 2) by
        decide +kernel] at hx
      obtain rfl := Option.some.inj hx
      norm_num
    · simp [smallCalls] at hcall
  have honce : CompletedOnce smallCalls := by
    intro i j c d hi hj _
    fin_cases i <;> fin_cases j <;>
      simp_all [smallCalls, smallRequest]
  have hnew : CompletesNew smallLedger smallAccount.id smallCalls := by
    intro i c _ res hmem
    simp [smallLedger, Database.empty] at hmem
  have hclaim := no_overspend Runtime.reference_exact hdb
    (show lookupAccount smallAccount.id smallLedger = some smallAccount by
      decide)
    (show smallAccount.limitAmount = some 10 from rfl) (by norm_num) rfl rfl
    hpositive honce hnew hfinal
  exact ⟨final, hfinal, hclaim⟩

end Financial
end Orvex
