import Orvex.Financial.Calls
import Orvex.Financial.Conservation

/-!
# A financial call that runs alone

A call that runs alone does not find its reservation completed meanwhile.
Where the sums that it writes lose nothing, it keeps the totals of every
account the sums over its reservations.
-/

namespace Orvex
namespace Financial

/-! ## Reservations -/

/-- `ensureAccount` opens an account at most. -/
theorem ensureAccount_state (rt : Runtime) (key : AccountKey)
    (uuid : String) (db : Database) :
    (ensureAccount rt key none uuid db).2 = db ∨
      AccountAllowed (newAccount key none uuid) db ∧
        (ensureAccount rt key none uuid db).2 =
          insertAccount (newAccount key none uuid) db := by
  unfold ensureAccount
  rw [Fallible.query_bind]
  cases hfind : findAccount key db with
  | some existing => exact Or.inl rfl
  | none =>
      simp only [Fallible.attempt_bind]
      rcases createAccount_cases rt key uuid db with ⟨failure, hcreate⟩ |
        ⟨hallowed, hcreate⟩
      · simp only [hcreate, Fallible.query_bind, hfind, Fallible.fail_apply]
        exact Or.inl trivial
      · simp only [hcreate, Fallible.pure_apply]
        exact Or.inr ⟨hallowed, trivial⟩

/-- What `ensureAccount` leaves. -/
def Opened (key : AccountKey) (uuid : String) (db mid : Database) : Prop :=
  mid = db ∨
    AccountAllowed (newAccount key none uuid) db ∧
      mid = insertAccount (newAccount key none uuid) db

section

variable {key : AccountKey} {uuid : String} {db mid : Database}

theorem Opened.reservedTotal (h : Opened key uuid db mid) (id : String) :
    reservedTotal id mid = reservedTotal id db := by
  rcases h with hsame | ⟨hallowed, hopened⟩
  · rw [hsame]
  · rw [hopened]
    exact total_insertAccount _ hallowed.2.1 rfl id

end

/-- A reserve call that fails has opened an account at most. -/
theorem reserve_of_error {rt : Runtime} {input : ReserveInput}
    {accountUuid uuid : String} {db db' : Database} {failure : Failure}
    (h : reserve rt input accountUuid uuid db = (.error failure, db')) :
    db' = (ensureAccount rt input.toAccountKey none accountUuid db).2 := by
  unfold reserve at h
  cases hensure : ensureAccount rt input.toAccountKey none accountUuid db with
  | mk result mid =>
      cases result with
      | error other =>
          rw [Fallible.bind_of_error hensure, Prod.mk.injEq] at h
          exact h.2.symm
      | ok account =>
          rw [Fallible.bind_of_ok hensure] at h
          cases hamount : rt.toDecimal input.amount with
          | none =>
              simp only [hamount, Fallible.ofOption, Fallible.fail_bind,
                Prod.mk.injEq] at h
              exact h.2.symm
          | some amount =>
              simp only [hamount, Fallible.ofOption,
                Fallible.pure_bind_apply] at h
              exact Fallible.transaction_eq_error h

/-- The reserved total of the account of the key, zero before it is opened. -/
def chargedTotal (key : AccountKey) (db : Database) : ℚ :=
  match findAccount key db with
  | some account => reservedTotal account.id db
  | none => 0

/-- The amount of a reserve call and the reserved total with it lose nothing
when they are stored. -/
def ReserveSums (rt : Runtime) (input : ReserveInput) (db : Database) :
    Prop :=
  ∀ x, rt.toDecimal input.amount = some (.finite x) →
    rt.column x = some x ∧
      StoresExactly rt (chargedTotal input.toAccountKey db + x)

theorem reserveSums_of_exact {rt : Runtime} (hexact : rt.Exact)
    (input : ReserveInput) (db : Database) : ReserveSums rt input db :=
  fun x _ => ⟨hexact.column x, storesExactly_of_exact hexact _⟩

/-- The row that is locked shows the reserved total of the key. -/
theorem reserved_of_ensured {rt : Runtime} {key : AccountKey}
    {uuid : String} {db mid : Database} {account row : FinancialAccount}
    (hensure : ensureAccount rt key none uuid db = (.ok account, mid))
    (hrow : lookupAccount account.id mid = some row) :
    row.currentReserved = chargedTotal key db := by
  unfold chargedTotal
  rcases ensureAccount_eq_ok hensure with ⟨hfind, hsame⟩ |
    ⟨hfind, hnew, hallowed, hopened⟩
  · rw [hsame] at hrow
    rw [hfind]
    simp only [reservedTotal, hrow, Option.map_some, Option.getD_some]
  · rw [hopened, lookupAccount_insertAccount, hallowed.2.1, if_pos rfl,
      Option.none_or, Option.some.injEq] at hrow
    rw [hfind, ← hrow, hnew]
    rfl

/-- What a reserve call that succeeds locks, and the total that it stores. -/
structure Locks (rt : Runtime) (input : ReserveInput) (uuid : String)
    (res : FinancialReservation) (row : FinancialAccount) (x reserved : ℚ)
    (db mid db' : Database) : Prop where
  opened : Opened input.toAccountKey uuid db mid
  row_found : lookupAccount row.id mid = some row
  charged : row.currentReserved = chargedTotal input.toAccountKey db
  account : res.financialAccountId = row.id
  amount : rt.toDecimal input.amount = some (.finite x)
  column : rt.column x = some res.amount
  stored : rt.store (.finite (rt.round
    (chargedTotal input.toAccountKey db + x))) = some reserved
  step : Atomic rt (.reserved res) mid db'
  state_eq : db' = updateAccount row.id
    (fun account => { account with currentReserved := reserved })
    (insertReservation res mid)

theorem reserve_locks {rt : Runtime} {input : ReserveInput}
    {accountUuid uuid : String} {db db' : Database}
    {res : FinancialReservation}
    (h : reserve rt input accountUuid uuid db = (.ok res, db')) :
    ∃ row x reserved mid,
      Locks rt input accountUuid res row x reserved db mid db' := by
  obtain ⟨account, mid, hensure, row, amount, stored, change, hreserved⟩ :=
    reserve_eq_ok h
  have hopened : Opened input.toAccountKey accountUuid db mid := by
    have hstate := ensureAccount_state rt input.toAccountKey accountUuid db
    rw [hensure] at hstate
    exact hstate
  have hid : row.id = account.id :=
    KeyedTable.key_of_lookup hreserved.row_found
  have hrow : lookupAccount row.id mid = some row := by
    rw [hid]
    exact hreserved.row_found
  have hres := hreserved.res_eq
  obtain ⟨x, hx, hcolumn⟩ :=
    Runtime.storeText_eq_some hreserved.amount_stored
  have hamount : amount = .finite x :=
    Option.some.inj (hreserved.amount_read.symm.trans hx)
  have hcharged := reserved_of_ensured hensure hreserved.row_found
  obtain ⟨reserved, hstore, hchange⟩ :=
    reserveChange_eq_some hreserved.row_change
  rw [hamount, Decimal.plus_finite, hcharged] at hstore
  have hgrant : Grant rt row amount res := by
    rw [hres]
    exact
      { text := ⟨input.amount, hreserved.amount_read,
          hreserved.amount_stored, hreserved.accepted⟩
        account := hid.symm
        status := rfl }
  have hstate : db' = updateAccount row.id change
      (insertReservation res mid) := by
    rw [hid]
    exact hreserved.state_eq
  have hstep : Atomic rt (.reserved res) mid db' := by
    rw [hstate]
    exact .reserved hrow hreserved.allowed.2 hgrant hreserved.row_change
  exact ⟨row, x, reserved, mid,
    { opened := hopened
      row_found := hrow
      charged := hcharged
      account := by
        rw [hres, hid]
        rfl
      amount := hx
      column := by
        rw [hres]
        exact hcolumn
      stored := hstore
      step := hstep
      state_eq := by
        rw [hstate, hchange] }⟩

namespace Locks

variable {rt : Runtime} {input : ReserveInput} {uuid : String}
  {res : FinancialReservation} {row : FinancialAccount} {x reserved : ℚ}
  {db mid db' : Database}

/-- A total of an account, before and after. -/
theorem total (h : Locks rt input uuid res row x reserved db mid db')
    (f : FinancialAccount → ℚ) (id : String) :
    ((lookupAccount id db').map f).getD 0 =
      ((lookupAccount id mid).map f).getD 0 +
        (if row.id = id then
          f { row with currentReserved := reserved } - f row else 0) := by
  have hkeep : KeyedTable.KeepsKey FinancialAccount.id
      (fun account => { account with currentReserved := reserved }) :=
    fun _ => rfl
  have hrow : lookupAccount row.id (insertReservation res mid) =
      some row := by
    rw [lookupAccount_insertReservation]
    exact h.row_found
  rw [h.state_eq, total_updateAccount f hkeep hrow,
    lookupAccount_insertReservation]

/-- The reserved total of the account, before and after. -/
theorem reservedTotals
    (h : Locks rt input uuid res row x reserved db mid db') :
    reservedTotal res.financialAccountId db =
        chargedTotal input.toAccountKey db ∧
      reservedTotal res.financialAccountId db' = reserved := by
  have hbefore : reservedTotal row.id mid = row.currentReserved := by
    unfold reservedTotal
    rw [h.row_found]
    rfl
  rw [h.account]
  constructor
  · rw [← h.opened.reservedTotal, hbefore, h.charged]
  · have hafter := h.total FinancialAccount.currentReserved row.id
    change reservedTotal row.id db' = reservedTotal row.id mid + _ at hafter
    rw [hafter, hbefore, if_pos rfl, add_sub_cancel]

end Locks

/-- The reserved total with the amount, as it is stored, is above the
reserved total. -/
def Lifts (rt : Runtime) (input : ReserveInput) (db : Database) : Prop :=
  ∃ x reserved, rt.toDecimal input.amount = some (.finite x) ∧
    rt.store (.finite (rt.round (chargedTotal input.toAccountKey db + x))) =
      some reserved ∧
    chargedTotal input.toAccountKey db < reserved

theorem lifts_iff_of_sums {rt : Runtime} {input : ReserveInput}
    {db : Database} (hsums : ReserveSums rt input db) :
    Lifts rt input db ↔
      ∃ x, rt.toDecimal input.amount = some (.finite x) ∧ 0 < x := by
  constructor
  · intro ⟨x, reserved, hx, hstored, hlt⟩
    have htotal : reserved = chargedTotal input.toAccountKey db + x :=
      Option.some.inj (hstored.symm.trans (hsums x hx).2)
    exact ⟨x, hx, by linarith⟩
  · intro ⟨x, hx, hpositive⟩
    exact ⟨x, _, hx, (hsums x hx).2, by linarith⟩

/-- A reserve call that succeeds raises the reserved total of its account by
its amount. -/
structure Raises (rt : Runtime) (input : ReserveInput) (uuid : String)
    (res : FinancialReservation) (db db' : Database) : Prop where
  amount : rt.toDecimal input.amount = some (.finite res.amount)
  opened : ∃ mid, Opened input.toAccountKey uuid db mid ∧
    Atomic rt (.reserved res) mid db' ∧
    (Effect.reserved res).Counted mid db'

theorem reserve_raises {rt : Runtime} {input : ReserveInput}
    {accountUuid uuid : String} {db db' : Database}
    {res : FinancialReservation} (hsums : ReserveSums rt input db)
    (h : reserve rt input accountUuid uuid db = (.ok res, db')) :
    Raises rt input accountUuid res db db' := by
  obtain ⟨row, x, reserved, mid, hlocks⟩ := reserve_locks h
  obtain ⟨hkept, hsum⟩ := hsums x hlocks.amount
  have hstored : res.amount = x :=
    Option.some.inj (hlocks.column.symm.trans hkept)
  have htotal : reserved = row.currentReserved + res.amount := by
    rw [hlocks.charged, hstored]
    exact Option.some.inj (hlocks.stored.symm.trans hsum)
  refine ⟨by rw [hlocks.amount, hstored], mid, hlocks.opened, hlocks.step,
    ?_⟩
  intro id
  constructor
  · have hreserved := hlocks.total FinancialAccount.currentReserved id
    rw [htotal, add_sub_cancel_left, ← hlocks.account] at hreserved
    exact hreserved
  · have hcommitted := hlocks.total FinancialAccount.currentCommitted id
    rw [sub_self, ite_self] at hcommitted
    exact hcommitted

theorem Raises.reservedTotal {rt : Runtime} {input : ReserveInput}
    {uuid : String} {res : FinancialReservation} {db db' : Database}
    (h : Raises rt input uuid res db db') (id : String) :
    reservedTotal id db' = reservedTotal id db +
      (if res.financialAccountId = id then res.amount else 0) := by
  obtain ⟨mid, hopened, _, hcounted⟩ := h.opened
  rw [(hcounted id).1, hopened.reservedTotal]
  rfl

/-- A reserve call leaves an account that it opened, or raises a total. -/
theorem reserve_cases {rt : Runtime} {input : ReserveInput} {db : Database}
    (hsums : ReserveSums rt input db) (accountUuid uuid : String) :
    Opened input.toAccountKey accountUuid db
        (reserve rt input accountUuid uuid db).2 ∨
      ∃ res, Raises rt input accountUuid res db
        (reserve rt input accountUuid uuid db).2 := by
  cases hrun : reserve rt input accountUuid uuid db with
  | mk result db' =>
      cases result with
      | error failure =>
          rw [reserve_of_error hrun]
          exact Or.inl (ensureAccount_state rt input.toAccountKey accountUuid
            db)
      | ok res => exact Or.inr ⟨res, reserve_raises hsums hrun⟩

theorem open_of_accepted {kind : Completion} {id : String}
    {status : ReservationStatus} (haccepted : kind.refusal id status = none)
    (hfinal : status ≠ kind.final) : Open status := by
  cases kind <;> cases status <;>
    simp_all [Completion.refusal, Completion.final, Open]

/-- What a completion that writes read. -/
structure Completes (rt : Runtime) (kind : Completion)
    (companyId reservationId : String) (res : FinancialReservation)
    (row : FinancialAccount) (change : FinancialAccount → FinancialAccount)
    (db : Database) : Prop where
  found : findReservation companyId reservationId db = some res
  accepted : kind.refusal reservationId res.status = none
  unfinished : res.status ≠ kind.final
  row_found : lookupAccount res.financialAccountId db = some row
  row_change : kind.accountChange rt row res.amount = some change

/-- The state that a completion leaves when it writes. -/
def completedState (kind : Completion) (now : ℤ)
    (res : FinancialReservation)
    (change : FinancialAccount → FinancialAccount) (db : Database) :
    Database :=
  updateReservation res.id (kind.settle now)
    (updateAccount res.financialAccountId change db)

theorem lookupReservation_of_found {db : Database} (hdb : WellFormed db)
    {companyId reservationId : String} {res : FinancialReservation}
    (hfound : findReservation companyId reservationId db = some res) :
    lookupReservation res.id db = some res :=
  KeyedTable.lookup_of_mem hdb.reservations (List.mem_of_find?_eq_some hfound)

/-- A completion settles its reservation, or leaves everything as it was: it
fails, or finds the reservation settled. -/
theorem Completion.run_cases (rt : Runtime) (kind : Completion)
    (companyId reservationId : String) (now : ℤ) {db : Database}
    (hdb : WellFormed db) :
    (∃ res row change,
      Completes rt kind companyId reservationId res row change db ∧
        kind.run rt companyId reservationId now db =
          (.ok (kind.settle now res), completedState kind now res change
            db)) ∨
    (∃ res, findReservation companyId reservationId db = some res ∧
      res.status = kind.final ∧
        kind.run rt companyId reservationId now db = (.ok res, db)) ∨
    ∃ failure, kind.run rt companyId reservationId now db =
      (.error failure, db) := by
  cases hrun : kind.run rt companyId reservationId now db with
  | mk result db' =>
      cases result with
      | error failure =>
          unfold Completion.run at hrun
          rw [Fallible.transaction_eq_error hrun]
          exact Or.inr (Or.inr ⟨failure, rfl⟩)
      | ok settled =>
          unfold Completion.run at hrun
          rw [Fallible.transaction_eq_ok, Fallible.query_bind] at hrun
          cases hfound : findReservation companyId reservationId db with
          | none => simp [hfound] at hrun
          | some res =>
              simp only [hfound] at hrun
              split at hrun
              next hfinal =>
                rw [Fallible.pure_apply, Prod.mk.injEq, Except.ok.injEq] at hrun
                exact Or.inr (Or.inl ⟨res, rfl, hfinal, by
                  rw [← hrun.1, ← hrun.2]⟩)
              next hfinal =>
                cases haccepted : kind.refusal reservationId res.status with
                | some refusal => simp [haccepted] at hrun
                | none =>
                    simp only [haccepted, Fallible.query_bind] at hrun
                    cases hrow : lookupAccount res.financialAccountId db with
                    | none => simp [hrow] at hrun
                    | some row =>
                        simp only [hrow] at hrun
                        obtain ⟨change, mid, hchange, hrun⟩ :=
                          Fallible.bind_eq_ok.mp hrun
                        obtain ⟨hwrite, rfl⟩ :=
                          Fallible.ofOption_eq_ok.mp hchange
                        rw [Fallible.change_bind, writeReservation,
                          Fallible.query_bind] at hrun
                        have hlookup := lookupReservation_of_found hdb hfound
                        simp only [lookupReservation_updateAccount, hlookup,
                          Fallible.change_bind, Fallible.pure_apply,
                          Prod.mk.injEq, Except.ok.injEq] at hrun
                        refine Or.inl ⟨res, row, change,
                          ⟨hfound, haccepted, hfinal, hrow, hwrite⟩, ?_⟩
                        rw [← hrun.1, ← hrun.2]
                        rfl

theorem recorded_of_lookup {db : Database} {res : FinancialReservation}
    (hlookup : lookupReservation res.id db = some res) : Recorded res db :=
  ⟨res, hlookup, rfl, rfl⟩

theorem Completes.atomic {rt : Runtime} {kind : Completion}
    {companyId reservationId : String} {res : FinancialReservation}
    {row : FinancialAccount} {change : FinancialAccount → FinancialAccount}
    {db : Database} (hdb : WellFormed db)
    (h : Completes rt kind companyId reservationId res row change db)
    (now : ℤ) :
    Atomic rt (.completed kind res) db
      (completedState kind now res change db) := by
  have hlookup := lookupReservation_of_found hdb h.found
  have hid : row.id = res.financialAccountId :=
    KeyedTable.key_of_lookup h.row_found
  have hrow : lookupAccount row.id db = some row := by
    rw [hid]
    exact h.row_found
  unfold completedState
  rw [← hid]
  exact .completed hrow hid.symm (recorded_of_lookup hlookup) h.row_change

theorem Completes.counted {rt : Runtime} {kind : Completion}
    {companyId reservationId : String} {res : FinancialReservation}
    {row : FinancialAccount} {change : FinancialAccount → FinancialAccount}
    {db : Database}
    (h : Completes rt kind companyId reservationId res row change db)
    (hsums : CompletionSums rt kind row res.amount) (now : ℤ) :
    (Effect.completed kind res).Counted db
      (completedState kind now res change db) := by
  have hid : row.id = res.financialAccountId :=
    KeyedTable.key_of_lookup h.row_found
  have hrow : lookupAccount row.id db = some row := by
    rw [hid]
    exact h.row_found
  have hkeep := (totalsOnly_accountChange h.row_change).keepsKey
  obtain ⟨hreserved, hcommitted, -⟩ :=
    accountChange_of_sums hsums h.row_change row
  intro id
  unfold completedState reservedTotal committedTotal
  rw [lookupAccount_updateReservation, ← hid,
    total_updateAccount _ hkeep hrow, total_updateAccount _ hkeep hrow,
    hreserved, hcommitted]
  constructor
  · simp only [Effect.reservedChange, hid, sub_sub_cancel_left]
  · cases kind with
    | commit => simp [Effect.committedChange, hid]
    | release => simp [Effect.committedChange]
    | reconcileRelease => simp [Effect.committedChange]

/-- A completion that reads what `Completes` says writes it. -/
theorem Completion.run_of_completes {rt : Runtime} {kind : Completion}
    {companyId reservationId : String} {res : FinancialReservation}
    {row : FinancialAccount} {change : FinancialAccount → FinancialAccount}
    {db : Database} (hdb : WellFormed db)
    (h : Completes rt kind companyId reservationId res row change db)
    (now : ℤ) :
    kind.run rt companyId reservationId now db =
      (.ok (kind.settle now res), completedState kind now res change db) := by
  have hlookup := lookupReservation_of_found hdb h.found
  unfold Completion.run
  rw [Fallible.transaction_eq_ok, Fallible.query_bind]
  simp only [h.found, if_neg h.unfinished, h.accepted, Fallible.query_bind,
    h.row_found, h.row_change, Fallible.ofOption, Fallible.pure_bind_apply]
  rw [Fallible.change_bind, writeReservation, Fallible.query_bind]
  simp only [lookupReservation_updateAccount, hlookup, Fallible.change_bind,
    Fallible.pure_apply]
  rfl

/-- The sums that a completion of the reservation would write lose
nothing. -/
def HoldSums (rt : Runtime) (kind : Completion) (res : FinancialReservation)
    (db : Database) : Prop :=
  ∀ row, lookupAccount res.financialAccountId db = some row →
    CompletionSums rt kind row res.amount

/-- A reservation that may be completed is completed. -/
theorem completes_of_sums {rt : Runtime} {kind : Completion}
    {companyId reservationId : String} {res : FinancialReservation}
    {db : Database} (hsums : HoldSums rt kind res db) (hdb : WellFormed db)
    (hfound : findReservation companyId reservationId db = some res)
    (haccepted : kind.refusal reservationId res.status = none)
    (hunfinished : res.status ≠ kind.final) :
    ∃ row change,
      Completes rt kind companyId reservationId res row change db := by
  have hmem := List.mem_of_find?_eq_some hfound
  obtain ⟨row, hrow⟩ :=
    Option.ne_none_iff_exists'.mp (hdb.foreignKey res hmem)
  obtain ⟨change, hchange⟩ := exists_change_of_sums (hsums row hrow)
  exact ⟨row, change, hfound, haccepted, hunfinished, hrow, hchange⟩

theorem balanced_completion {rt : Runtime} {kind : Completion}
    {companyId reservationId : String} {db : Database}
    (hsums : ∀ res, findReservation companyId reservationId db = some res →
      HoldSums rt kind res db) (hdb : WellFormed db)
    (hconserved : Conserved db) (now : ℤ) :
    WellFormed (kind.run rt companyId reservationId now db).2 ∧
      Conserved (kind.run rt companyId reservationId now db).2 := by
  rcases Completion.run_cases rt kind companyId reservationId now hdb with
    ⟨res, row, change, hcompletes, hrun⟩ | ⟨res, _, _, hrun⟩ |
      ⟨failure, hrun⟩
  · have hstep := hcompletes.atomic hdb now
    have hlookup := lookupReservation_of_found hdb hcompletes.found
    have hopen := open_of_accepted hcompletes.accepted hcompletes.unfinished
    have hcounted := hcompletes.counted
      (hsums res hcompletes.found row hcompletes.row_found) now
    rw [hrun]
    exact ⟨hstep.wellFormed hdb, hstep.conserved hdb hconserved
      ⟨res, hlookup, hopen⟩ hcounted⟩
  · rw [hrun]
    exact ⟨hdb, hconserved⟩
  · rw [hrun]
    exact ⟨hdb, hconserved⟩

/-! ## Unknown outcomes -/

/-- `markUnknown` marks an open reservation, or leaves everything as it
was. -/
theorem markUnknown_cases (companyId reservationId : String)
    {db : Database} (hdb : WellFormed db) :
    (∃ res, findReservation companyId reservationId db = some res ∧
      Open res.status ∧
        markUnknown companyId reservationId db =
          (.ok (setUnknown res), updateReservation res.id setUnknown db)) ∨
    ∃ failure, markUnknown companyId reservationId db =
      (.error failure, db) := by
  unfold markUnknown
  rw [Fallible.query_bind]
  cases hfound : findReservation companyId reservationId db with
  | none => exact Or.inr ⟨_, rfl⟩
  | some res =>
      simp only
      cases hrefusal : unknownRefusal reservationId res.status with
      | some refusal => exact Or.inr ⟨refusal, rfl⟩
      | none =>
          have hlookup := lookupReservation_of_found hdb hfound
          have hopen : Open res.status := by
            cases hstatus : res.status <;>
              simp_all [unknownRefusal, Open]
          refine Or.inl ⟨res, rfl, hopen, ?_⟩
          simp only [writeReservation]
          rw [Fallible.query_bind, hlookup]
          rfl

theorem keeps_balanced_markUnknown (rt : Runtime)
    (companyId reservationId : String) :
    Fallible.Keeps (fun db => WellFormed db ∧ Conserved db)
      (markUnknown companyId reservationId) := by
  intro db h
  obtain ⟨hdb, hconserved⟩ := h
  rcases markUnknown_cases companyId reservationId hdb with
    ⟨res, hfound, hopen, hrun⟩ | ⟨failure, hrun⟩
  · have hlookup := lookupReservation_of_found hdb hfound
    have hstep : Atomic rt (.marked res) db
        (updateReservation res.id setUnknown db) :=
      .marked (recorded_of_lookup hlookup)
    rw [hrun]
    exact ⟨hstep.wellFormed hdb, hstep.conserved hdb hconserved
      ⟨res, hlookup, hopen⟩ counted_marked⟩
  · rw [hrun]
    exact ⟨hdb, hconserved⟩

end Financial
end Orvex
