import Orvex.Financial.Statements
import Orvex.Financial.Atomic

/-!
# Concurrent calls publish effects one at a time

The invariant says what every unfinished call knows and holds: the rows it
has locked are as it read them, and its unfinished writes are those of its
transaction so far.  A commit therefore publishes one atomic effect, and a
schedule of statements is a run of atomic effects.
-/

namespace Orvex
namespace Financial

open ReadCommitted

/-! ## The rows a write names -/

inductive Observation where
  | account (row : Option FinancialAccount)
  | reservation (row : Option FinancialReservation)
  | bucket (id : Option String)

def observe : RowKey → Database → Observation
  | .account id, db => .account (lookupAccount id db)
  | .reservation id, db => .reservation (lookupReservation id db)
  | .bucket companyId scope scopeKey asset network, db =>
      .bucket ((db.financialAccounts.find? (fun account =>
        account.companyId = companyId ∧ account.scope = scope ∧
          account.scopeKey = scopeKey ∧ account.asset = asset ∧
          account.network = some network)).map FinancialAccount.id)

theorem frames_insertAccount (account : FinancialAccount) :
    Write.Frames observe
      ⟨.account account.id :: bucketKeys account, insertAccount account⟩ := by
  intro key hkey db
  rw [List.mem_cons, not_or] at hkey
  cases key with
  | account id =>
      have hne : ¬ account.id = id := fun h => hkey.1 (by rw [h])
      simp [observe, lookupAccount_insertAccount, hne]
  | reservation id => rfl
  | bucket companyId scope scopeKey asset network =>
      have hne : ¬ (account.companyId = companyId ∧ account.scope = scope ∧
          account.scopeKey = scopeKey ∧ account.asset = asset ∧
          account.network = some network) := by
        rintro ⟨h1, h2, h3, h4, h5⟩
        apply hkey.2
        simp [bucketKeys, h1, h2, h3, h4, h5]
      simp only [observe, insertAccount, List.find?_append]
      congr 2
      simp [hne]

theorem frames_insertReservation (res : FinancialReservation) :
    Write.Frames observe ⟨[.reservation res.id], insertReservation res⟩ := by
  intro key hkey db
  rw [List.mem_singleton] at hkey
  cases key with
  | account id => rfl
  | reservation id =>
      have hne : ¬ res.id = id := fun h => hkey (by rw [h])
      simp [observe, lookupReservation_insertReservation, hne]
  | bucket companyId scope scopeKey asset network => rfl

theorem frames_updateAccount (id : String)
    {change : FinancialAccount → FinancialAccount}
    (hchange : TotalsOnly change) :
    Write.Frames observe ⟨[.account id], updateAccount id change⟩ := by
  intro key hkey db
  rw [List.mem_singleton] at hkey
  cases key with
  | account other =>
      have hne : ¬ other = id := fun h => hkey (by rw [h])
      simp [observe, lookupAccount_updateAccount db hchange.keepsKey, hne]
  | reservation other => rfl
  | bucket companyId scope scopeKey asset network =>
      have hsame : ∀ account,
          (if account.id = id then change account else account) =
            { account with
              currentReserved :=
                (if account.id = id then change account
                  else account).currentReserved
              currentCommitted :=
                (if account.id = id then change account
                  else account).currentCommitted } := by
        intro account
        split
        · exact hchange account
        · rfl
      simp only [observe, updateAccount, KeyedTable.modify, List.find?_map,
        Option.map_map]
      congr 1
      have hpred : ∀ account : FinancialAccount,
          ((fun account : FinancialAccount => decide
              (account.companyId = companyId ∧ account.scope = scope ∧
                account.scopeKey = scopeKey ∧ account.asset = asset ∧
                account.network = some network)) ∘
            fun account =>
              if account.id = id then change account else account) account =
            decide (account.companyId = companyId ∧ account.scope = scope ∧
              account.scopeKey = scopeKey ∧ account.asset = asset ∧
              account.network = some network) := by
        intro account
        simp only [Function.comp_apply]
        rw [hsame account]
      have hid : ∀ account : FinancialAccount,
          (FinancialAccount.id ∘ fun account =>
            if account.id = id then change account else account) account =
              account.id := by
        intro account
        simp only [Function.comp_apply]
        rw [hsame account]
      rw [funext hpred, funext hid]

theorem frames_updateReservation (id : String)
    {change : FinancialReservation → FinancialReservation}
    (hkeep : KeyedTable.KeepsKey FinancialReservation.id change) :
    Write.Frames observe
      ⟨[.reservation id], updateReservation id change⟩ := by
  intro key hkey db
  rw [List.mem_singleton] at hkey
  cases key with
  | account other => rfl
  | reservation other =>
      have hne : ¬ other = id := fun h => hkey (by rw [h])
      simp [observe, lookupReservation_updateReservation db hkeep, hne]
  | bucket companyId scope scopeKey asset network => rfl

/-! ## The statement at each point -/

section

variable {rt : Runtime} {pc : Pc}

theorem stmt_eq_read {next : Database → Pc}
    (h : stmt rt pc = .read next) :
    (∃ call, pc = .ensureFind call ∧
      next = ensureFound rt call (.ensureCreate call)) ∨
    (∃ call, pc = .ensureReread call ∧
      next = ensureFound rt call (.finished (.error
        (.of .internalError "Failed to ensure financial account." [])))) ∨
    (∃ call, pc = .load call ∧ next = loaded call) ∨
    (∃ companyId reservationId,
      pc = .unknownFind companyId reservationId ∧
        next = unknownFound companyId reservationId) := by
  cases pc <;> simp [stmt] at h
  case ensureFind call => exact .inl ⟨call, rfl, h.symm⟩
  case ensureReread call => exact .inr (.inl ⟨call, rfl, h.symm⟩)
  case load call => exact .inr (.inr (.inl ⟨call, rfl, h.symm⟩))
  case unknownFind companyId reservationId =>
    exact .inr (.inr (.inr ⟨companyId, reservationId, rfl, h.symm⟩))

theorem stmt_eq_lock {key : RowKey} {next : Database → Pc}
    (h : stmt rt pc = .lock key next) :
    (∃ call accountId amount, pc = .reserveLock call accountId amount ∧
      key = .account accountId ∧
      next = reserveLocked rt call accountId amount) ∨
    (∃ call res, pc = .lockAccount call res ∧
      key = .account res.financialAccountId ∧
      next = totalsLocked call res) := by
  cases pc <;> simp [stmt] at h
  case reserveLock call accountId amount =>
    exact .inl ⟨call, accountId, amount, rfl, h.1.symm, h.2.symm⟩
  case lockAccount call res =>
    exact .inr ⟨call, res, rfl, h.1.symm, h.2.symm⟩

theorem stmt_eq_write
    {plan : Database → Option (Write Database RowKey × Pc)} {failed : Pc}
    (h : stmt rt pc = .write plan failed) :
    (∃ call, pc = .ensureCreate call ∧ plan = planAccount call ∧
      failed = .ensureReread call) ∨
    (∃ call row amount, pc = .reserveInsert call row amount ∧
      plan = planReservation rt call row amount ∧
      failed = .abort .constraint) ∨
    (∃ call row amount res, pc = .reserveUpdate call row amount res ∧
      plan = (fun _ => planReserved rt call row amount res) ∧
      failed = .abort .decimal) ∨
    (∃ call res row, pc = .updateTotals call res row ∧
      plan = (fun _ => planTotals rt call res row) ∧
      failed = .abort .decimal) ∨
    (∃ call res, pc = .updateStatus call res ∧
      plan = planStatus res.id (call.kind.settle call.now)
        (.commitCompletion call res) ∧
      failed = .abort .recordNotFound) ∨
    (∃ res, pc = .unknownUpdate res ∧
      plan = planStatus res.id setUnknown (.unknownCommit res) ∧
      failed = .abort .recordNotFound) := by
  cases pc <;> simp [stmt] at h
  case ensureCreate call => exact .inl ⟨call, rfl, h.1.symm, h.2.symm⟩
  case reserveInsert call row amount =>
    exact .inr (.inl ⟨call, row, amount, rfl, h.1.symm, h.2.symm⟩)
  case reserveUpdate call row amount res =>
    exact .inr (.inr (.inl
      ⟨call, row, amount, res, rfl, h.1.symm, h.2.symm⟩))
  case updateTotals call res row =>
    exact .inr (.inr (.inr (.inl
      ⟨call, res, row, rfl, h.1.symm, h.2.symm⟩)))
  case updateStatus call res =>
    exact .inr (.inr (.inr (.inr (.inl
      ⟨call, res, rfl, h.1.symm, h.2.symm⟩))))
  case unknownUpdate res =>
    exact .inr (.inr (.inr (.inr (.inr ⟨res, rfl, h.1.symm, h.2.symm⟩))))

theorem stmt_eq_commit {next : Pc} (h : stmt rt pc = .commit next) :
    (∃ call account, pc = .ensureCommit call account ∧
      next = afterEnsure rt call account.id) ∨
    (∃ call res, pc = .reserveCommit call res ∧
      next = .finished (.ok res)) ∨
    (∃ res, pc = .commitUnchanged res ∧ next = .finished (.ok res)) ∨
    (∃ call res settled, pc = .commitCompletion call res settled ∧
      next = .finished (.ok settled)) ∨
    (∃ res marked, pc = .unknownCommit res marked ∧
      next = .finished (.ok marked)) := by
  cases pc <;> simp [stmt] at h
  case ensureCommit call account =>
    exact .inl ⟨call, account, rfl, h.symm⟩
  case reserveCommit call res => exact .inr (.inl ⟨call, res, rfl, h.symm⟩)
  case commitUnchanged res =>
    exact .inr (.inr (.inl ⟨res, rfl, h.symm⟩))
  case commitCompletion call res settled =>
    exact .inr (.inr (.inr (.inl ⟨call, res, settled, rfl, h.symm⟩)))
  case unknownCommit res marked =>
    exact .inr (.inr (.inr (.inr ⟨res, marked, rfl, h.symm⟩)))

theorem stmt_eq_rollback {next : Pc} (h : stmt rt pc = .rollback next) :
    ∃ failure, pc = .abort failure ∧ next = .finished (.error failure) := by
  cases pc <;> simp [stmt] at h
  case abort failure => exact ⟨failure, rfl, h.symm⟩

end

section

variable {rt : Runtime} {db : Database} {write : Write Database RowKey}
  {next : Pc}

theorem planAccount_eq_some {call : ReserveCall}
    (h : planAccount call db = some (write, next)) :
    ∃ account,
      account = newAccount call.input.toAccountKey none call.accountUuid ∧
      AccountAllowed account db ∧
      write =
        ⟨.account account.id :: bucketKeys account, insertAccount account⟩ ∧
      next = .ensureCommit call account := by
  unfold planAccount at h
  simp only [Option.ite_none_right_eq_some, Option.some.injEq,
    Prod.mk.injEq] at h
  exact ⟨_, rfl, h.1, h.2.1.symm, h.2.2.symm⟩

theorem planReservation_eq_some {call : ReserveCall}
    {row : FinancialAccount} {amount : Decimal}
    (h : planReservation rt call row amount db = some (write, next)) :
    ∃ stored res, rt.storeText call.input.amount = some stored ∧
      res = newReservation call.input row.id stored call.uuid ∧
      ReservationAllowed res db ∧
      write = ⟨[.reservation res.id], insertReservation res⟩ ∧
      next = .reserveUpdate call row amount res := by
  unfold planReservation at h
  split at h
  next => contradiction
  next stored hstored =>
    simp only [Option.ite_none_right_eq_some, Option.some.injEq,
      Prod.mk.injEq] at h
    exact ⟨stored, _, hstored, rfl, h.1, h.2.1.symm, h.2.2.symm⟩

theorem planReserved_eq_some {call : ReserveCall} {row : FinancialAccount}
    {amount : Decimal} {res : FinancialReservation}
    (h : planReserved rt call row amount res = some (write, next)) :
    ∃ change, reserveChange rt row amount = some change ∧
      write = ⟨[.account row.id], updateAccount row.id change⟩ ∧
      next = .reserveCommit call res := by
  simp only [planReserved, Option.map_eq_some_iff, Prod.mk.injEq] at h
  obtain ⟨change, hchange, hwrite, hnext⟩ := h
  exact ⟨change, hchange, hwrite.symm, hnext.symm⟩

theorem planTotals_eq_some {call : CompletionCall}
    {res : FinancialReservation} {row : FinancialAccount}
    (h : planTotals rt call res row = some (write, next)) :
    ∃ change, call.kind.accountChange rt row res.amount = some change ∧
      write = ⟨[.account row.id], updateAccount row.id change⟩ ∧
      next = .updateStatus call res := by
  simp only [planTotals, Option.map_eq_some_iff, Prod.mk.injEq] at h
  obtain ⟨change, hchange, hwrite, hnext⟩ := h
  exact ⟨change, hchange, hwrite.symm, hnext.symm⟩

theorem planStatus_eq_some {id : String}
    {change : FinancialReservation → FinancialReservation}
    {after : FinancialReservation → Pc}
    (h : planStatus id change after db = some (write, next)) :
    ∃ current, lookupReservation id db = some current ∧
      write = ⟨[.reservation id], updateReservation id change⟩ ∧
      next = after (change current) := by
  simp only [planStatus, Option.map_eq_some_iff, Prod.mk.injEq] at h
  obtain ⟨current, hcurrent, hwrite, hnext⟩ := h
  exact ⟨current, hcurrent, hwrite.symm, hnext.symm⟩

end

/-- Every write of a financial call names the rows it changes. -/
theorem program_frames (rt : Runtime) : (program rt).Frames observe := by
  intro pc plan failed hstmt db write next hplan
  rcases stmt_eq_write hstmt with ⟨call, _, hp, _⟩ |
    ⟨call, row, amount, _, hp, _⟩ | ⟨call, row, amount, res, _, hp, _⟩ |
    ⟨call, res, row, _, hp, _⟩ | ⟨call, res, _, hp, _⟩ | ⟨res, _, hp, _⟩ <;>
    subst hp
  · obtain ⟨account, _, _, rfl, _⟩ := planAccount_eq_some hplan
    exact frames_insertAccount account
  · obtain ⟨_, res, _, _, _, rfl, _⟩ := planReservation_eq_some hplan
    exact frames_insertReservation res
  · obtain ⟨change, hchange, rfl, _⟩ := planReserved_eq_some hplan
    exact frames_updateAccount _ (totalsOnly_reserveChange hchange)
  · obtain ⟨change, hchange, rfl, _⟩ := planTotals_eq_some hplan
    exact frames_updateAccount _ (totalsOnly_accountChange hchange)
  · obtain ⟨current, _, rfl, _⟩ := planStatus_eq_some hplan
    exact frames_updateReservation _ (sameHold_settle _ _).keepsKey
  · obtain ⟨current, _, rfl, _⟩ := planStatus_eq_some hplan
    exact frames_updateReservation _ sameHold_setUnknown.keepsKey

/-! ## What an unfinished call knows and holds -/

/-- The account row is locked and as the call read it. -/
def Locked (held : List RowKey) (db : Database) (row : FinancialAccount) :
    Prop :=
  .account row.id ∈ held ∧ lookupAccount row.id db = some row

def SessionInv (rt : Runtime) (held : List RowKey)
    (pending : List (Write Database RowKey)) (db : Database) : Pc → Prop
  | .ensureCommit _ account =>
      pending = [⟨.account account.id :: bucketKeys account,
        insertAccount account⟩] ∧
      .account account.id ∈ held ∧ lookupAccount account.id db = none ∧
      account.currentReserved = 0 ∧ account.currentCommitted = 0
  | .reserveLock call _ amount =>
      pending = [] ∧ rt.toDecimal call.input.amount = some amount
  | .reserveInsert call row amount =>
      pending = [] ∧ Locked held db row ∧
      rt.toDecimal call.input.amount = some amount ∧
      budgetRefusal rt call.input.amount amount row = none
  | .reserveUpdate _ row amount res =>
      pending = [⟨[.reservation res.id], insertReservation res⟩] ∧
      Locked held db row ∧ Grant rt row amount res ∧
      .reservation res.id ∈ held ∧ lookupReservation res.id db = none
  | .reserveCommit _ res =>
      ∃ row amount change,
        pending = [⟨[.reservation res.id], insertReservation res⟩,
          ⟨[.account row.id], updateAccount row.id change⟩] ∧
        Locked held db row ∧ Grant rt row amount res ∧
        .reservation res.id ∈ held ∧ lookupReservation res.id db = none ∧
        reserveChange rt row amount = some change
  | .lockAccount _ res => pending = [] ∧ Recorded res db
  | .updateTotals _ res row =>
      pending = [] ∧ Locked held db row ∧
      res.financialAccountId = row.id ∧ Recorded res db
  | .updateStatus call res =>
      ∃ row change,
        pending = [⟨[.account row.id], updateAccount row.id change⟩] ∧
        Locked held db row ∧ res.financialAccountId = row.id ∧
        Recorded res db ∧
        call.kind.accountChange rt row res.amount = some change
  | .commitCompletion call res _ =>
      ∃ row change,
        pending = [⟨[.account row.id], updateAccount row.id change⟩,
          ⟨[.reservation res.id],
            updateReservation res.id (call.kind.settle call.now)⟩] ∧
        Locked held db row ∧ res.financialAccountId = row.id ∧
        Recorded res db ∧
        call.kind.accountChange rt row res.amount = some change
  | .unknownUpdate res => pending = [] ∧ Recorded res db
  | .unknownCommit res _ =>
      pending = [⟨[.reservation res.id],
        updateReservation res.id setUnknown⟩] ∧ Recorded res db
  | .abort _ => True
  | _ => pending = []

theorem Locked.transfer {held : List RowKey} {db db' : Database}
    {row : FinancialAccount} (hlocked : Locked held db row)
    (hobserve : ∀ key ∈ held, observe key db' = observe key db) :
    Locked held db' row := by
  have hsame := hobserve _ hlocked.1
  simp only [observe, Observation.account.injEq] at hsame
  exact ⟨hlocked.1, hsame.trans hlocked.2⟩

/-- What a call knows survives changes to rows that it does not hold. -/
theorem SessionInv.transfer {rt : Runtime} {held : List RowKey}
    {pending : List (Write Database RowKey)} {db db' : Database} {pc : Pc}
    (hsession : SessionInv rt held pending db pc)
    (hobserve : ∀ key ∈ held, observe key db' = observe key db)
    (hrecorded : ∀ res, Recorded res db → Recorded res db') :
    SessionInv rt held pending db' pc := by
  have hreservation : ∀ id, .reservation id ∈ held →
      lookupReservation id db = none → lookupReservation id db' = none := by
    intro id hheld hnone
    have hsame := hobserve _ hheld
    simp only [observe, Observation.reservation.injEq] at hsame
    exact hsame.trans hnone
  cases pc with
  | ensureCommit call account =>
      obtain ⟨hpending, hheld, hnone, hzero⟩ := hsession
      have hsame := hobserve _ hheld
      simp only [observe, Observation.account.injEq] at hsame
      exact ⟨hpending, hheld, hsame.trans hnone, hzero⟩
  | reserveInsert call row amount =>
      obtain ⟨hpending, hlocked, hrest⟩ := hsession
      exact ⟨hpending, hlocked.transfer hobserve, hrest⟩
  | reserveUpdate call row amount res =>
      obtain ⟨hpending, hlocked, hgrant, hheld, hnone⟩ := hsession
      exact ⟨hpending, hlocked.transfer hobserve, hgrant, hheld,
        hreservation _ hheld hnone⟩
  | reserveCommit call res =>
      obtain ⟨row, amount, change, hpending, hlocked, hgrant, hheld, hnone,
        hchange⟩ := hsession
      exact ⟨row, amount, change, hpending, hlocked.transfer hobserve,
        hgrant, hheld, hreservation _ hheld hnone, hchange⟩
  | lockAccount call res => exact ⟨hsession.1, hrecorded _ hsession.2⟩
  | updateTotals call res row =>
      obtain ⟨hpending, hlocked, haccount, hrow⟩ := hsession
      exact ⟨hpending, hlocked.transfer hobserve, haccount,
        hrecorded _ hrow⟩
  | updateStatus call res =>
      obtain ⟨row, change, hpending, hlocked, haccount, hrow, hchange⟩ :=
        hsession
      exact ⟨row, change, hpending, hlocked.transfer hobserve, haccount,
        hrecorded _ hrow, hchange⟩
  | commitCompletion call res settled =>
      obtain ⟨row, change, hpending, hlocked, haccount, hrow, hchange⟩ :=
        hsession
      exact ⟨row, change, hpending, hlocked.transfer hobserve, haccount,
        hrecorded _ hrow, hchange⟩
  | unknownUpdate res => exact ⟨hsession.1, hrecorded _ hsession.2⟩
  | unknownCommit res marked => exact ⟨hsession.1, hrecorded _ hsession.2⟩
  | _ => exact hsession

structure Inv {ι : Type*} (rt : Runtime) (ledger : Ledger ι) : Prop where
  locked : ledger.RowLocked observe
  tables : WellFormed ledger.committed
  sessions : ∀ i, SessionInv rt (ledger.sessions i).held
    (ledger.sessions i).pending ledger.committed (ledger.sessions i).point

theorem inv_launch {ι : Type*} (rt : Runtime) {db : Database}
    (hdb : WellFormed db) (calls : ι → Call) : Inv rt (launch db calls) := by
  refine ⟨Machine.rowLocked_of_start observe (fun i => ⟨_, rfl⟩), hdb, ?_⟩
  intro i
  cases hcall : calls i <;>
    simp [launch, Session.start, hcall, Call.start, SessionInv]

/-! ## What a commit publishes -/

def Pc.effect : Pc → Option Effect
  | .ensureCommit _ account => some (.opened account)
  | .reserveCommit _ res => some (.reserved res)
  | .commitCompletion call res _ => some (.completed call.kind res)
  | .unknownCommit res _ => some (.marked res)
  | _ => none

/-- The effect an event publishes, with the tables it finds. -/
def published {ι : Type*} (ledger : Ledger ι) :
    Event ι → List (Database × Effect)
  | .run i =>
      match (ledger.sessions i).point.effect with
      | some effect => [(ledger.committed, effect)]
      | none => []
  | .lose _ => []

/-- A commit publishes the effect of its program point, or nothing. -/
theorem SessionInv.publish {rt : Runtime} {held : List RowKey}
    {pending : List (Write Database RowKey)} {db : Database} {pc next : Pc}
    (hsession : SessionInv rt held pending db pc)
    (hstmt : stmt rt pc = .commit next) :
    (pc.effect = none ∧ overlay pending db = db) ∨
      ∃ effect, pc.effect = some effect ∧
        Atomic rt effect db (overlay pending db) := by
  rcases stmt_eq_commit hstmt with ⟨call, account, rfl, _⟩ |
    ⟨call, res, rfl, _⟩ | ⟨res, rfl, _⟩ | ⟨call, res, settled, rfl, _⟩ |
    ⟨res, marked, rfl, _⟩
  · obtain ⟨rfl, _, hfresh, hreserved, hcommitted⟩ := hsession
    exact .inr ⟨_, rfl, .opened hfresh hreserved hcommitted⟩
  · obtain ⟨row, amount, change, rfl, hlocked, hgrant, _, hfresh, hchange⟩ :=
      hsession
    exact .inr ⟨_, rfl, .reserved hlocked.2 hfresh hgrant hchange⟩
  · subst hsession
    exact .inl ⟨rfl, rfl⟩
  · obtain ⟨row, change, rfl, hlocked, haccount, hrecorded, hchange⟩ :=
      hsession
    exact .inr ⟨_, rfl, .completed hlocked.2 haccount hrecorded hchange⟩
  · obtain ⟨rfl, hrecorded⟩ := hsession
    exact .inr ⟨_, rfl, .marked hrecorded⟩

theorem commit_of_effect (rt : Runtime) {pc : Pc} {effect : Effect}
    (h : pc.effect = some effect) : ∃ next, stmt rt pc = .commit next := by
  cases pc <;> first | exact ⟨_, rfl⟩ | simp [Pc.effect] at h

/-! ## One event -/

theorem recorded_of_findReservation {db : Database} (hdb : WellFormed db)
    {companyId reservationId : String} {res : FinancialReservation}
    (h : findReservation companyId reservationId db = some res) :
    Recorded res db := by
  have hmem := List.mem_of_find?_eq_some h
  exact ⟨res, KeyedTable.lookup_of_mem hdb.reservations hmem, rfl, rfl⟩

section

variable {rt : Runtime} {db : Database} (held : List RowKey)

theorem sessionInv_afterEnsure (call : ReserveCall) (accountId : String) :
    SessionInv rt held [] db (afterEnsure rt call accountId) := by
  unfold afterEnsure
  split
  next => rfl
  next amount hamount => exact ⟨rfl, hamount⟩

theorem sessionInv_ensureFound (call : ReserveCall) {missing : Pc}
    (hmissing : SessionInv rt held [] db missing) :
    SessionInv rt held [] db (ensureFound rt call missing db) := by
  unfold ensureFound
  split
  next => exact sessionInv_afterEnsure held call _
  next => exact hmissing

theorem sessionInv_loaded (hdb : WellFormed db) (call : CompletionCall) :
    SessionInv rt held [] db (loaded call db) := by
  unfold loaded
  split
  next => trivial
  next res hfind =>
    split
    next => rfl
    next =>
      split
      next => trivial
      next => exact ⟨rfl, recorded_of_findReservation hdb hfind⟩

theorem sessionInv_unknownFound (hdb : WellFormed db)
    (companyId reservationId : String) :
    SessionInv rt held [] db
      (unknownFound companyId reservationId db) := by
  unfold unknownFound
  split
  next => rfl
  next res hfind =>
    split
    next => rfl
    next => exact ⟨rfl, recorded_of_findReservation hdb hfind⟩

theorem sessionInv_reserveLocked {call : ReserveCall} {accountId : String}
    {amount : Decimal} (hamount : rt.toDecimal call.input.amount = some amount) :
    SessionInv rt (.account accountId :: held) [] db
      (reserveLocked rt call accountId amount db) := by
  unfold reserveLocked
  split
  next => trivial
  next row hrow =>
    have hid : row.id = accountId := KeyedTable.key_of_lookup hrow
    split
    next => trivial
    next hbudget =>
      subst hid
      exact ⟨rfl, ⟨List.mem_cons_self, hrow⟩, hamount, hbudget⟩

theorem sessionInv_totalsLocked (call : CompletionCall)
    {res : FinancialReservation} (hrecorded : Recorded res db) :
    SessionInv rt (.account res.financialAccountId :: held) [] db
      (totalsLocked call res db) := by
  unfold totalsLocked
  split
  next => trivial
  next row hrow =>
    have hid : row.id = res.financialAccountId :=
      KeyedTable.key_of_lookup hrow
    refine ⟨rfl, ⟨?_, ?_⟩, hid.symm, hrecorded⟩
    · rw [hid]
      exact List.mem_cons_self
    · rw [hid]
      exact hrow

end

variable {ι : Type*} [DecidableEq ι] {rt : Runtime}
  {ledger next : Ledger ι} {event : Event ι}

/-- An event publishes nothing and leaves the tables, or publishes one
effect and changes the tables by it. -/
theorem Inv.committed_cases (hinv : Inv rt ledger)
    (hstep : Step (program rt) ledger event next) :
    (published ledger event = [] ∧ next.committed = ledger.committed) ∨
      ∃ effect, published ledger event = [(ledger.committed, effect)] ∧
        Atomic rt effect ledger.committed next.committed := by
  have hsilent : ∀ i, event = .run i →
      (∀ point, stmt rt (ledger.sessions i).point ≠ .commit point) →
      published ledger event = [] := by
    intro i hevent hstmt
    subst hevent
    cases heffect : (ledger.sessions i).point.effect with
    | none => simp [published, heffect]
    | some effect =>
        obtain ⟨point, hcommit⟩ := commit_of_effect rt heffect
        exact absurd hcommit (hstmt point)
  cases hstep with
  | commit hstmt =>
      rcases (hinv.sessions _).publish hstmt with
        ⟨heffect, hsame⟩ | ⟨effect, heffect, hatomic⟩
      · exact .inl ⟨by simp [published, heffect], hsame⟩
      · exact .inr ⟨effect, by simp [published, heffect], hatomic⟩
  | lose hstmt => exact .inl ⟨rfl, rfl⟩
  | read hstmt =>
      refine .inl ⟨hsilent _ rfl ?_, rfl⟩
      intro point hcommit
      simp [program, hcommit] at hstmt
  | lock hstmt _ =>
      refine .inl ⟨hsilent _ rfl ?_, rfl⟩
      intro point hcommit
      simp [program, hcommit] at hstmt
  | write hstmt _ _ =>
      refine .inl ⟨hsilent _ rfl ?_, rfl⟩
      intro point hcommit
      simp [program, hcommit] at hstmt
  | violate hstmt _ =>
      refine .inl ⟨hsilent _ rfl ?_, rfl⟩
      intro point hcommit
      simp [program, hcommit] at hstmt
  | rollback hstmt =>
      refine .inl ⟨hsilent _ rfl ?_, rfl⟩
      intro point hcommit
      simp [program, hcommit] at hstmt

theorem Inv.recorded (hinv : Inv rt ledger)
    (hstep : Step (program rt) ledger event next)
    {res : FinancialReservation} (hres : Recorded res ledger.committed) :
    Recorded res next.committed := by
  rcases hinv.committed_cases hstep with ⟨_, heq⟩ | ⟨effect, _, hatomic⟩
  · rw [heq]
    exact hres
  · exact hatomic.recorded hres

theorem Inv.tables_step (hinv : Inv rt ledger)
    (hstep : Step (program rt) ledger event next) :
    WellFormed next.committed := by
  rcases hinv.committed_cases hstep with ⟨_, heq⟩ | ⟨effect, _, hatomic⟩
  · rw [heq]
    exact hinv.tables
  · exact hatomic.wellFormed hinv.tables

omit [DecidableEq ι] in
/-- Before its first write a session sees the committed tables. -/
theorem view_of_pending_nil {i : ι}
    (hpending : (ledger.sessions i).pending = []) :
    ledger.view i = ledger.committed := by
  simp [Machine.view, hpending]

omit [DecidableEq ι] in
theorem Inv.read_step (hinv : Inv rt ledger) {i : ι}
    {after : Database → Pc}
    (hstmt : stmt rt (ledger.sessions i).point = .read after) :
    SessionInv rt (ledger.sessions i).held (ledger.sessions i).pending
      ledger.committed (after (ledger.view i)) := by
  have hsession := hinv.sessions i
  rcases stmt_eq_read hstmt with ⟨call, hpc, rfl⟩ | ⟨call, hpc, rfl⟩ |
    ⟨call, hpc, rfl⟩ | ⟨companyId, reservationId, hpc, rfl⟩ <;>
    rw [hpc] at hsession <;>
    have hpending : (ledger.sessions i).pending = [] := hsession <;>
    rw [view_of_pending_nil hpending, hpending]
  · exact sessionInv_ensureFound _ call rfl
  · exact sessionInv_ensureFound _ call rfl
  · exact sessionInv_loaded _ hinv.tables call
  · exact sessionInv_unknownFound _ hinv.tables companyId reservationId

omit [DecidableEq ι] in
theorem Inv.lock_step (hinv : Inv rt ledger) {i : ι} {key : RowKey}
    {after : Database → Pc}
    (hstmt : stmt rt (ledger.sessions i).point = .lock key after) :
    SessionInv rt (key :: (ledger.sessions i).held)
      (ledger.sessions i).pending ledger.committed
      (after (ledger.view i)) := by
  have hsession := hinv.sessions i
  rcases stmt_eq_lock hstmt with ⟨call, accountId, amount, hpc, rfl, rfl⟩ |
    ⟨call, res, hpc, rfl, rfl⟩ <;>
    rw [hpc] at hsession <;>
    obtain ⟨hpending, hfact⟩ := hsession <;>
    rw [view_of_pending_nil hpending, hpending]
  · exact sessionInv_reserveLocked _ hfact
  · exact sessionInv_totalsLocked _ call hfact

omit [DecidableEq ι] in
theorem Inv.write_step (hinv : Inv rt ledger) {i : ι}
    {plan : Database → Option (Write Database RowKey × Pc)}
    {failed point : Pc} {write : Write Database RowKey}
    (hstmt : stmt rt (ledger.sessions i).point = .write plan failed)
    (hplan : plan (ledger.view i) = some (write, point)) :
    SessionInv rt (write.keys ++ (ledger.sessions i).held)
      ((ledger.sessions i).pending ++ [write]) ledger.committed point := by
  have hsession := hinv.sessions i
  have hlocked : ∀ {row},
      Locked (ledger.sessions i).held ledger.committed row →
      Locked (write.keys ++ (ledger.sessions i).held) ledger.committed row :=
    fun h => ⟨List.mem_append_right _ h.1, h.2⟩
  rcases stmt_eq_write hstmt with ⟨call, hpc, rfl, _⟩ |
    ⟨call, row, amount, hpc, rfl, _⟩ |
    ⟨call, row, amount, res, hpc, rfl, _⟩ | ⟨call, res, row, hpc, rfl, _⟩ |
    ⟨call, res, hpc, rfl, _⟩ | ⟨res, hpc, rfl, _⟩ <;>
    rw [hpc] at hsession
  · have hpending : (ledger.sessions i).pending = [] := hsession
    rw [view_of_pending_nil hpending] at hplan
    obtain ⟨account, haccount, hallowed, rfl, rfl⟩ :=
      planAccount_eq_some hplan
    rw [hpending]
    refine ⟨rfl, by simp, hallowed.2.1, ?_, ?_⟩ <;> rw [haccount] <;> rfl
  · obtain ⟨hpending, hrow, hamount, hbudget⟩ := hsession
    rw [view_of_pending_nil hpending] at hplan
    obtain ⟨stored, res, hstored, hres, hallowed, rfl, rfl⟩ :=
      planReservation_eq_some hplan
    rw [hpending]
    refine ⟨rfl, hlocked hrow, ⟨⟨_, hamount, ?_, hbudget⟩, ?_, ?_⟩,
      by simp, hallowed.2⟩ <;> rw [hres]
    · exact hstored
    · rfl
    · rfl
  · obtain ⟨hpending, hrow, hgrant, hheld, hfresh⟩ := hsession
    obtain ⟨change, hchange, rfl, rfl⟩ := planReserved_eq_some hplan
    rw [hpending]
    exact ⟨row, amount, change, rfl, hlocked hrow, hgrant,
      List.mem_append_right _ hheld, hfresh, hchange⟩
  · obtain ⟨hpending, hrow, haccount, hrecorded⟩ := hsession
    obtain ⟨change, hchange, rfl, rfl⟩ := planTotals_eq_some hplan
    rw [hpending]
    exact ⟨row, change, rfl, hlocked hrow, haccount, hrecorded, hchange⟩
  · obtain ⟨row, change, hpending, hrow, haccount, hrecorded, hchange⟩ :=
      hsession
    obtain ⟨current, _, rfl, rfl⟩ := planStatus_eq_some hplan
    rw [hpending]
    exact ⟨row, change, rfl, hlocked hrow, haccount, hrecorded, hchange⟩
  · obtain ⟨hpending, hrecorded⟩ := hsession
    obtain ⟨current, _, rfl, rfl⟩ := planStatus_eq_some hplan
    rw [hpending]
    exact ⟨rfl, hrecorded⟩

omit [DecidableEq ι] in
theorem Inv.violate_step (hinv : Inv rt ledger) {i : ι}
    {plan : Database → Option (Write Database RowKey × Pc)} {failed : Pc}
    (hstmt : stmt rt (ledger.sessions i).point = .write plan failed) :
    SessionInv rt (ledger.sessions i).held (ledger.sessions i).pending
      ledger.committed failed := by
  have hsession := hinv.sessions i
  rcases stmt_eq_write hstmt with ⟨call, hpc, _, rfl⟩ |
    ⟨call, row, amount, _, _, rfl⟩ | ⟨call, row, amount, res, _, _, rfl⟩ |
    ⟨call, res, row, _, _, rfl⟩ | ⟨call, res, _, _, rfl⟩ |
    ⟨res, _, _, rfl⟩
  · rw [hpc] at hsession
    exact hsession
  all_goals trivial

theorem sessionInv_after_commit {pc point : Pc} (db : Database)
    (hstmt : stmt rt pc = .commit point) :
    SessionInv rt [] [] db point := by
  rcases stmt_eq_commit hstmt with ⟨call, account, _, rfl⟩ |
    ⟨call, res, _, rfl⟩ | ⟨res, _, rfl⟩ | ⟨call, res, settled, _, rfl⟩ |
    ⟨res, marked, _, rfl⟩
  · exact sessionInv_afterEnsure _ call _
  all_goals rfl

/-- The session that moves keeps what its new program point promises. -/
theorem Inv.own_step (hinv : Inv rt ledger)
    (hstep : Step (program rt) ledger event next) :
    SessionInv rt (next.sessions event.session).held
      (next.sessions event.session).pending next.committed
      (next.sessions event.session).point := by
  cases hstep with
  | read hstmt =>
      simp only [Event.session, Machine.put_sessions_self,
        Machine.put_committed]
      exact hinv.read_step hstmt
  | lock hstmt _ =>
      simp only [Event.session, Machine.put_sessions_self,
        Machine.put_committed]
      exact hinv.lock_step hstmt
  | write hstmt hplan _ =>
      simp only [Event.session, Machine.put_sessions_self,
        Machine.put_committed]
      exact hinv.write_step hstmt hplan
  | violate hstmt _ =>
      simp only [Event.session, Machine.put_sessions_self,
        Machine.put_committed]
      exact hinv.violate_step hstmt
  | commit hstmt =>
      simp only [Event.session, Machine.publish_sessions_self,
        Session.start]
      exact sessionInv_after_commit _ hstmt
  | rollback hstmt =>
      obtain ⟨failure, _, rfl⟩ := stmt_eq_rollback hstmt
      simp [Event.session, Session.start, SessionInv]
  | lose _ => simp [Event.session, Session.start, SessionInv, program]

theorem Inv.step (hinv : Inv rt ledger)
    (hstep : Step (program rt) ledger event next) : Inv rt next := by
  refine ⟨hinv.locked.step (program_frames rt) hstep,
    hinv.tables_step hstep, ?_⟩
  intro j
  by_cases hown : j = event.session
  · subst hown
    exact hinv.own_step hstep
  · rw [hstep.sessions_of_ne hown]
    exact (hinv.sessions j).transfer
      (fun key hheld => hinv.locked.observe_of_held hstep hown hheld)
      (fun res hres => hinv.recorded hstep hres)

/-- A schedule of statements runs the effects it publishes, one after the
other. -/
theorem atomicRun_of_run [Fintype ι] {rt : Runtime} {db : Database}
    (hdb : WellFormed db) {calls : ι → Call} {schedule : List (Event ι)}
    {final : Ledger ι}
    (hrun : (launch db calls).run (program rt) schedule = some final) :
    AtomicRun rt ((launch db calls).collect (program rt) published schedule)
      db final.committed := by
  have hkeep : ∀ (machine : Ledger ι) (past : List (Database × Effect))
      (event : Event ι) (next : Ledger ι),
      (Inv rt machine ∧ AtomicRun rt past db machine.committed) →
      Step (program rt) machine event next →
      Inv rt next ∧
        AtomicRun rt (past ++ published machine event) db
          next.committed := by
    rintro machine past event next ⟨hinv, hpast⟩ hstep
    refine ⟨hinv.step hstep, ?_⟩
    rcases hinv.committed_cases hstep with
      ⟨hnone, heq⟩ | ⟨effect, hsome, hatomic⟩
    · rw [hnone, heq, List.append_nil]
      exact hpast
    · rw [hsome]
      exact hpast.tail hatomic
  have hfinal := Machine.run_induction_collect hkeep
    ⟨inv_launch rt hdb calls, AtomicRun.refl db⟩ hrun
  exact hfinal.2

end Financial
end Orvex
