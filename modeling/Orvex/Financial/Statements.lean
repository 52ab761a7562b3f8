import Orvex.Concurrency.RowLocks
import Orvex.Financial.Service

/-!
# The financial calls, statement by statement

Each call is a sequence of database statements: one transaction for a
reservation or a completion, single statements outside a transaction
elsewhere.  A completion reads the reservation first and locks the account
afterwards, as the source does; `markUnknown` locks nothing.
-/

namespace Orvex
namespace Financial

open ReadCommitted

inductive RowKey where
  | account (id : String)
  | reservation (id : String)
  /-- An entry of the unique index on the key columns of an account. -/
  | bucket (companyId : String) (scope : FinancialAccountScope)
      (scopeKey asset network : String)
  deriving DecidableEq

def bucketKeys (account : FinancialAccount) : List RowKey :=
  match account.network with
  | some network =>
      [.bucket account.companyId account.scope account.scopeKey
        account.asset network]
  | none => []

/-! ## Calls and program points -/

structure ReserveCall where
  input : ReserveInput
  accountUuid : String
  uuid : String
  deriving DecidableEq

structure CompletionCall where
  kind : Completion
  companyId : String
  reservationId : String
  now : ℤ
  deriving DecidableEq

inductive Call where
  | reserve (call : ReserveCall)
  | complete (call : CompletionCall)
  | markUnknown (companyId reservationId : String)
  deriving DecidableEq

inductive Pc where
  | ensureFind (call : ReserveCall)
  | ensureCreate (call : ReserveCall)
  | ensureCommit (call : ReserveCall) (account : FinancialAccount)
  | ensureReread (call : ReserveCall)
  | reserveLock (call : ReserveCall) (accountId : String) (amount : Decimal)
  | reserveInsert (call : ReserveCall) (row : FinancialAccount)
      (amount : Decimal)
  | reserveUpdate (call : ReserveCall) (row : FinancialAccount)
      (amount : Decimal) (res : FinancialReservation)
  | reserveCommit (call : ReserveCall) (res : FinancialReservation)
  | load (call : CompletionCall)
  | commitUnchanged (res : FinancialReservation)
  | lockAccount (call : CompletionCall) (res : FinancialReservation)
  | updateTotals (call : CompletionCall) (res : FinancialReservation)
      (row : FinancialAccount)
  | updateStatus (call : CompletionCall) (res : FinancialReservation)
  | commitCompletion (call : CompletionCall) (res settled :
      FinancialReservation)
  | unknownFind (companyId reservationId : String)
  | unknownUpdate (res : FinancialReservation)
  | unknownCommit (res marked : FinancialReservation)
  | abort (failure : Failure)
  | finished (result : Except Failure FinancialReservation)

def Call.start : Call → Pc
  | .reserve call => .ensureFind call
  | .complete call => .load call
  | .markUnknown companyId reservationId =>
      .unknownFind companyId reservationId

/-! ## Statements -/

def afterEnsure (rt : Runtime) (call : ReserveCall) (accountId : String) :
    Pc :=
  match rt.toDecimal call.input.amount with
  | none => .finished (.error .decimal)
  | some amount => .reserveLock call accountId amount

def ensureFound (rt : Runtime) (call : ReserveCall) (missing : Pc)
    (db : Database) : Pc :=
  match findAccount call.input.toAccountKey db with
  | some account => afterEnsure rt call account.id
  | none => missing

def planAccount (call : ReserveCall) (db : Database) :
    Option (Write Database RowKey × Pc) :=
  let account := newAccount call.input.toAccountKey none call.accountUuid
  if AccountAllowed account db then
    some (⟨.account account.id :: bucketKeys account, insertAccount account⟩,
      .ensureCommit call account)
  else none

def reserveLocked (rt : Runtime) (call : ReserveCall) (accountId : String)
    (amount : Decimal) (db : Database) : Pc :=
  match lookupAccount accountId db with
  | none =>
      .abort (.of .internalError
        "Financial account vanished during reservation." [])
  | some row =>
      match budgetRefusal rt call.input.amount amount row with
      | some refusal => .abort refusal
      | none => .reserveInsert call row amount

def planReservation (rt : Runtime) (call : ReserveCall)
    (row : FinancialAccount) (amount : Decimal) (db : Database) :
    Option (Write Database RowKey × Pc) :=
  match rt.storeText call.input.amount with
  | none => none
  | some stored =>
      let res := newReservation call.input row.id stored call.uuid
      if ReservationAllowed res db then
        some (⟨[.reservation res.id], insertReservation res⟩,
          .reserveUpdate call row amount res)
      else none

def planReserved (rt : Runtime) (call : ReserveCall)
    (row : FinancialAccount) (amount : Decimal)
    (res : FinancialReservation) :
    Option (Write Database RowKey × Pc) :=
  (reserveChange rt row amount).map (fun change =>
    (⟨[.account row.id], updateAccount row.id change⟩,
      .reserveCommit call res))

/-- The status check, on the row as it was before the account is locked. -/
def loaded (call : CompletionCall) (db : Database) : Pc :=
  match findReservation call.companyId call.reservationId db with
  | none => .abort (reservationNotFound call.reservationId)
  | some res =>
      if res.status = call.kind.final then .commitUnchanged res
      else
        match call.kind.refusal call.reservationId res.status with
        | some refusal => .abort refusal
        | none => .lockAccount call res

def totalsLocked (call : CompletionCall) (res : FinancialReservation)
    (db : Database) : Pc :=
  match lookupAccount res.financialAccountId db with
  | none => .abort call.kind.missing
  | some row => .updateTotals call res row

def planTotals (rt : Runtime) (call : CompletionCall)
    (res : FinancialReservation) (row : FinancialAccount) :
    Option (Write Database RowKey × Pc) :=
  (call.kind.accountChange rt row res.amount).map (fun change =>
    (⟨[.account row.id], updateAccount row.id change⟩,
      .updateStatus call res))

def planStatus (id : String)
    (change : FinancialReservation → FinancialReservation)
    (next : FinancialReservation → Pc) (db : Database) :
    Option (Write Database RowKey × Pc) :=
  (lookupReservation id db).map (fun res =>
    (⟨[.reservation id], updateReservation id change⟩, next (change res)))

def unknownFound (companyId reservationId : String) (db : Database) : Pc :=
  match findReservation companyId reservationId db with
  | none => .finished (.error (reservationNotFound reservationId))
  | some res =>
      match unknownRefusal reservationId res.status with
      | some refusal => .finished (.error refusal)
      | none => .unknownUpdate res

def stmt (rt : Runtime) : Pc → Stmt Database RowKey Pc
  | .ensureFind call => .read (ensureFound rt call (.ensureCreate call))
  | .ensureCreate call => .write (planAccount call) (.ensureReread call)
  | .ensureCommit call account => .commit (afterEnsure rt call account.id)
  | .ensureReread call =>
      .read (ensureFound rt call (.finished (.error
        (.of .internalError "Failed to ensure financial account." []))))
  | .reserveLock call accountId amount =>
      .lock (.account accountId) (reserveLocked rt call accountId amount)
  | .reserveInsert call row amount =>
      .write (planReservation rt call row amount) (.abort .constraint)
  | .reserveUpdate call row amount res =>
      .write (fun _ => planReserved rt call row amount res) (.abort .decimal)
  | .reserveCommit _ res => .commit (.finished (.ok res))
  | .load call => .read (loaded call)
  | .commitUnchanged res => .commit (.finished (.ok res))
  | .lockAccount call res =>
      .lock (.account res.financialAccountId) (totalsLocked call res)
  | .updateTotals call res row =>
      .write (fun _ => planTotals rt call res row) (.abort .decimal)
  | .updateStatus call res =>
      .write
        (planStatus res.id (call.kind.settle call.now)
          (.commitCompletion call res))
        (.abort .recordNotFound)
  | .commitCompletion _ _ settled => .commit (.finished (.ok settled))
  | .unknownFind companyId reservationId =>
      .read (unknownFound companyId reservationId)
  | .unknownUpdate res =>
      .write (planStatus res.id setUnknown (.unknownCommit res))
        (.abort .recordNotFound)
  | .unknownCommit _ marked => .commit (.finished (.ok marked))
  | .abort failure => .rollback (.finished (.error failure))
  | .finished _ => .halt

def program (rt : Runtime) : Program Database RowKey Pc where
  stmt := stmt rt
  lost := fun _ => .finished (.error .connectionLost)

abbrev Ledger (ι : Type*) := Machine ι Database RowKey Pc

/-- The calls, before any of them has issued a statement. -/
def launch {ι : Type*} (db : Database) (calls : ι → Call) : Ledger ι :=
  ⟨db, fun i => .start Database RowKey (calls i).start⟩

end Financial
end Orvex
