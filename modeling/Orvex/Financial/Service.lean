import Orvex.Core.Database

/-!
# The financial service

Budgets are held in accounts, one for each bucket key.  A reservation holds
part of a budget before an execution; it is committed after a confirmed
success, released after a confirmed failure, and kept while the outcome is
unknown.  The functions here run alone; `Financial.Statements` gives the
same calls statement by statement.
-/

namespace Orvex
namespace Financial

structure AccountKey where
  companyId : String
  agentId : Option String
  scope : FinancialAccountScope
  scopeKey : String
  asset : String
  network : Option String
  deriving DecidableEq

structure ReserveInput extends AccountKey where
  amount : String
  executionRequestId : Option String
  deriving DecidableEq

/-! ## Accounts -/

def AccountKey.Matches (key : AccountKey) (account : FinancialAccount) :
    Prop :=
  account.companyId = key.companyId ∧ account.scope = key.scope ∧
    account.scopeKey = key.scopeKey ∧ account.asset = key.asset ∧
    account.network = key.network

instance (key : AccountKey) (account : FinancialAccount) :
    Decidable (key.Matches account) :=
  inferInstanceAs (Decidable (_ ∧ _ ∧ _ ∧ _ ∧ _))

def findAccount (key : AccountKey) (db : Database) :
    Option FinancialAccount :=
  db.financialAccounts.find? (fun account => key.Matches account)

def lookupAccount (id : String) (db : Database) : Option FinancialAccount :=
  KeyedTable.lookup FinancialAccount.id id db.financialAccounts

def newAccount (key : AccountKey) (limit : Option ℚ) (uuid : String) :
    FinancialAccount where
  id := uuid
  companyId := key.companyId
  agentId := key.agentId
  scope := key.scope
  scopeKey := key.scopeKey
  asset := key.asset
  network := key.network
  currentReserved := 0
  currentCommitted := 0
  limitAmount := limit

def insertAccount (account : FinancialAccount) (db : Database) : Database :=
  { db with financialAccounts := db.financialAccounts ++ [account] }

def updateAccount (id : String)
    (change : FinancialAccount → FinancialAccount) (db : Database) :
    Database :=
  { db with
    financialAccounts :=
      KeyedTable.modify FinancialAccount.id id change db.financialAccounts }

/-- The key columns of two accounts collide; a null network never does. -/
def SameBucket (a b : FinancialAccount) : Prop :=
  a.companyId = b.companyId ∧ a.scope = b.scope ∧ a.scopeKey = b.scopeKey ∧
    a.asset = b.asset ∧ a.network = b.network ∧ a.network ≠ none

instance (a b : FinancialAccount) : Decidable (SameBucket a b) :=
  inferInstanceAs (Decidable (_ ∧ _ ∧ _ ∧ _ ∧ _ ∧ _))

/-- The constraints on a new account: its company exists, its id is new and
its bucket is new. -/
def AccountAllowed (account : FinancialAccount) (db : Database) : Prop :=
  account.companyId ∈ db.companies ∧ lookupAccount account.id db = none ∧
    ∀ other ∈ db.financialAccounts, ¬ SameBucket account other

instance (account : FinancialAccount) (db : Database) :
    Decidable (AccountAllowed account db) :=
  inferInstanceAs (Decidable (_ ∧ _ ∧ ∀ other ∈ db.financialAccounts, _))

def createAccount (rt : Runtime) (key : AccountKey)
    (limitAmount : Option String) (uuid : String) :
    Service FinancialAccount := do
  let limit ← match limitAmount with
    | none => pure none
    | some text => some <$> Fallible.ofOption .decimal (rt.storeText text)
  let account := newAccount key limit uuid
  if ← Fallible.query (fun db => decide (AccountAllowed account db)) then
    Fallible.change (insertAccount account)
    pure account
  else Fallible.fail .constraint

def ensureAccount (rt : Runtime) (key : AccountKey)
    (limitAmount : Option String) (uuid : String) :
    Service FinancialAccount := do
  match ← Fallible.query (findAccount key) with
  | some existing => pure existing
  | none =>
      match ← Fallible.attempt (createAccount rt key limitAmount uuid) with
      | .ok account => pure account
      | .error _ =>
          -- another caller may have created the account
          match ← Fallible.query (findAccount key) with
          | some row => pure row
          | none =>
              Fallible.fail
                (.of .internalError "Failed to ensure financial account." [])

/-! ## Reservations -/

def findReservation (companyId reservationId : String) (db : Database) :
    Option FinancialReservation :=
  db.financialReservations.find?
    (fun res => res.id = reservationId ∧ res.companyId = companyId)

def lookupReservation (id : String) (db : Database) :
    Option FinancialReservation :=
  KeyedTable.lookup FinancialReservation.id id db.financialReservations

def insertReservation (res : FinancialReservation) (db : Database) :
    Database :=
  { db with financialReservations := db.financialReservations ++ [res] }

def updateReservation (id : String)
    (change : FinancialReservation → FinancialReservation) (db : Database) :
    Database :=
  { db with
    financialReservations :=
      KeyedTable.modify FinancialReservation.id id change
        db.financialReservations }

def newReservation (input : ReserveInput) (accountId : String)
    (amount : ℚ) (uuid : String) : FinancialReservation where
  id := uuid
  companyId := input.companyId
  agentId := input.agentId
  executionRequestId := input.executionRequestId
  financialAccountId := accountId
  amount := amount
  asset := input.asset
  status := .reserved
  releasedAt := none
  committedAt := none

/-- The constraints on a new reservation: its account exists and its id is
new. -/
def ReservationAllowed (res : FinancialReservation) (db : Database) : Prop :=
  lookupAccount res.financialAccountId db ≠ none ∧
    lookupReservation res.id db = none

instance (res : FinancialReservation) (db : Database) :
    Decidable (ReservationAllowed res db) :=
  inferInstanceAs (Decidable (_ ∧ _))

def projected (rt : Runtime) (row : FinancialAccount) (amount : Decimal) :
    Decimal :=
  ((Decimal.finite row.currentReserved).plus rt
    (.finite row.currentCommitted)).plus rt amount

/-- The refusal of an amount that the locked account cannot hold. -/
def budgetRefusal (rt : Runtime) (requested : String) (amount : Decimal)
    (row : FinancialAccount) : Option Failure :=
  match row.limitAmount with
  | none => none
  | some limit =>
      if (projected rt row amount).gt (.finite limit) then
        some (.of .policyViolation "Reservation would exceed the budget limit."
          [("accountId", row.id),
            ("requested", requested),
            ("committed", rt.decimalToString (.finite row.currentCommitted)),
            ("reserved", rt.decimalToString (.finite row.currentReserved)),
            ("limit", rt.decimalToString (.finite limit))])
      else none

/-- `currentReserved: reserved.plus(amount)`. -/
def reserveChange (rt : Runtime) (row : FinancialAccount)
    (amount : Decimal) : Option (FinancialAccount → FinancialAccount) := do
  let reserved ←
    rt.store ((Decimal.finite row.currentReserved).plus rt amount)
  pure (fun account => { account with currentReserved := reserved })

def reserve (rt : Runtime) (input : ReserveInput)
    (accountUuid uuid : String) : Service FinancialReservation := do
  let account ← ensureAccount rt input.toAccountKey none accountUuid
  let amount ← Fallible.ofOption .decimal (rt.toDecimal input.amount)
  Fallible.transaction do
    match ← Fallible.query (lookupAccount account.id) with
    | none =>
        Fallible.fail (.of .internalError
          "Financial account vanished during reservation." [])
    | some row =>
        match budgetRefusal rt input.amount amount row with
        | some refusal => Fallible.fail refusal
        | none =>
            let stored ←
              Fallible.ofOption .decimal (rt.storeText input.amount)
            let res := newReservation input account.id stored uuid
            if ← Fallible.query (fun db =>
                decide (ReservationAllowed res db)) then
              Fallible.change (insertReservation res)
              let change ← Fallible.ofOption .decimal
                (reserveChange rt row amount)
              Fallible.change (updateAccount account.id change)
              pure res
            else Fallible.fail .constraint

/-! ## Completion -/

def reservationStatusText : ReservationStatus → String
  | .reserved => "RESERVED"
  | .committed => "COMMITTED"
  | .released => "RELEASED"
  | .unknown => "UNKNOWN"

inductive Completion where
  | commit | release | reconcileRelease
  deriving DecidableEq

/-- The status in which the call has nothing to do, and leaves behind. -/
def Completion.final : Completion → ReservationStatus
  | .commit => .committed
  | .release => .released
  | .reconcileRelease => .released

def Completion.refusal (kind : Completion) (reservationId : String)
    (status : ReservationStatus) : Option Failure :=
  match kind, status with
  | .commit, .reserved => none
  | .commit, _ =>
      some (.of .conflict
        ("Cannot commit a " ++ reservationStatusText status ++
          " reservation.")
        [("reservationId", reservationId),
          ("status", reservationStatusText status)])
  | .release, .reserved => none
  | .release, .unknown =>
      some (.of .conflict
        "Cannot release an UNKNOWN reservation; reconcile it first."
        [("reservationId", reservationId)])
  | .release, _ =>
      some (.of .conflict
        ("Cannot release a " ++ reservationStatusText status ++
          " reservation.")
        [("reservationId", reservationId),
          ("status", reservationStatusText status)])
  | .reconcileRelease, .committed =>
      some (.of .conflict "Cannot release a COMMITTED reservation."
        [("reservationId", reservationId)])
  | .reconcileRelease, _ => none

def Completion.missing : Completion → Failure
  | .commit => .of .internalError "Account missing during commit." []
  | .release => .of .internalError "Account missing during release." []
  | .reconcileRelease =>
      .of .internalError "Account missing during reconcile release." []

/-- The columns of the account that the call writes: a commit moves the
amount, a release frees it. -/
def Completion.accountChange (rt : Runtime) (kind : Completion)
    (row : FinancialAccount) (amount : ℚ) :
    Option (FinancialAccount → FinancialAccount) := do
  let reserved ← rt.store
    ((Decimal.finite row.currentReserved).minus rt (.finite amount))
  match kind with
  | .commit =>
      let committed ← rt.store
        ((Decimal.finite row.currentCommitted).plus rt (.finite amount))
      pure (fun account =>
        { account with
          currentReserved := reserved
          currentCommitted := committed })
  | _ => pure (fun account => { account with currentReserved := reserved })

def Completion.settle (kind : Completion) (now : ℤ)
    (res : FinancialReservation) : FinancialReservation :=
  match kind with
  | .commit => { res with status := .committed, committedAt := some now }
  | _ => { res with status := .released, releasedAt := some now }

def reservationNotFound (reservationId : String) : Failure :=
  .of .notFound "Reservation not found." [("reservationId", reservationId)]

/-- An update of a reservation by its id, which returns the new row. -/
def writeReservation (id : String)
    (change : FinancialReservation → FinancialReservation) :
    Service FinancialReservation := do
  match ← Fallible.query (lookupReservation id) with
  | none => Fallible.fail .recordNotFound
  | some res =>
      Fallible.change (updateReservation id change)
      pure (change res)

def Completion.run (rt : Runtime) (kind : Completion)
    (companyId reservationId : String) (now : ℤ) :
    Service FinancialReservation :=
  Fallible.transaction do
    match ← Fallible.query (findReservation companyId reservationId) with
    | none => Fallible.fail (reservationNotFound reservationId)
    | some res =>
        if res.status = kind.final then pure res
        else
          match kind.refusal reservationId res.status with
          | some refusal => Fallible.fail refusal
          | none =>
              match ← Fallible.query
                  (lookupAccount res.financialAccountId) with
              | none => Fallible.fail kind.missing
              | some row =>
                  let change ← Fallible.ofOption .decimal
                    (kind.accountChange rt row res.amount)
                  Fallible.change (updateAccount res.financialAccountId change)
                  writeReservation res.id (kind.settle now)

def commit (rt : Runtime) (companyId reservationId : String) (now : ℤ) :
    Service FinancialReservation :=
  Completion.commit.run rt companyId reservationId now

def release (rt : Runtime) (companyId reservationId : String) (now : ℤ) :
    Service FinancialReservation :=
  Completion.release.run rt companyId reservationId now

def reconcileRelease (rt : Runtime) (companyId reservationId : String)
    (now : ℤ) : Service FinancialReservation :=
  Completion.reconcileRelease.run rt companyId reservationId now

/-! ## Unknown outcomes -/

def unknownRefusal (reservationId : String)
    (status : ReservationStatus) : Option Failure :=
  match status with
  | .reserved => none
  | .unknown => none
  | _ =>
      some (.of .conflict
        ("Cannot mark " ++ reservationStatusText status ++
          " reservation UNKNOWN.")
        [("reservationId", reservationId),
          ("status", reservationStatusText status)])

def setUnknown (res : FinancialReservation) : FinancialReservation :=
  { res with status := .unknown }

def markUnknown (companyId reservationId : String) :
    Service FinancialReservation := do
  match ← Fallible.query (findReservation companyId reservationId) with
  | none => Fallible.fail (reservationNotFound reservationId)
  | some res =>
      match unknownRefusal reservationId res.status with
      | some refusal => Fallible.fail refusal
      | none => writeReservation res.id setUnknown

end Financial
end Orvex
