import Orvex.Concurrency.Scripts
import Orvex.Financial.Statements

/-!
# Opening the account of a bucket

`ensureAccount` looks for the account of its bucket, creates it when there
is none, and looks again when the creation fails.  It and `reserve`, which
begins with it, are scripts here, so that several calls can run at once.
-/

namespace Orvex
namespace Financial

open ReadCommitted

/-- The key columns of an account. -/
structure Bucket where
  companyId : String
  scope : FinancialAccountScope
  scopeKey : String
  asset : String
  network : Option String
  deriving DecidableEq

def AccountKey.bucket (key : AccountKey) : Bucket :=
  ⟨key.companyId, key.scope, key.scopeKey, key.asset, key.network⟩

def bucketOf (account : FinancialAccount) : Bucket :=
  ⟨account.companyId, account.scope, account.scopeKey, account.asset,
    account.network⟩

/-- The accounts of a bucket. -/
def bucketIds (bucket : Bucket) (db : Database) : List String :=
  (db.financialAccounts.filter (fun account => bucketOf account = bucket)).map
    FinancialAccount.id

def accountIds (db : Database) : List String :=
  db.financialAccounts.map FinancialAccount.id

/-! ## The calls as scripts -/

inductive BucketAnswer where
  | ensured (result : Except Failure FinancialAccount)
  | reserved (result : Except Failure FinancialReservation)
  /-- The call never ended. -/
  | lost

abbrev BucketScript := Script Database RowKey BucketAnswer

/-- The limit as the column keeps it; `none` is a rejected text. -/
def storedLimit (rt : Runtime) : Option String → Option (Option ℚ)
  | none => some none
  | some text => (rt.storeText text).map some

def openAccount (account : FinancialAccount) : Write Database RowKey :=
  ⟨.account account.id :: bucketKeys account, insertAccount account⟩

def planOpening (account : FinancialAccount) (db : Database) :
    Option (Write Database RowKey) :=
  if AccountAllowed account db then some (openAccount account) else none

/-- After a failed creation: another caller may have created the account. -/
def rereading (key : AccountKey)
    (after : Except Failure FinancialAccount → BucketScript) : BucketScript :=
  .read (fun db =>
    match findAccount key db with
    | some row => after (.ok row)
    | none =>
        after (.error
          (.of .internalError "Failed to ensure financial account." [])))

def opening (rt : Runtime) (key : AccountKey) (limitAmount : Option String)
    (uuid : String)
    (after : Except Failure FinancialAccount → BucketScript) : BucketScript :=
  match storedLimit rt limitAmount with
  | none => rereading key after
  | some limit =>
      .single (planOpening (newAccount key limit uuid))
        (fun _ => after (.ok (newAccount key limit uuid)))
        (rereading key after)

/-- `ensureAccount`, one statement after the other, and what its caller does
next. -/
def ensuring (rt : Runtime) (key : AccountKey) (limitAmount : Option String)
    (uuid : String)
    (after : Except Failure FinancialAccount → BucketScript) : BucketScript :=
  .read (fun db =>
    match findAccount key db with
    | some existing => after (.ok existing)
    | none => opening rt key limitAmount uuid after)

/-- The transaction of a reservation is rolled back. -/
def refused (failure : Failure) : BucketScript :=
  .rollback (.done (.reserved (.error failure)))

def planHolding (res : FinancialReservation) (db : Database) :
    Option (Write Database RowKey) :=
  if ReservationAllowed res db then
    some ⟨[.reservation res.id], insertReservation res⟩
  else none

/-- The statements of a reservation once its account is locked. -/
def holding (rt : Runtime) (input : ReserveInput) (uuid : String)
    (account : FinancialAccount) (amount : Decimal) (db : Database) :
    BucketScript :=
  match lookupAccount account.id db with
  | none =>
      refused (.of .internalError
        "Financial account vanished during reservation." [])
  | some row =>
      match budgetRefusal rt input.amount amount row with
      | some refusal => refused refusal
      | none =>
          match rt.storeText input.amount with
          | none => refused .decimal
          | some stored =>
              let res := newReservation input account.id stored uuid
              .write (planHolding res)
                (fun _ =>
                  match reserveChange rt row amount with
                  | none => refused .decimal
                  | some change =>
                      .always ⟨[.account account.id],
                          updateAccount account.id change⟩
                        (.commit (.done (.reserved (.ok res)))))
                (refused .constraint)

/-- What `reserve` does with its account. -/
def reservingOn (rt : Runtime) (input : ReserveInput) (uuid : String) :
    Except Failure FinancialAccount → BucketScript
  | .error failure => .done (.reserved (.error failure))
  | .ok account =>
      match rt.toDecimal input.amount with
      | none => .done (.reserved (.error .decimal))
      | some amount =>
          .locking (.account account.id)
            (holding rt input uuid account amount)

inductive BucketCall where
  | ensureAccount (key : AccountKey) (limitAmount : Option String)
      (accountUuid : String)
  | reserve (input : ReserveInput) (accountUuid uuid : String)

namespace BucketCall

def key : BucketCall → AccountKey
  | .ensureAccount key _ _ => key
  | .reserve input _ _ => input.toAccountKey

def limitAmount : BucketCall → Option String
  | .ensureAccount _ limitAmount _ => limitAmount
  | .reserve _ _ _ => none

def accountUuid : BucketCall → String
  | .ensureAccount _ _ accountUuid => accountUuid
  | .reserve _ accountUuid _ => accountUuid

/-- What follows once the account is there. -/
def after (rt : Runtime) :
    BucketCall → Except Failure FinancialAccount → BucketScript
  | .ensureAccount _ _ _ => fun result => .done (.ensured result)
  | .reserve input _ uuid => reservingOn rt input uuid

def script (rt : Runtime) (call : BucketCall) : BucketScript :=
  ensuring rt call.key call.limitAmount call.accountUuid (call.after rt)

/-- The call of the service. -/
def perform (rt : Runtime) (call : BucketCall) (db : Database) :
    BucketAnswer × Database :=
  match call with
  | .ensureAccount key limitAmount accountUuid =>
      let done := Financial.ensureAccount rt key limitAmount accountUuid db
      (.ensured done.1, done.2)
  | .reserve input accountUuid uuid =>
      let done := Financial.reserve rt input accountUuid uuid db
      (.reserved done.1, done.2)

end BucketCall

/-! ## A call that runs alone -/

section

variable {rt : Runtime} {db : Database}

theorem rereading_alone (key : AccountKey)
    (after : Except Failure FinancialAccount → BucketScript) :
    (rereading key after).alone [] db =
      (match findAccount key db with
        | some row => (after (.ok row)).alone [] db
        | none =>
            (after (.error (.of .internalError
              "Failed to ensure financial account." []))).alone [] db) := by
  unfold rereading
  rw [Script.alone, overlay_nil]
  cases findAccount key db <;> rfl

theorem createAccount_eq (rt : Runtime) (key : AccountKey)
    (limitAmount : Option String) (uuid : String) (db : Database) :
    createAccount rt key limitAmount uuid db =
      match storedLimit rt limitAmount with
      | none => (.error .decimal, db)
      | some limit =>
          if AccountAllowed (newAccount key limit uuid) db then
            (.ok (newAccount key limit uuid),
              insertAccount (newAccount key limit uuid) db)
          else (.error .constraint, db) := by
  have hcreate : ∀ limit : Option ℚ,
      (do
        if ← (Fallible.query
            (fun db => decide (AccountAllowed (newAccount key limit uuid) db)) :
              Service Bool) then
          Fallible.change (insertAccount (newAccount key limit uuid))
          pure (newAccount key limit uuid)
        else Fallible.fail .constraint : Service FinancialAccount) db =
        if AccountAllowed (newAccount key limit uuid) db then
          (.ok (newAccount key limit uuid),
            insertAccount (newAccount key limit uuid) db)
        else (.error .constraint, db) := by
    intro limit
    rw [Fallible.query_bind]
    by_cases hallowed : AccountAllowed (newAccount key limit uuid) db
    · rw [if_pos hallowed, if_pos (decide_eq_true hallowed)]
      rfl
    · rw [if_neg hallowed, if_neg (by simpa using hallowed)]
      rfl
  unfold createAccount storedLimit
  cases limitAmount with
  | none => exact hcreate none
  | some text =>
      cases hstored : rt.storeText text with
      | none =>
          simp only [hstored, Option.map_none]
          rfl
      | some limit =>
          simp only [hstored, Option.map_some]
          exact hcreate (some limit)

/-- `ensureAccount` that runs alone, and then its caller. -/
theorem ensuring_alone (rt : Runtime) (key : AccountKey)
    (limitAmount : Option String) (uuid : String)
    (after : Except Failure FinancialAccount → BucketScript)
    (db : Database) :
    (ensuring rt key limitAmount uuid after).alone [] db =
      (after (ensureAccount rt key limitAmount uuid db).1).alone []
        (ensureAccount rt key limitAmount uuid db).2 := by
  unfold ensuring ensureAccount
  rw [Script.alone, overlay_nil, Fallible.query_bind]
  cases hfind : findAccount key db with
  | some existing => rfl
  | none =>
      simp only [Fallible.attempt_bind, createAccount_eq, opening]
      cases hlimit : storedLimit rt limitAmount with
      | none =>
          simp only [rereading_alone, hfind, Fallible.query_bind,
            Fallible.fail_apply]
      | some limit =>
          simp only [Script.single, Script.alone, overlay_nil]
          by_cases hallowed : AccountAllowed (newAccount key limit uuid) db
          · have hplan : planOpening (newAccount key limit uuid) db =
                some (openAccount (newAccount key limit uuid)) :=
              if_pos hallowed
            rw [hplan, if_pos hallowed]
            rfl
          · have hplan : planOpening (newAccount key limit uuid) db = none :=
              if_neg hallowed
            rw [hplan, if_neg hallowed]
            simp only [rereading_alone, hfind, Fallible.query_bind,
              Fallible.fail_apply]

/-- What `reserve` does once its account is there. -/
def reserveOn (rt : Runtime) (input : ReserveInput) (uuid : String)
    (account : FinancialAccount) : Service FinancialReservation := do
  let amount ← Fallible.ofOption .decimal (rt.toDecimal input.amount)
  Fallible.transaction do
    match ← Fallible.query (lookupAccount account.id) with
    | none =>
        Fallible.fail (.of .internalError
          "Financial account vanished during reservation." [])
    | some row =>
        match budgetRefusal rt input.amount amount row with
        | some refusal => Fallible.fail refusal
        | none =>
            let stored ←
              Fallible.ofOption .decimal (rt.storeText input.amount)
            let res := newReservation input account.id stored uuid
            if ← Fallible.query (fun db =>
                decide (ReservationAllowed res db)) then
              Fallible.change (insertReservation res)
              let change ← Fallible.ofOption .decimal
                (reserveChange rt row amount)
              Fallible.change (updateAccount account.id change)
              pure res
            else Fallible.fail .constraint

theorem reserve_eq_reserveOn (rt : Runtime) (input : ReserveInput)
    (accountUuid uuid : String) :
    reserve rt input accountUuid uuid =
      ensureAccount rt input.toAccountKey none accountUuid >>=
        reserveOn rt input uuid := rfl

theorem reservingOn_alone (rt : Runtime) (input : ReserveInput)
    (uuid : String) (account : FinancialAccount) (db : Database) :
    (reservingOn rt input uuid (.ok account)).alone [] db =
      (.reserved (reserveOn rt input uuid account db).1,
        (reserveOn rt input uuid account db).2) := by
  unfold reservingOn reserveOn
  cases hamount : rt.toDecimal input.amount with
  | none => rfl
  | some amount =>
      simp only [Fallible.ofOption, Fallible.pure_bind_apply,
        Script.locking, Script.alone, overlay_nil, Fallible.transaction,
        Fallible.query_bind, holding]
      cases hrow : lookupAccount account.id db with
      | none => rfl
      | some row =>
          simp only
          cases hrefusal : budgetRefusal rt input.amount amount row with
          | some refusal => rfl
          | none =>
              simp only
              cases hstored : rt.storeText input.amount with
              | none => rfl
              | some stored =>
                  simp only [Fallible.pure_bind_apply, Fallible.query_bind,
                    Script.alone, overlay_append_singleton, overlay_nil, id]
                  by_cases hallowed : ReservationAllowed
                      (newReservation input account.id stored uuid) db
                  · have hplan : planHolding
                        (newReservation input account.id stored uuid) db =
                          some ⟨[.reservation uuid], insertReservation
                            (newReservation input account.id stored uuid)⟩ :=
                      if_pos hallowed
                    rw [hplan, if_pos (decide_eq_true hallowed)]
                    cases hchange : reserveChange rt row amount with
                    | none => rfl
                    | some change => rfl
                  · have hplan : planHolding
                        (newReservation input account.id stored uuid) db =
                          none := if_neg hallowed
                    rw [hplan, if_neg (by simpa using hallowed)]
                    rfl

/-- A call that runs alone does what the service does. -/
theorem BucketCall.script_alone (rt : Runtime) (call : BucketCall)
    (db : Database) :
    (call.script rt).alone [] db = call.perform rt db := by
  unfold BucketCall.script
  rw [ensuring_alone]
  cases call with
  | ensureAccount key limitAmount accountUuid => rfl
  | reserve input accountUuid uuid =>
      simp only [BucketCall.key, BucketCall.limitAmount,
        BucketCall.accountUuid, BucketCall.after, BucketCall.perform,
        reserve_eq_reserveOn]
      cases hensure : Financial.ensureAccount rt input.toAccountKey none
          accountUuid db with
      | mk result mid =>
          cases result with
          | error failure =>
              rw [Fallible.bind_of_error hensure]
              rfl
          | ok account =>
              rw [Fallible.bind_of_ok hensure]
              exact reservingOn_alone rt input uuid account mid

end

/-! ## The accounts of a bucket -/

section

variable {bucket : Bucket} {db : Database} {key : AccountKey}
  {account : FinancialAccount}

theorem matches_iff : key.Matches account ↔ bucketOf account = key.bucket := by
  simp [AccountKey.Matches, bucketOf, AccountKey.bucket]

theorem mem_bucketIds_of_find (h : findAccount key db = some account) :
    account.id ∈ bucketIds key.bucket db := by
  have hmem := List.mem_of_find?_eq_some h
  have hmatch := List.find?_some h
  rw [decide_eq_true_eq, matches_iff] at hmatch
  unfold bucketIds
  apply List.mem_map_of_mem
  rw [List.mem_filter, decide_eq_true_eq]
  exact ⟨hmem, hmatch⟩

theorem bucketIds_eq_nil_of_find (h : findAccount key db = none) :
    bucketIds key.bucket db = [] := by
  unfold findAccount at h
  rw [List.find?_eq_none] at h
  unfold bucketIds
  rw [List.map_eq_nil_iff, List.filter_eq_nil_iff]
  intro account hmem hbucket
  apply h account hmem
  rw [decide_eq_true_eq] at hbucket ⊢
  exact matches_iff.mpr hbucket

theorem find_eq_none_of_bucketIds (h : bucketIds key.bucket db = []) :
    findAccount key db = none := by
  cases hfind : findAccount key db with
  | none => rfl
  | some account =>
      have hmem := mem_bucketIds_of_find hfind
      rw [h] at hmem
      exact absurd hmem List.not_mem_nil

theorem bucketIds_subset : bucketIds bucket db ⊆ accountIds db := by
  intro id hmem
  unfold bucketIds at hmem
  obtain ⟨account, haccount, heq⟩ := List.mem_map.mp hmem
  unfold accountIds
  rw [← heq]
  exact List.mem_map_of_mem (List.mem_of_mem_filter haccount)

theorem lookupAccount_eq_none_iff {id : String} :
    lookupAccount id db = none ↔ id ∉ accountIds db :=
  KeyedTable.lookup_eq_none_iff

theorem bucketIds_insertAccount (hbucket : bucketOf account = bucket) :
    bucketIds bucket (insertAccount account db) =
      bucketIds bucket db ++ [account.id] := by
  unfold bucketIds insertAccount
  rw [List.filter_append, List.map_append]
  simp [hbucket]

theorem accountIds_insertAccount :
    accountIds (insertAccount account db) =
      accountIds db ++ [account.id] := by
  unfold accountIds insertAccount
  rw [List.map_append]
  rfl

/-- The change leaves the id and the key columns as they are. -/
def KeepsBucket (change : FinancialAccount → FinancialAccount) : Prop :=
  ∀ account, (change account).id = account.id ∧
    bucketOf (change account) = bucketOf account

theorem keepsBucket_reserveChange {rt : Runtime} {row : FinancialAccount}
    {amount : Decimal} {change : FinancialAccount → FinancialAccount}
    (h : reserveChange rt row amount = some change) : KeepsBucket change := by
  unfold reserveChange at h
  rw [Option.bind_eq_bind, Option.bind_eq_some_iff] at h
  obtain ⟨reserved, _, hchange⟩ := h
  have heq : (fun account : FinancialAccount =>
      { account with currentReserved := reserved }) = change :=
    Option.some.inj hchange
  intro account
  rw [← heq]
  exact ⟨rfl, rfl⟩

theorem bucketIds_updateAccount {id : String}
    {change : FinancialAccount → FinancialAccount}
    (hkeeps : KeepsBucket change) :
    bucketIds bucket (updateAccount id change db) = bucketIds bucket db := by
  have hrow : ∀ account : FinancialAccount,
      ((if account.id = id then change account else account).id =
          account.id) ∧
        bucketOf (if account.id = id then change account else account) =
          bucketOf account := by
    intro account
    by_cases hid : account.id = id
    · rw [if_pos hid]
      exact hkeeps account
    · rw [if_neg hid]
      exact ⟨rfl, rfl⟩
  unfold bucketIds updateAccount KeyedTable.modify
  simp only [List.filter_map, List.map_map]
  have hfilter : ((fun account => decide (bucketOf account = bucket)) ∘
      fun account : FinancialAccount =>
        if account.id = id then change account else account) =
      fun account => decide (bucketOf account = bucket) := by
    funext account
    simp only [Function.comp_apply, (hrow account).2]
  have hids : (FinancialAccount.id ∘
      fun account : FinancialAccount =>
        if account.id = id then change account else account) =
      FinancialAccount.id := by
    funext account
    exact (hrow account).1
  rw [hfilter, hids]

theorem accountIds_updateAccount {id : String}
    {change : FinancialAccount → FinancialAccount}
    (hkeeps : KeepsBucket change) :
    accountIds (updateAccount id change db) = accountIds db :=
  KeyedTable.map_key_modify (fun account => (hkeeps account).1) id _

end

end Financial
end Orvex
