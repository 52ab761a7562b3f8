import Orvex.Execution.Chains

/-!
# The idempotency store

Records are kept under their execution, and an index leads from an
idempotency key to the execution that was recorded under it last.
-/

namespace Orvex
namespace Execution

structure ExecutionRecord where
  executionId : String
  idempotencyKey : String
  result : ExecutionResult
  verification : Option ReceiptVerification
  authorized : Option AuthorizedExpectation
  deriving DecidableEq

structure IdempotencyStore where
  /-- From a key to an execution. -/
  keyIndex : Entries String String
  records : Entries String ExecutionRecord

namespace IdempotencyStore

def empty : IdempotencyStore := ⟨.empty, .empty⟩

def byKey (store : IdempotencyStore) (key : String) :
    Option ExecutionRecord :=
  match store.keyIndex.get key with
  | none => none
  | some id => if id ≠ "" then store.records.get id else none

def byExecutionId (store : IdempotencyStore) (id : String) :
    Option ExecutionRecord :=
  store.records.get id

def put (store : IdempotencyStore) (record : ExecutionRecord) :
    IdempotencyStore :=
  { keyIndex := store.keyIndex.set record.idempotencyKey record.executionId
    records := store.records.set record.executionId record }

def update (store : IdempotencyStore) (id : String)
    (patch : ExecutionRecord → ExecutionRecord) : IdempotencyStore :=
  match store.records.get id with
  | none => store
  | some existing =>
      { store with records := store.records.set id (patch existing) }

variable {store : IdempotencyStore}

@[simp] theorem keyIndex_update (id : String)
    (patch : ExecutionRecord → ExecutionRecord) :
    (store.update id patch).keyIndex = store.keyIndex := by
  unfold update
  split
  next => rfl
  next => rfl

@[simp] theorem byExecutionId_put (record : ExecutionRecord) (id : String) :
    (store.put record).byExecutionId id =
      if id = record.executionId then some record
      else store.byExecutionId id :=
  Entries.get_set store.records record.executionId id record

@[simp] theorem byExecutionId_update (id other : String)
    (patch : ExecutionRecord → ExecutionRecord) :
    (store.update id patch).byExecutionId other =
      if other = id then (store.byExecutionId id).map patch
      else store.byExecutionId other := by
  unfold update byExecutionId
  cases hrecord : store.records.get id with
  | none =>
      by_cases heq : other = id
      · simp [heq, hrecord]
      · simp [heq]
  | some existing => exact Entries.get_set store.records id other _

theorem byKey_eq_some {key : String} {record : ExecutionRecord} :
    store.byKey key = some record ↔
      ∃ id, id ≠ "" ∧ store.keyIndex.get key = some id ∧
        store.byExecutionId id = some record := by
  unfold byKey byExecutionId
  cases hid : store.keyIndex.get key with
  | none => simp
  | some id =>
      by_cases hempty : id = ""
      · simp [hempty]
      · simp [hempty]

end IdempotencyStore
end Execution
end Orvex
