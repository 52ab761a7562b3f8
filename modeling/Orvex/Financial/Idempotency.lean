import Orvex.Core.Database

/-!
# Idempotency records

The first request with a key registers it.  A repetition with the same body
is recognized, and the same key with another body is refused.
-/

namespace Orvex
namespace Idempotency

structure RegisterInput where
  companyId : String
  idempotencyKey : String
  operationType : String
  request : Json
  resourceType : Option String
  resourceId : Option String

inductive RegisterOutcome where
  | new | replay
  deriving DecidableEq

def requestHash (rt : Runtime) (request : Json) : String :=
  sha256Json rt request

def SameKey (input : RegisterInput) (record : IdempotencyRecord) : Prop :=
  record.companyId = input.companyId ∧
    record.operationType = input.operationType ∧
      record.idempotencyKey = input.idempotencyKey

instance (input : RegisterInput) (record : IdempotencyRecord) :
    Decidable (SameKey input record) :=
  inferInstanceAs (Decidable (_ ∧ _ ∧ _))

def findRecord (input : RegisterInput) (db : Database) :
    Option IdempotencyRecord :=
  idempotencyTable.find (fun record => SameKey input record) db

def conflict (input : RegisterInput) : Failure :=
  .of .idempotencyConflict
    "Idempotency key reused with a different request."
    [("idempotencyKey", input.idempotencyKey),
      ("operationType", input.operationType)]

def replayOf (rt : Runtime) (input : RegisterInput)
    (record : IdempotencyRecord) :
    Service (RegisterOutcome × IdempotencyRecord) :=
  if record.requestHash ≠ requestHash rt input.request then
    Fallible.fail (conflict input)
  else pure (.replay, record)

def newRecord (rt : Runtime) (input : RegisterInput) (uuid : String) :
    IdempotencyRecord :=
  { id := uuid
    companyId := input.companyId
    idempotencyKey := input.idempotencyKey
    operationType := input.operationType
    resourceType := input.resourceType
    resourceId := input.resourceId
    requestHash := requestHash rt input.request
    status := .inProgress
    responseJson := none }

/-- After a failed insertion: another caller may have registered the key. -/
def afterRace (rt : Runtime) (input : RegisterInput)
    (winner : Option IdempotencyRecord) :
    Service (RegisterOutcome × IdempotencyRecord) :=
  match winner with
  | some record => replayOf rt input record
  | none =>
      Fallible.fail (.of .internalError "Idempotency registration failed." [])

def register (rt : Runtime) (input : RegisterInput) (uuid : String) :
    Service (RegisterOutcome × IdempotencyRecord) := do
  match ← Fallible.query (findRecord input) with
  | some existing => replayOf rt input existing
  | none =>
      match ← Fallible.attempt (idempotencyTable.create .constraint
          (fun db => (findRecord input db).isNone)
          (newRecord rt input uuid)) with
      | .ok created => pure (.new, created)
      | .error _ => do
          afterRace rt input (← Fallible.query (findRecord input))

/-! ## What a registration writes -/

theorem keeps_replayOf {inv : Database → Prop} (rt : Runtime)
    (input : RegisterInput) (record : IdempotencyRecord) :
    Fallible.Keeps inv (replayOf rt input record) := by
  unfold replayOf
  split
  · exact Fallible.keeps_fail _
  · exact Fallible.keeps_pure _

/-- A registration writes nothing but a new record. -/
theorem keeps_register {inv : Database → Prop}
    (hinsert : ∀ db record, inv db → inv (idempotencyTable.insert record db))
    (rt : Runtime) (input : RegisterInput) (uuid : String) :
    Fallible.Keeps inv (register rt input uuid) := by
  unfold register
  refine Fallible.Keeps.bind (Fallible.keeps_query _) (fun existing => ?_)
  cases existing with
  | some record => exact keeps_replayOf rt input record
  | none =>
      have hcreate : Fallible.Keeps inv
          (idempotencyTable.create Failure.constraint
            (fun db => (findRecord input db).isNone)
            (newRecord rt input uuid)) :=
        Table.keeps_create (fun db hdb _ => hinsert db _ hdb)
      refine hcreate.attempt.bind (fun created => ?_)
      cases created with
      | ok record => exact Fallible.keeps_pure _
      | error failure =>
          refine Fallible.Keeps.bind (Fallible.keeps_query _) (fun winner => ?_)
          cases winner with
          | some record => exact keeps_replayOf rt input record
          | none => exact Fallible.keeps_fail _

/-- The first registration of all is new. -/
theorem register_first {rt : Runtime} {input : RegisterInput}
    {uuid : String} {db : Database} (hrecords : db.idempotencyRecords = []) :
    register rt input uuid db =
      (.ok (.new, newRecord rt input uuid),
        idempotencyTable.insert (newRecord rt input uuid) db) := by
  have hfind : findRecord input db = none := by
    change db.idempotencyRecords.find? _ = none
    rw [hrecords, List.find?_nil]
  have hnew : idempotencyTable.lookup (newRecord rt input uuid).id db =
      none := by
    change KeyedTable.lookup _ _ db.idempotencyRecords = none
    rw [hrecords]
    rfl
  have hcreate := @Table.create_eq_ok Database Failure _ idempotencyTable
    .constraint (fun db => (findRecord input db).isNone)
    (newRecord rt input uuid) (newRecord rt input uuid) db _ |>.mpr
    ⟨hnew, by rw [hfind]; rfl, rfl, rfl⟩
  unfold register
  rw [Fallible.query_bind]
  simp only [hfind, Fallible.attempt_bind, hcreate, Fallible.pure_apply]

end Idempotency
end Orvex
