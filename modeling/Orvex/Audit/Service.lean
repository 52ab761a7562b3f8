import Orvex.Concurrency.Scripts
import Orvex.Core.Coercion
import Orvex.Core.Database
import Orvex.Core.Hash
import Orvex.Policy.Rules

/-!
# The audit log

The audit events of one entity form a hash chain.  An append looks for the
end of the chain by the time of creation, so that the chain is the rows of
the entity in the order of their times.
-/

namespace Orvex
namespace Audit

open ReadCommitted

def genesis : String := "sha256:audit-genesis"

structure AppendAuditInput where
  companyId : String
  agentId : Option String
  correlationId : Option String
  requestId : Option String
  entityType : String
  entityId : String
  eventType : String
  actorType : String
  actorId : String
  payload : List (String × Json)
  references : Option (List (String × Json))
  eventKey : Option String

/-- What a chain is about. -/
structure Entity where
  companyId : String
  entityType : String
  entityId : String
  deriving DecidableEq

def AppendAuditInput.entity (input : AppendAuditInput) : Entity :=
  ⟨input.companyId, input.entityType, input.entityId⟩

def entityOf (row : AuditEvent) : Entity :=
  ⟨row.companyId, row.entityType, row.entityId⟩

def computeHash (rt : Runtime) (entity : Entity) (eventType : String)
    (payload : Json) (previousEventHash : String) : String :=
  sha256Json rt (.object
    [("companyId", .string entity.companyId),
      ("entityType", .string entity.entityType),
      ("entityId", .string entity.entityId),
      ("eventType", .string eventType), ("payload", payload),
      ("previousEventHash", .string previousEventHash)])

/-! ## Reading -/

/-- The rows of an entity, as the table lists them. -/
def entityRows (entity : Entity) (db : Database) : List AuditEvent :=
  db.auditEvents.filter (fun row => entityOf row = entity)

/-- The two queries that order rows by their time of creation.  Which of two
rows with one time comes first is up to the database. -/
structure ByCreatedAt where
  latest : List AuditEvent → Option AuditEvent
  timeline : List AuditEvent → List AuditEvent

structure ByCreatedAt.Sorts (order : ByCreatedAt) : Prop where
  latest_mem : ∀ rows row, order.latest rows = some row → row ∈ rows
  latest_max : ∀ rows row, order.latest rows = some row →
    ∀ other ∈ rows, other.createdAt ≤ row.createdAt
  latest_none : ∀ rows, order.latest rows = none → rows = []
  timeline_perm : ∀ rows, (order.timeline rows).Perm rows
  timeline_sorted : ∀ rows,
    (order.timeline rows).Pairwise (fun a b => a.createdAt ≤ b.createdAt)

def getEntityTimeline (order : ByCreatedAt) (entity : Entity)
    (db : Database) : List AuditEvent :=
  order.timeline (entityRows entity db)

/-- The rows continue a chain after this hash. -/
def verifyFrom (rt : Runtime) : String → List AuditEvent → Bool
  | _, [] => true
  | last, row :: rest =>
      decide (row.previousEventHash = last) &&
        decide (computeHash rt (entityOf row) row.eventType row.payloadJson
          last = row.eventHash) &&
        verifyFrom rt row.eventHash rest

def verifyChain (rt : Runtime) (order : ByCreatedAt) (entity : Entity)
    (db : Database) : Bool :=
  verifyFrom rt genesis (getEntityTimeline order entity db)

/-! ## Appending -/

/-- `{ ...fields, [key]: value }`. -/
def setField (key : String) (value : Json) (fields : List (String × Json)) :
    List (String × Json) :=
  if fields.any (fun field => field.1 == key) then
    fields.map (fun field => if field.1 = key then (key, value) else field)
  else fields ++ [(key, value)]

def contentFingerprint (rt : Runtime) (input : AppendAuditInput) : String :=
  sha256Json rt (.object
    [("companyId", .string input.companyId),
      ("entityType", .string input.entityType),
      ("entityId", .string input.entityId),
      ("eventType", .string input.eventType),
      ("payload", .object input.payload),
      ("references", .object (input.references.getD [])),
      ("eventKey", nullable input.eventKey)])

def storedPayload (rt : Runtime) (input : AppendAuditInput) : Json :=
  .object (setField "_fingerprint" (.string (contentFingerprint rt input))
    (setField "references" (.object (input.references.getD []))
      input.payload))

/-- A row of the entity with this event type and fingerprint. -/
def findSameContent (rt : Runtime) (input : AppendAuditInput)
    (db : Database) : Option AuditEvent :=
  (entityRows input.entity db).find? (fun row =>
    row.eventType == input.eventType &&
      match fieldOf "_fingerprint" row.payloadJson with
      | some (.string text) => text == contentFingerprint rt input
      | _ => false)

def findByHash (hash : String) (db : Database) : Option AuditEvent :=
  auditTable.find (fun row => row.eventHash = hash) db

/-- The row of an append that found this hash at the end of the chain. -/
def newRow (rt : Runtime) (input : AppendAuditInput) (createdAt : ℤ)
    (uuid previousHash : String) : AuditEvent where
  id := uuid
  companyId := input.companyId
  agentId := input.agentId
  correlationId := input.correlationId
  requestId := input.requestId
  entityType := input.entityType
  entityId := input.entityId
  eventType := input.eventType
  actorType := input.actorType
  actorId := input.actorId
  payloadJson := storedPayload rt input
  previousEventHash := previousHash
  eventHash := computeHash rt input.entity input.eventType
    (storedPayload rt input) previousHash
  createdAt := createdAt

inductive RowKey where
  | event (id : String)
  | digest (eventHash : String)
  deriving DecidableEq

/-- The primary key, the unique hash, and the company's foreign key. -/
def rowAllowed (row : AuditEvent) (db : Database) : Bool :=
  (auditTable.lookup row.id db).isNone && companyExists row.companyId db &&
    db.auditEvents.all (fun other => other.eventHash != row.eventHash)

def insertRow (row : AuditEvent) : Write Database RowKey :=
  ⟨[.event row.id, .digest row.eventHash], auditTable.insert row⟩

def planRow (row : AuditEvent) (db : Database) :
    Option (Write Database RowKey) :=
  if rowAllowed row db then some (insertRow row) else none

inductive Answer where
  | row (result : Except Failure AuditEvent)
  /-- The call never ended. -/
  | lost

abbrev AuditScript := Script Database RowKey Answer

def publishRow (row : AuditEvent) : AuditScript :=
  .commit (.done (.row (.ok row)))

def createRow (row : AuditEvent) : AuditScript :=
  .write (planRow row) (fun _ => publishRow row)
    (.rollback (.done (.row (.error .constraint))))

def lookForHash (row : AuditEvent) : AuditScript :=
  .read (fun db =>
    match findByHash row.eventHash db with
    | some existing => publishRow existing
    | none => createRow row)

def lookForContent (rt : Runtime) (input : AppendAuditInput)
    (row : AuditEvent) : AuditScript :=
  .read (fun db =>
    match findSameContent rt input db with
    | some prior => publishRow prior
    | none => lookForHash row)

def previousHash (order : ByCreatedAt) (entity : Entity) (db : Database) :
    String :=
  match order.latest (entityRows entity db) with
  | some previous => previous.eventHash
  | none => genesis

def append (rt : Runtime) (order : ByCreatedAt) (input : AppendAuditInput)
    (createdAt : ℤ) (uuid : String) : AuditScript :=
  .read (fun db =>
    lookForContent rt input
      (newRow rt input createdAt uuid (previousHash order input.entity db)))

end Audit
end Orvex
