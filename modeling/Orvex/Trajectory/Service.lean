import Orvex.Concurrency.Scripts
import Orvex.Core.Database
import Orvex.Core.Hash
import Mathlib.Data.List.Sort

/-!
# Trajectories

The events of a trace form a hash chain.  The trace holds the sequence and
the hash of the last event, and an event is appended only behind it.
-/

namespace Orvex
namespace Trajectory

open ReadCommitted

def genesisHash : String := "sha256:genesis"

structure CreateTraceInput where
  companyId : String
  agentId : String
  intentId : Option String
  deriving DecidableEq

structure AppendEventInput where
  companyId : String
  traceId : String
  agentId : String
  sequence : ℚ
  eventType : String
  timestamp : String
  payload : Json
  sourceRef : Option String
  trustContext : Option Json
  provenanceRefs : Option (List String)
  eventHash : Option String
  previousEventHash : Option String

/-- The fields that an event hash is computed over. -/
def hashedFields (traceId : String) (sequence : ℚ)
    (eventType timestamp : String) (payload : Json)
    (provenanceRefs : Option (List String)) (previousEventHash : String) :
    List (String × Json) :=
  [("traceId", .string traceId), ("sequence", .number sequence),
    ("eventType", .string eventType), ("timestamp", .string timestamp),
    ("payload", payload),
    ("provenanceRefs", textArray (provenanceRefs.getD [])),
    ("previousEventHash", .string previousEventHash)]

def computeEventHash (rt : Runtime) (traceId : String) (sequence : ℚ)
    (eventType timestamp : String) (payload : Json)
    (provenanceRefs : Option (List String)) (previousEventHash : String) :
    String :=
  sha256Json rt (.object (hashedFields traceId sequence eventType timestamp
    payload provenanceRefs previousEventHash))

/-! ## Reading -/

def getTrace (companyId traceId : String) (db : Database) :
    Option TrajectoryTrace :=
  traceTable.find (fun trace =>
    trace.id = traceId ∧ trace.companyId = companyId) db

def getEvents (companyId traceId : String) (db : Database) :
    List TrajectoryEvent :=
  (db.trajectoryEvents.filter (fun event =>
    event.traceId = traceId ∧ event.companyId = companyId)).insertionSort
    (fun a b => a.sequence ≤ b.sequence)

/-- The events continue a chain at this sequence, after this hash. -/
def verifyFrom (rt : Runtime) (traceId : String) :
    ℤ → String → List TrajectoryEvent → Bool
  | _, _, [] => true
  | expected, last, event :: rest =>
      decide (event.sequence = expected) &&
        decide (event.previousEventHash = last) &&
        decide (computeEventHash rt traceId event.sequence event.eventType
          (rt.toISOString event.timestamp) event.payloadJson
          event.provenanceRefsJson last = event.eventHash) &&
        verifyFrom rt traceId (expected + 1) event.eventHash rest

def verifyChain (rt : Runtime) (companyId traceId : String)
    (db : Database) : Bool :=
  verifyFrom rt traceId 1 genesisHash (getEvents companyId traceId db)

/-! ## Creating a trace -/

def newTrace (input : CreateTraceInput) (uuid : String) :
    TrajectoryTrace where
  id := uuid
  companyId := input.companyId
  agentId := input.agentId
  intentId := input.intentId
  traceHash := none
  status := .active
  sequenceHead := 0
  headHash := some genesisHash
  completedAt := none

def createTrace (input : CreateTraceInput) (uuid : String) :
    Service TrajectoryTrace := do
  match ← Fallible.query (agentTable.find (fun agent =>
      agent.id = input.agentId ∧ agent.companyId = input.companyId)) with
  | none =>
      Fallible.fail (.of .tenantError "Agent not found in this company."
        [("companyId", input.companyId), ("agentId", input.agentId)])
  | some _ =>
      traceTable.create .constraint (companyExists input.companyId)
        (newTrace input uuid)

/-! ## Appending an event -/

def traceStatusText : TrajectoryTraceStatus → String
  | .active => "ACTIVE"
  | .completed => "COMPLETED"
  | .aborted => "ABORTED"
  | .corrupted => "CORRUPTED"

/-- What an append has established before it looks for duplicates. -/
structure Admitted where
  trace : TrajectoryTrace
  headHash : String
  timestamp : String
  hash : String

def admission (rt : Runtime) (input : AppendEventInput) (db : Database) :
    Except Failure Admitted :=
  match getTrace input.companyId input.traceId db with
  | none =>
      .error (.of .notFound "Trajectory trace not found in this company."
        [("companyId", input.companyId), ("traceId", input.traceId)])
  | some trace =>
      let headHash := trace.headHash.getD genesisHash
      if input.agentId ≠ trace.agentId then
        .error (.of .invalidInput "Event agent does not match trace agent."
          [("eventAgent", input.agentId), ("traceAgent", trace.agentId)])
      else if trace.status ≠ .active then
        .error (.of .conflict "Cannot append to a non-active trace."
          [("traceId", trace.id), ("status", traceStatusText trace.status)])
      else if input.sequence ≠ (trace.sequenceHead : ℚ) + 1 then
        .error (.of .invalidInput
          "Out-of-order or duplicate trajectory sequence."
          [("expected", rt.numberToString (trace.sequenceHead + 1)),
            ("received", rt.numberToString input.sequence)])
      else if input.previousEventHash.isSome ∧
          input.previousEventHash ≠ some headHash then
        .error (.of .invalidInput
          "previous_event_hash does not match chain head."
          [("expected", headHash),
            ("received", input.previousEventHash.getD "")])
      else
        match rt.parseDate input.timestamp with
        -- `toISOString` of an invalid date
        | none => .error .language
        | some instant =>
            let timestamp := rt.toISOString instant
            let hash := computeEventHash rt input.traceId input.sequence
              input.eventType timestamp input.payload input.provenanceRefs
              headHash
            if input.eventHash.isSome ∧ input.eventHash ≠ some hash then
              .error (.of .invalidInput
                "event_hash does not match event content (tamper)."
                [("expected", hash),
                  ("received", input.eventHash.getD "")])
            else .ok ⟨trace, headHash, timestamp, hash⟩

/-- The rows and index entries that the calls lock. -/
inductive RowKey where
  | trace (id : String)
  | event (id : String)
  | place (traceId : String) (sequence : ℤ)
  | digest (eventHash : String)
  deriving DecidableEq

def findEvent (hash : String) (db : Database) : Option TrajectoryEvent :=
  trajectoryEventTable.find (fun event => event.eventHash = hash) db

def newEvent (input : AppendEventInput) (admitted : Admitted)
    (instant : ℤ) (uuid : String) : TrajectoryEvent where
  id := uuid
  traceId := input.traceId
  companyId := input.companyId
  agentId := input.agentId
  sequence := (admitted.trace.sequenceHead : ℤ) + 1
  eventType := input.eventType
  timestamp := instant
  payloadJson := input.payload
  sourceRef := input.sourceRef
  trustContextJson := input.trustContext
  provenanceRefsJson := input.provenanceRefs
  previousEventHash := admitted.headHash
  eventHash := admitted.hash

/-- The primary key and the two unique indexes. -/
def eventAllowed (event : TrajectoryEvent) (db : Database) : Bool :=
  (trajectoryEventTable.lookup event.id db).isNone &&
    db.trajectoryEvents.all (fun other =>
      (other.traceId != event.traceId || other.sequence != event.sequence) &&
        other.eventHash != event.eventHash)

def insertEvent (event : TrajectoryEvent) : Write Database RowKey :=
  ⟨[.event event.id, .place event.traceId event.sequence,
    .digest event.eventHash], trajectoryEventTable.insert event⟩

def planEvent (rt : Runtime) (input : AppendEventInput)
    (admitted : Admitted) (uuid : String) (db : Database) :
    Option (Write Database RowKey) :=
  (rt.parseDate admitted.timestamp).bind (fun instant =>
    let event := newEvent input admitted instant uuid
    if eventAllowed event db then some (insertEvent event) else none)

def advance (admitted : Admitted) (trace : TrajectoryTrace) :
    TrajectoryTrace :=
  { trace with
    sequenceHead := admitted.trace.sequenceHead + 1
    headHash := some admitted.hash }

/-- An update of the trace by its id. -/
def planTrace (id : String) (change : TrajectoryTrace → TrajectoryTrace)
    (db : Database) : Option (Write Database RowKey) :=
  (traceTable.lookup id db).map (fun _ =>
    ⟨[.trace id], traceTable.modify id change⟩)

inductive Answer where
  | event (result : Except Failure TrajectoryEvent)
  | trace (result : Except Failure TrajectoryTrace)
  /-- The call never ended. -/
  | lost

abbrev TraceScript := Script Database RowKey Answer

def refuse (failure : Failure) : TraceScript :=
  .rollback (.done (.event (.error failure)))

def publishEvent (event : TrajectoryEvent) : TraceScript :=
  .commit (.done (.event (.ok event)))

def advanceHead (admitted : Admitted) (event : TrajectoryEvent) :
    TraceScript :=
  .write (planTrace admitted.trace.id (advance admitted))
    (fun _ => publishEvent event) (refuse .recordNotFound)

/-- The event that the row just inserted holds. -/
def insertedEvent (rt : Runtime) (input : AppendEventInput)
    (admitted : Admitted) (uuid : String) : TrajectoryEvent :=
  newEvent input admitted ((rt.parseDate admitted.timestamp).getD 0) uuid

def createEvent (rt : Runtime) (input : AppendEventInput)
    (admitted : Admitted) (uuid : String) : TraceScript :=
  .write (planEvent rt input admitted uuid)
    (fun _ => advanceHead admitted (insertedEvent rt input admitted uuid))
    (refuse .constraint)

def findDuplicate (rt : Runtime) (input : AppendEventInput)
    (admitted : Admitted) (uuid : String) : TraceScript :=
  .read (fun db =>
    match findEvent admitted.hash db with
    | some duplicate => publishEvent duplicate
    | none => createEvent rt input admitted uuid)

def appendEvent (rt : Runtime) (input : AppendEventInput) (uuid : String) :
    TraceScript :=
  .read (fun db =>
    match admission rt input db with
    | .error failure => refuse failure
    | .ok admitted => findDuplicate rt input admitted uuid)

/-! ## Completing a trace -/

def complete (now : ℤ) (trace : TrajectoryTrace) : TrajectoryTrace :=
  { trace with status := .completed, completedAt := some now }

def completed (id : String) (now : ℤ) (db : Database) :
    Except Failure TrajectoryTrace :=
  match traceTable.lookup id db with
  | some trace => .ok (complete now trace)
  | none => .error .recordNotFound

def completeTrace (companyId traceId : String) (now : ℤ) : TraceScript :=
  .read (fun db =>
    match getTrace companyId traceId db with
    | none =>
        .done (.trace (.error (.of .notFound "Trajectory trace not found."
          [("traceId", traceId)])))
    | some trace =>
        .single (planTrace trace.id (complete now))
          (fun seen => .done (.trace (completed trace.id now seen)))
          (.done (.trace (.error .recordNotFound))))

end Trajectory
end Orvex
