import Orvex.Trajectory.Appends

/-!
# Ingestion from the stream

A consumer of the stream appends the event of every message it is given and
acknowledges the message, whether the event was stored or refused.  It may
stop between the append and the acknowledgement, and any statement of the
append may fail for reasons of the database.
-/

namespace Orvex
namespace Trajectory

open ReadCommitted

/-- The `event` field of a message, once it is parsed. -/
structure StreamedEvent where
  companyId : Option String
  traceId : Option String
  agentId : Option String
  sequence : ℚ
  eventType : String
  timestamp : String
  payload : Option Json
  sourceRef : Option String
  trustContext : Option Json
  provenanceRefs : Option (List String)
  previousEventHash : Option String
  eventHash : Option String

inductive Message where
  /-- Without an `event` field. -/
  | malformed
  /-- With one that is no JSON. -/
  | unreadable
  | event (parsed : StreamedEvent)

def parseStreamedEvent (parsed : StreamedEvent) :
    Except Failure AppendEventInput :=
  if !truthy parsed.companyId || !truthy parsed.traceId ||
      !truthy parsed.agentId then
    .error (.of .invalidInput
      "Streamed trajectory event missing binding fields." [])
  else
    .ok
      { companyId := parsed.companyId.getD ""
        traceId := parsed.traceId.getD ""
        agentId := parsed.agentId.getD ""
        sequence := parsed.sequence
        eventType := parsed.eventType
        timestamp := parsed.timestamp
        payload := parsed.payload.getD (.object [])
        sourceRef := parsed.sourceRef
        trustContext := parsed.trustContext
        provenanceRefs := parsed.provenanceRefs
        eventHash := parsed.eventHash
        previousEventHash := parsed.previousEventHash }

/-- What a message is counted as. -/
inductive Count where
  | processed | duplicate | rejected | nothing
  deriving DecidableEq

inductive Handled where
  | acknowledged (count : Count)
  /-- The consumer stopped before it acknowledged the message. -/
  | lost
  deriving DecidableEq

/-- `/duplicate/i.test(text)`. -/
def saysDuplicate (text : String) : Bool :=
  (text.toList.map Char.toLower).tails.any
    (fun rest => "duplicate".toList.isPrefixOf rest)

def countFailure : Failure → Count
  | .core error =>
      if error.code = .invalidInput && saysDuplicate error.message then
        .duplicate
      else .rejected
  | _ => .rejected

def countAnswer (input : AppendEventInput) : Answer → Count
  | .event (.ok event) =>
      if (event.sequence : ℚ) = input.sequence then .processed else .nothing
  | .event (.error failure) => countFailure failure
  | _ => .nothing

/-- `XACK`, with the tables as they are by then. -/
def acknowledge (count : Count) : Script Database RowKey Handled :=
  .read (fun _ => .done (.acknowledged count))

/-- The append, of which a statement may fail. -/
def appendOnce (rt : Runtime) (input : AppendEventInput) (uuid : String) :
    Option ℕ → TraceScript
  | none => appendEvent rt input uuid
  | some statement =>
      (appendEvent rt input uuid).failing
        (.done (.event (.error .connectionLost))) statement

/-- `failure` is the statement that fails, if one does. -/
def handleMessage (rt : Runtime) (message : Message) (uuid : String)
    (failure : Option ℕ) : Script Database RowKey Handled :=
  match message with
  | .malformed => acknowledge .rejected
  | .unreadable => acknowledge .rejected
  | .event parsed =>
      match parseStreamedEvent parsed with
      | .error error => acknowledge (countFailure error)
      | .ok input =>
          (appendOnce rt input uuid failure).andThen
            (fun answer => acknowledge (countAnswer input answer))

/-! ## A stream that carries the events of a trace -/

/-- The events of a trace, in order, and how many there are. -/
structure Stream where
  length : ℕ
  event : ℕ → StreamedEvent

/-- The instant of an event. -/
def instantOf (rt : Runtime) (event : StreamedEvent) : ℤ :=
  (rt.parseDate event.timestamp).getD 0

/-- The hash of the chain once this many events are stored. -/
def Stream.hashAt (rt : Runtime) (traceId : String) (stream : Stream) :
    ℕ → String
  | 0 => genesisHash
  | k + 1 =>
      computeEventHash rt traceId ((k : ℚ) + 1) (stream.event k).eventType
        (rt.toISOString (instantOf rt (stream.event k)))
        ((stream.event k).payload.getD (.object []))
        (stream.event k).provenanceRefs (stream.hashAt rt traceId k)

/-- The event belongs at this place of the trace. -/
structure Fits (rt : Runtime) (trace : TrajectoryTrace) (stream : Stream)
    (k : ℕ) : Prop where
  companyId : (stream.event k).companyId = some trace.companyId
  traceId : (stream.event k).traceId = some trace.id
  agentId : (stream.event k).agentId = some trace.agentId
  named : trace.companyId ≠ "" ∧ trace.id ≠ "" ∧ trace.agentId ≠ ""
  sequence : (stream.event k).sequence = (k : ℚ) + 1
  timestamp : rt.parseDate (stream.event k).timestamp =
    some (instantOf rt (stream.event k))
  previousEventHash : (stream.event k).previousEventHash = none ∨
    (stream.event k).previousEventHash = some (stream.hashAt rt trace.id k)
  eventHash : (stream.event k).eventHash = none ∨
    (stream.event k).eventHash = some (stream.hashAt rt trace.id (k + 1))

def Carries (rt : Runtime) (trace : TrajectoryTrace) (stream : Stream) :
    Prop :=
  ∀ k < stream.length, Fits rt trace stream k

/-- The row holds the event at this place of the stream. -/
structure Holds (rt : Runtime) (stream : Stream) (k : ℕ)
    (row : TrajectoryEvent) : Prop where
  sequence : row.sequence = (k : ℤ) + 1
  agentId : some row.agentId = (stream.event k).agentId
  eventType : row.eventType = (stream.event k).eventType
  timestamp : row.timestamp = instantOf rt (stream.event k)
  payload : row.payloadJson = (stream.event k).payload.getD (.object [])
  sourceRef : row.sourceRef = (stream.event k).sourceRef
  trustContext : row.trustContextJson = (stream.event k).trustContext
  provenanceRefs : row.provenanceRefsJson = (stream.event k).provenanceRefs

end Trajectory
end Orvex
