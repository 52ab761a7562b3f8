import Orvex.Core.Python
import Orvex.Foundation.Action
import Orvex.Foundation.Entries
import Orvex.Foundation.Retry
import Orvex.Memory.SessionState
import Orvex.Shared.Backoff

/-!
# Calls of tools

A call records that it begins, runs the tool within its budget of attempts,
and records a result or an error.  The result is recorded inside the attempt,
so a result that the event does not accept makes the attempt fail.  The delay
before another attempt is computed where the exception is handled, so its own
exception leaves the call.
-/

namespace Orvex
namespace ToolRegistry

open SessionState (AppendCall EventType TrustContext TrustLevel)

/-- An exception with the name of its class and its text. -/
structure ToolException where
  className : String
  text : String
  deriving DecidableEq

/-- What a run of a tool returns. -/
structure ToolResult where
  output : PyValue
  /-- `result.trust_level.value`; `none` when there is no such attribute. -/
  trustLevel : Option PyValue
  sourceType : PyValue
  contentHash : PyValue
  latencyMs : ℚ
  error : Option String

/-- What awaiting a run within the timeout ends with.  A cancellation while
the next attempt is waited for is the outcome of that attempt. -/
inductive RunOutcome where
  | returned (result : ToolResult)
  | raised (exception : ToolException)
  | cancelled

structure ToolSpec where
  name : String
  maxRetries : ℤ

/-- What the calls on one buffer share. -/
structure Session where
  lib : SessionState.Library
  context : SessionState.ExecutionContext
  tools : Entries String ToolSpec
  /-- The time and the identifier that the event at a place reads. -/
  stamp : ℕ → String × String
  /-- What is raised for a missing attribute and by the validation. -/
  attributeError : ToolException
  validationError : ToolException

structure Invocation where
  name : String
  /-- `input.model_dump()`. -/
  input : Json
  outcome : ℕ → RunOutcome

/-- `_content_hash(payload)`. -/
def contentHash (lib : SessionState.Library) (payload : Json) : String :=
  "sha256:" ++ lib.sha256 (lib.dumps payload)

/-! ## Events -/

def levelText : TrustLevel → String
  | .trusted => "TRUSTED"
  | .internal => "INTERNAL"
  | .external => "EXTERNAL"
  | .untrusted => "UNTRUSTED"
  | .unknown => "UNKNOWN"

/-- The trust level of the event schema that a value names. -/
def levelNamed (value : PyValue) : Option TrustLevel :=
  [TrustLevel.trusted, .internal, .external, .untrusted, .unknown].find?
    (fun level => value.isText (levelText level))

/-- A reference of an event: a text or nothing. -/
def requireRef : PyValue → Option (Option String)
  | .none => some none
  | .str text => some (some text)
  | _ => none

/-- The event that records a result, or what recording it raises. -/
def resultEvent (session : Session) (name : String) (place : ℕ)
    (result : ToolResult) : Except ToolException AppendCall :=
  match result.trustLevel with
  | none => .error session.attributeError
  | some value =>
      match result.sourceType, levelNamed value,
          requireRef result.contentHash with
      | .str source, some level, some reference =>
          .ok {
            eventType := .toolResult
            action := some (.object [("tool", .string name),
              ("trust_level", .string (levelText level))])
            inputRef := none
            outputRef := reference
            trustContext := some ⟨source, level⟩
            timestamp := (session.stamp place).1
            eventId := (session.stamp place).2 }
      | _, _, _ => .error session.validationError

def callEvent (session : Session) (invocation : Invocation) (place : ℕ) :
    AppendCall where
  eventType := .toolCall
  action := some (.object [("tool", .string invocation.name),
    ("input", invocation.input)])
  inputRef := some (contentHash session.lib invocation.input)
  outputRef := none
  trustContext := none
  timestamp := (session.stamp place).1
  eventId := (session.stamp place).2

/-- `type(last_error).__name__`. -/
def errorClass (lastError : Option ToolException) : String :=
  (lastError.map ToolException.className).getD "NoneType"

/-- `str(last_error)`. -/
def errorText (lastError : Option ToolException) : String :=
  (lastError.map ToolException.text).getD "None"

def errorEvent (session : Session) (name : String) (place : ℕ)
    (lastError : Option ToolException) : AppendCall where
  eventType := .toolError
  action := some (.object [("tool", .string name),
    ("error", .string (errorClass lastError))])
  inputRef := none
  outputRef := none
  trustContext := some ⟨name, .unknown⟩
  timestamp := (session.stamp place).1
  eventId := (session.stamp place).2

/-- The result that is returned when all attempts failed. -/
def errorResult (session : Session) (name : String)
    (lastError : Option ToolException) : ToolResult where
  output := .dict [("error", .str (errorText lastError))]
  trustLevel := some (.str "UNKNOWN")
  sourceType := .str name
  contentHash := .str (contentHash session.lib
    (.object [("error", .string (errorText lastError))]))
  latencyMs := 0
  error := some (errorText lastError)

/-! ## Calls -/

/-- How the attempts end. -/
inductive LoopEnd where
  | recorded (result : ToolResult) (event : AppendCall)
  | cancelled
  /-- There is no delay before the next attempt: an `OverflowError`. -/
  | overflowed
  | failed (lastError : Option ToolException)

structure Loop where
  runs : ℕ
  ended : LoopEnd

def Loop.after (loop : Loop) : Loop := { loop with runs := loop.runs + 1 }

/-- `attempt < attempts - 1` with so many attempts left after this one, and the
delay overflows. -/
def delayOverflows (left attempt : ℕ) : Bool :=
  decide (0 < left) && Backoff.overflows attempt

/-- The attempts that are left, the number of the next one, and what the runs
to come give. -/
def attempts (session : Session) (name : String) (place : ℕ) :
    ℕ → ℕ → (ℕ → RunOutcome) → Option ToolException → Loop
  | 0, _, _, lastError => ⟨0, .failed lastError⟩
  | left + 1, attempt, outcome, _ =>
      let later : ℕ → RunOutcome := fun run => outcome (run + 1)
      match outcome 0 with
      | .cancelled => ⟨1, .cancelled⟩
      | .raised exception =>
          if delayOverflows left attempt then ⟨1, .overflowed⟩
          else
            (attempts session name place left (attempt + 1) later
              (some exception)).after
      | .returned result =>
          match resultEvent session name place result with
          | .ok event => ⟨1, .recorded result event⟩
          | .error exception =>
              if delayOverflows left attempt then ⟨1, .overflowed⟩
              else
                (attempts session name place left (attempt + 1) later
                  (some exception)).after

/-- `tool.spec.max_retries + 1`, as a number of attempts. -/
def budget (tool : ToolSpec) : ℕ := (tool.maxRetries + 1).toNat

/-- How a call ends. -/
inductive Ended where
  /-- The name is not registered: a `KeyError`. -/
  | unknownTool
  | cancelled
  | overflowError
  | returned (result : ToolResult)

structure Call where
  events : List SessionState.TrajectoryEvent
  runs : ℕ
  ended : Ended

/-- `call(name, input, context, trajectory)` on a buffer. -/
def call (session : Session) (events : List SessionState.TrajectoryEvent)
    (invocation : Invocation) : Call :=
  match session.tools.get invocation.name with
  | none => ⟨events, 0, .unknownTool⟩
  | some tool =>
      let append := SessionState.append session.lib session.context
      let begun := append events
        (callEvent session invocation events.length)
      let loop := attempts session invocation.name begun.length
        (budget tool) 0 invocation.outcome none
      match loop.ended with
      | .recorded result event =>
          ⟨append begun event, loop.runs, .returned result⟩
      | .cancelled => ⟨begun, loop.runs, .cancelled⟩
      | .overflowed => ⟨begun, loop.runs, .overflowError⟩
      | .failed lastError =>
          ⟨append begun (errorEvent session invocation.name begun.length
            lastError), loop.runs,
            .returned (errorResult session invocation.name lastError)⟩

/-- What happens to a buffer: a call of a tool, or an event of another
component. -/
inductive Use where
  | call (invocation : Invocation)
  | other (event : AppendCall)

def eventsAfter (session : Session)
    (events : List SessionState.TrajectoryEvent) :
    Use → List SessionState.TrajectoryEvent
  | .call invocation => (call session events invocation).events
  | .other event =>
      SessionState.append session.lib session.context events event

/-- The buffer after these uses. -/
def run (session : Session) (uses : List Use) :
    List SessionState.TrajectoryEvent :=
  uses.foldl (eventsAfter session) []

end ToolRegistry
end Orvex
