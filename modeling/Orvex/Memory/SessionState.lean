import Orvex.Core.Runtime

/-!
# The trajectory of a session

The buffer of a session appends events and chains them by hashes.
-/

namespace Orvex
namespace SessionState

/-- What the Python standard library computes for the module. -/
structure Library where
  /-- `sha256(text.encode()).hexdigest()`. -/
  sha256 : String → String
  /-- `json.dumps(value, sort_keys=True, default=str)`. -/
  dumps : Json → String

inductive TrustLevel where
  | trusted | internal | external | untrusted | unknown
  deriving DecidableEq

structure TrustContext where
  sourceType : String
  trustLevel : TrustLevel
  deriving DecidableEq

inductive EventType where
  | userRequest | intentCreated | intentUpdated | planCreated | toolCall
  | toolResult | webAccess | apiCall | memoryRead | memoryWrite
  | externalInput | observation | planChange | recipientChange | amountChange
  | assetChange | proposalCreated | securityAnalysis | policyCheck
  | simulation | approvalRequest | approvalResult | executionRequest
  | executionResult | toolError
  deriving DecidableEq

def EventType.text : EventType → String
  | .userRequest => "USER_REQUEST"
  | .intentCreated => "INTENT_CREATED"
  | .intentUpdated => "INTENT_UPDATED"
  | .planCreated => "PLAN_CREATED"
  | .toolCall => "TOOL_CALL"
  | .toolResult => "TOOL_RESULT"
  | .webAccess => "WEB_ACCESS"
  | .apiCall => "API_CALL"
  | .memoryRead => "MEMORY_READ"
  | .memoryWrite => "MEMORY_WRITE"
  | .externalInput => "EXTERNAL_INPUT"
  | .observation => "OBSERVATION"
  | .planChange => "PLAN_CHANGE"
  | .recipientChange => "RECIPIENT_CHANGE"
  | .amountChange => "AMOUNT_CHANGE"
  | .assetChange => "ASSET_CHANGE"
  | .proposalCreated => "PROPOSAL_CREATED"
  | .securityAnalysis => "SECURITY_ANALYSIS"
  | .policyCheck => "POLICY_CHECK"
  | .simulation => "SIMULATION"
  | .approvalRequest => "APPROVAL_REQUEST"
  | .approvalResult => "APPROVAL_RESULT"
  | .executionRequest => "EXECUTION_REQUEST"
  | .executionResult => "EXECUTION_RESULT"
  | .toolError => "TOOL_ERROR"

structure TrajectoryEvent where
  eventId : String
  traceId : String
  sequence : ℕ
  timestamp : String
  agentId : String
  eventType : EventType
  /-- A dictionary. -/
  action : Json
  inputRef : Option String
  outputRef : Option String
  trustContext : Option TrustContext
  previousEventHash : String
  eventHash : String

structure ExecutionContext where
  agentId : String
  traceId : String

/-! ## The buffer -/

def genesisHash : String := "0x" ++ String.ofList (List.replicate 64 '0')

def hash (lib : Library) (parts : List String) : String :=
  "0x" ++ lib.sha256 ("|".intercalate parts)

/-- The hash of an event with these parts at this place. -/
def eventHashOf (lib : Library) (traceId : String) (place : ℕ)
    (eventType : EventType) (action : Json) (previous : String) : String :=
  hash lib [traceId, toString place, eventType.text, lib.dumps action,
    previous]

/-- The arguments of a call of `append`, with the time and the identifier
that it reads. -/
structure AppendCall where
  eventType : EventType
  action : Option Json
  inputRef : Option String
  outputRef : Option String
  trustContext : Option TrustContext
  timestamp : String
  eventId : String

def lastHash (events : List TrajectoryEvent) : String :=
  (events.getLast?.map TrajectoryEvent.eventHash).getD genesisHash

def append (lib : Library) (context : ExecutionContext)
    (events : List TrajectoryEvent) (call : AppendCall) :
    List TrajectoryEvent :=
  let previous := lastHash events
  let action := call.action.getD (.object [])
  events ++
    [{ eventId := call.eventId
       traceId := context.traceId
       sequence := events.length
       timestamp := call.timestamp
       agentId := context.agentId
       eventType := call.eventType
       action := action
       inputRef := call.inputRef
       outputRef := call.outputRef
       trustContext := call.trustContext
       previousEventHash := previous
       eventHash := eventHashOf lib context.traceId events.length
         call.eventType action previous }]

/-- The events of a buffer after these calls. -/
def buffer (lib : Library) (context : ExecutionContext)
    (calls : List AppendCall) : List TrajectoryEvent :=
  calls.foldl (append lib context) []

/-- The loop of `verify_chain` from the place of the next event. -/
def verifyFrom (lib : Library) :
    String → ℕ → List TrajectoryEvent → Bool
  | _, _, [] => true
  | previous, place, event :: rest =>
      if event.previousEventHash ≠ previous then false
      else if event.eventHash ≠ eventHashOf lib event.traceId place
          event.eventType event.action previous then false
      else verifyFrom lib event.eventHash (place + 1) rest

def verifyChain (lib : Library) (events : List TrajectoryEvent) : Bool :=
  verifyFrom lib genesisHash 0 events

end SessionState
end Orvex
