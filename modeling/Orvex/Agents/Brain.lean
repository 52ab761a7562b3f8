import Orvex.Foundation.Workflow
import Orvex.Models.Router
import Orvex.Tools.Outcomes

/-!
# The agent brain

The brain plans, searches and compares until a candidate is selected or its
rounds are used up, and proposes the candidate.  The searches are untrusted
evidence, and each node records what it does in the trajectory.
-/

namespace Orvex
namespace AgentBrain


structure SearchResult where
  title : String
  url : String
  snippet : String

structure EvidenceSource where
  sourceId : String
  sourceType : String
  trustLevel : SessionState.TrustLevel

structure Evidence where
  evidenceId : String
  source : EvidenceSource
  contentHash : String
  claim : Option String
  rawReference : Option String
  derivedFrom : List String
  trajectoryEventIds : List String

inductive ActionType where
  | pay | transfer | purchase | callApi | swap | other
  deriving DecidableEq

def ActionType.text : ActionType → String
  | .pay => "PAY"
  | .transfer => "TRANSFER"
  | .purchase => "PURCHASE"
  | .callApi => "CALL_API"
  | .swap => "SWAP"
  | .other => "OTHER"

inductive RecipientType where
  | service | wallet | contract | merchant | unknown
  deriving DecidableEq

def RecipientType.text : RecipientType → String
  | .service => "SERVICE"
  | .wallet => "WALLET"
  | .contract => "CONTRACT"
  | .merchant => "MERCHANT"
  | .unknown => "UNKNOWN"

structure Money where
  value : String
  currency : String

structure RecipientRef where
  type : RecipientType
  identifier : Option String
  address : Option String
  network : Option String

structure ActionProposal where
  proposalId : String
  intentId : String
  agentId : String
  actionType : ActionType
  purpose : String
  recipient : Option RecipientRef
  amount : Option Money
  paymentMethod : Option String
  network : Option String
  reason : String
  evidenceIds : List String
  trajectoryEventIds : List String

/-! ## The proposal -/

/-- A text or nothing, as the proposal's model requires it. -/
def optionalText : PyValue → Except PyException (Option String)
  | .none => .ok none
  | .str text => .ok (some text)
  | _ => .error .validationError

/-- One of the texts that the proposal's model lists. -/
def named {α : Type} (all : List α) (text : α → String) (value : PyValue) :
    Except PyException α :=
  match all.find? (fun x => value.isText (text x)) with
  | some x => .ok x
  | none => .error .validationError

/-- `_valid_decimal(value)`. -/
def validDecimal (py : Python) : PyValue → Bool
  | .str text =>
      match py.decimal (py.strip text) with
      | some decimal =>
          match decimal.value with
          | .finite _ => true
          | _ => false
      | none => false
  | _ => false

/-- The amount that a dictionary states. -/
def moneyOf (py : Python) (amount : PyDict) : Option Money :=
  match amount.get "value" with
  | .str text =>
      if validDecimal py (.str text) then
        some ⟨text, py.str (amount.getD "currency" (.str ""))⟩
      else none
  | _ => none

def amountOf (py : Python) (candidate : PyDict) : Option Money :=
  match candidate.get "amount" with
  | .dict amount => moneyOf py amount
  | _ => none

def recipientTypes : List RecipientType :=
  [.service, .wallet, .contract, .merchant, .unknown]

/-- The recipient that a dictionary identifies. -/
def refOf (recipient : PyDict) :
    Except PyException (Option RecipientRef) :=
  if ((recipient.get "identifier").orElse
      (recipient.get "address")).truthy then do
    let type ← named recipientTypes RecipientType.text
      (recipient.getD "type" (.str "UNKNOWN"))
    let identifier ← optionalText (recipient.get "identifier")
    let address ← optionalText (recipient.get "address")
    let network ← optionalText (recipient.get "network")
    return some ⟨type, identifier, address, network⟩
  else .ok none

def recipientOf (candidate : PyDict) :
    Except PyException (Option RecipientRef) :=
  match candidate.get "recipient" with
  | .dict recipient => refOf recipient
  | _ => .ok none

def actionTypes : List ActionType :=
  [.pay, .transfer, .purchase, .callApi, .swap, .other]

/-- `build_proposal`, with the identifier that it makes. -/
def buildProposal (py : Python) (proposalId : String) (intentId : PyValue)
    (agentId : String) (candidate : PyDict) (evidenceIds : List String)
    (trajectoryEventIds : List String) :
    Except PyException ActionProposal := do
  let recipient ← recipientOf candidate
  let intentId ← intentId.requireText
  let actionType ← named actionTypes ActionType.text
    (candidate.getD "action_type" (.str "PAY"))
  let paymentMethod ← optionalText (candidate.get "payment_method")
  let network ←
    if (candidate.get "network").truthy then
      optionalText (candidate.get "network")
    else .ok (recipient.bind RecipientRef.network)
  return {
    proposalId := proposalId
    intentId := intentId
    agentId := agentId
    actionType := actionType
    purpose := py.str (candidate.getD "purpose" (.str "unspecified"))
    recipient := recipient
    amount := amountOf py candidate
    paymentMethod := paymentMethod
    network := network
    reason := py.str (candidate.getD "reason" (.str ""))
    evidenceIds := evidenceIds
    trajectoryEventIds := trajectoryEventIds }

/-! ## The nodes -/

/-- What the brain is given, and what happens while it runs. -/
structure Environment where
  py : Python
  session : ToolRegistry.Session
  agentId : String
  /-- `self._context.intent_id`. -/
  contextIntentId : Option String
  maxIterations : ℤ
  /-- What the requests to the models end with, in their order. -/
  answer :
    ℕ → Except ProviderRouter.RouterError ProviderRouter.ModelResponse
  /-- What the runs of the search tool end with, by call. -/
  search : ℕ → ℕ → ToolRegistry.RunOutcome
  /-- `getattr(result.output, "results", [])`. -/
  results : ToolRegistry.ToolResult → List SearchResult
  /-- A value in an event. -/
  json : PyValue → Json
  evidenceId : ℕ → String
  proposalId : String

structure AgentState where
  intentId : PyValue
  intent : PyDict
  iterations : ℕ
  plan : List String
  planSummary : String
  observations : List SearchResult
  evidenceIds : List String
  selectedCandidate : Option PyDict
  noCandidateReason : Option String
  proposal : Option ActionProposal

/-- The state with the trajectory, the evidence and the number of the
requests to the models. -/
structure Brain where
  state : AgentState
  events : List SessionState.TrajectoryEvent
  evidence : List Evidence
  asked : ℕ

inductive Node where
  | loadIntent | plan | research | compare | propose | finish
  deriving DecidableEq

inductive Raised where
  | provider (error : ProviderRouter.RouterError)
  | python (exception : PyException)
  | unknownTool
  | cancelled
  | overflowError

def initial (env : Environment) (intent : PyDict) : Brain where
  state :=
    { intentId := intent.getD "intent_id"
        (.str (env.contextIntentId.getD ""))
      intent := intent
      iterations := 0
      plan := []
      planSummary := ""
      observations := []
      evidenceIds := []
      selectedCandidate := none
      noCandidateReason := none
      proposal := none }
  events := []
  evidence := []
  asked := 0

/-- `self._trajectory.append(event_type=..., action=...)`. -/
def record (env : Environment) (eventType : SessionState.EventType)
    (action : Json) (events : List SessionState.TrajectoryEvent) :
    List SessionState.TrajectoryEvent :=
  SessionState.append env.session.lib env.session.context events
    { eventType := eventType
      action := some action
      inputRef := none
      outputRef := none
      trustContext := none
      timestamp := (env.session.stamp events.length).1
      eventId := (env.session.stamp events.length).2 }

def python {α : Type} : Except PyException α → Except Raised α
  | .ok a => .ok a
  | .error exception => .error (.python exception)

/-- `(resp.structured or {})` of the next request, on which `get` is
called. -/
def ask (env : Environment) (asked : ℕ) : Except Raised PyDict :=
  match env.answer asked with
  | .error error => .error (.provider error)
  | .ok response => python (response.structured.orElse (.dict [])).asDict

def loadIntent (env : Environment) (b : Brain) : Brain :=
  { b with
    events := record env .intentCreated
      (.object [("intent_id", env.json b.state.intentId)]) b.events }

def defaultPlan : List PyValue :=
  [.str "Identify candidate providers",
    .str "Compare against budget and intent"]

def planOf (data : PyDict) : List PyValue :=
  match data.getD "plan" (.list []) with
  | .list [] => defaultPlan
  | .list steps => steps
  | _ => defaultPlan

def plan (env : Environment) (b : Brain) : Except Raised Brain := do
  let data ← ask env b.asked
  let steps := planOf data
  let texts := steps.map env.py.str
  return { b with
    state := { b.state with
      plan := texts
      planSummary := "; ".intercalate texts }
    events := record env .planCreated
      (.object [("steps", env.json (.list steps))]) b.events
    asked := b.asked + 1 }

/-- `intent.get("purpose") or intent.get("user_goal", "service")`. -/
def queryOf (intent : PyDict) : PyValue :=
  (intent.get "purpose").orElse (intent.getD "user_goal" (.str "service"))

def searchCall (env : Environment) (b : Brain) : ToolRegistry.Invocation where
  name := "search"
  input := .object [("query", .string (env.py.str (queryOf b.state.intent))),
    ("max_results", .number 5)]
  outcome := env.search b.state.iterations

/-- `content_hash(text)`. -/
def contentHash (lib : SessionState.Library) (text : String) : String :=
  "sha256:" ++ lib.sha256 text

/-- `make_evidence` of a result, at its place in the evidence. -/
def evidenceOf (env : Environment) (lastEvent : List String) (place : ℕ)
    (result : SearchResult) : Evidence where
  evidenceId := env.evidenceId place
  source := ⟨result.url, "SEARCH", .untrusted⟩
  contentHash := contentHash env.session.lib result.snippet
  claim := some result.title
  rawReference := some result.url
  derivedFrom := []
  trajectoryEventIds := lastEvent

def research (env : Environment) (b : Brain) : Except Raised Brain :=
  let made := ToolRegistry.call env.session b.events (searchCall env b)
  match made.ended with
  | .unknownTool => .error .unknownTool
  | .cancelled => .error .cancelled
  | .overflowError => .error .overflowError
  | .returned result =>
      let found := env.results result
      let lastEvent := (made.events.getLast?.map
        SessionState.TrajectoryEvent.eventId).toList
      let evidence := found.mapIdx fun i hit =>
        evidenceOf env lastEvent (b.evidence.length + i) hit
      .ok { b with
        state := { b.state with
          iterations := b.state.iterations + 1
          observations := b.state.observations ++ found
          evidenceIds := b.state.evidenceIds ++
            evidence.map Evidence.evidenceId }
        events := made.events
        evidence := b.evidence ++ evidence }

/-- The first of the keys that holds a non-empty dictionary. -/
def wrapped (data : PyDict) : List String → Option PyDict
  | [] => none
  | key :: rest =>
      match data.get key with
      | .dict (first :: fields) => some (first :: fields)
      | _ => wrapped data rest

/-- `_extract_candidate(data)`. -/
def extractCandidate (data : PyDict) : Option PyDict :=
  match wrapped data ["selected_candidate", "candidate", "action"] with
  | some candidate => some candidate
  | none =>
      if (data.get "action_type").truthy || (data.get "amount").truthy then
        some data
      else none

/-- The answer, the candidate and the number of requests that are made: a
second one where observations gave no candidate. -/
def select (env : Environment) (b : Brain) :
    Except Raised (PyDict × Option PyDict × ℕ) := do
  let data ← ask env b.asked
  match extractCandidate data with
  | some candidate => return (data, some candidate, 1)
  | none =>
      if b.state.observations.isEmpty then return (data, none, 1)
      else
        let retry ← ask env (b.asked + 1)
        return (data, extractCandidate retry, 2)

def noReason : String := "No suitable candidate found."

/-- A candidate is never empty, so it is selected when there is one. -/
def compare (env : Environment) (b : Brain) : Except Raised Brain := do
  let (data, candidate, requests) ← select env b
  match candidate with
  | some candidate =>
      return { b with
        state := { b.state with selectedCandidate := some candidate }
        events := record env .observation
          (.object [("selected",
            env.json (candidate.getD "purpose" (.str "candidate")))])
          b.events
        asked := b.asked + requests }
  | none =>
      return { b with
        state := { b.state with
          selectedCandidate := none
          noCandidateReason :=
            some (env.py.str (data.getD "reason" (.str noReason))) }
        asked := b.asked + requests }

/-- `_should_continue_research(state)`. -/
def shouldContinueResearch (env : Environment) (state : AgentState) : Node :=
  if state.selectedCandidate.isSome then .propose
  else if env.maxIterations ≤ state.iterations then .propose
  else .research

def optionalString : Option String → Json
  | none => .null
  | some text => .string text

def moneyDump : Option Money → Json
  | none => .null
  | some money => .object [("value", .string money.value),
      ("currency", .string money.currency)]

def recipientDump : Option RecipientRef → Json
  | none => .null
  | some recipient => .object [("type", .string recipient.type.text),
      ("identifier", optionalString recipient.identifier),
      ("address", optionalString recipient.address),
      ("network", optionalString recipient.network)]

def propose (env : Environment) (b : Brain) : Except Raised Brain :=
  match b.state.selectedCandidate with
  | none =>
      .ok { b with
        state := { b.state with proposal := none }
        events := record env .observation
          (.object [("no_candidate",
            optionalString b.state.noCandidateReason)]) b.events }
  | some candidate => do
      let proposal ← python (buildProposal env.py env.proposalId
        b.state.intentId env.agentId candidate b.state.evidenceIds
        (b.events.map SessionState.TrajectoryEvent.eventId))
      return { b with
        state := { b.state with proposal := some proposal }
        events := record env .proposalCreated
          (.object [("proposal_id", .string proposal.proposalId),
            ("action_type", .string proposal.actionType.text),
            ("amount", moneyDump proposal.amount),
            ("recipient", recipientDump proposal.recipient)]) b.events }

/-- The graph that `_build` compiles. -/
def graph (env : Environment) : Workflow Node Brain Raised where
  step node b :=
    match node with
    | .loadIntent => .ok (.plan, loadIntent env b)
    | .plan => do
        let planned ← plan env b
        return (.research, planned)
    | .research => do
        let researched ← research env b
        return (.compare, researched)
    | .compare => do
        let compared ← compare env b
        return (shouldContinueResearch env compared.state, compared)
    | .propose => do
        let proposed ← propose env b
        return (.finish, proposed)
    | .finish => .ok (.finish, b)
  last := .finish

/-- What executes a compiled graph from a node on. -/
abbrev Engine (φ : Type) :=
  Workflow Node Brain Raised → Node → Brain → Except φ Brain

/-- `run(intent)`; `ainvoke` is the one of the compiled graph. -/
def run {φ : Type} (env : Environment) (ainvoke : Engine φ)
    (intent : PyDict) : Except φ Brain :=
  ainvoke (graph env) .loadIntent (initial env intent)

end AgentBrain
end Orvex
