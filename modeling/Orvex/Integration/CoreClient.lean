import Orvex.Api.Http
import Orvex.Foundation.Exchange

/-!
# The AI service's client of Core

The client sends a request and reads the envelope of the answer.  Reads are
repeated where the network fails; what changes Core is sent once.  The
orchestrator relays an intent, its proposal and the assessment, and then asks
for the decision.
-/

namespace Orvex
namespace CoreClient

open Exchange (World Sends ask)
open Http (HttpRequest HttpResponse)

/-- What the client raises. -/
inductive ClientError where
  /-- `CoreClientError`. -/
  | core (message : String)
  /-- `CoreEnvelopeError`. -/
  | envelope (code message : String) (statusCode : ℕ) (details : Json)
  /-- An `AttributeError` or `TypeError` of the language. -/
  | language

/-- What the network makes of one attempt. -/
inductive Answer where
  /-- `httpx.HTTPError`, with its text. -/
  | httpError (text : String)
  | response (response : HttpResponse)

abbrev Peer (σ : Type) := Exchange.Peer σ HttpRequest Answer

/-- A program that talks to Core, whose network has a state `σ`. -/
abbrev Client (σ α : Type) := Fallible (World σ HttpRequest Answer) ClientError α

structure CoreClientConfig where
  serviceToken : Option String
  maxReadRetries : ℤ
  actorRole : String

structure RequestContext where
  companyId : String
  actorId : String
  correlationId : String

structure CoreDecision where
  decisionId : String
  result : String
  contextHash : String
  /-- `null` where Core names none. -/
  approvalId : Json
  raw : Json

/-! ## Dictionaries -/

/-- `str` of a value that is not a text. -/
abbrev Text := Json → String

def str (text : Text) : Json → String
  | .string s => s
  | value => text value

/-- `value.get(key, default)`. -/
def get (value : Json) (key : String) (default : Json) :
    Except ClientError Json :=
  match value with
  | .object fields => .ok ((fields.lookup key).getD default)
  | _ => .error .language

/-- `value or {}`. -/
def orEmpty : Json → Json
  | .null | .bool false | .string "" | .array [] => .object []
  | .number n => if n = 0 then .object [] else .number n
  | value => value

/-- `_to_dict` of a contract that is a dictionary or was dumped as one. -/
def toDict : Json → Except ClientError (List (String × Json))
  | .object fields => .ok fields
  | _ => .error .language

/-- `{**fields, key: value}`. -/
def withField (key : String) (value : Json) :
    List (String × Json) → List (String × Json)
  | [] => [(key, value)]
  | field :: rest =>
      if field.1 = key then (key, value) :: rest
      else field :: withField key value rest

/-! ## One request -/

def headers (config : CoreClientConfig) (ctx : RequestContext)
    (idempotencyKey : Option String) : List (String × String) :=
  [("content-type", "application/json"), ("x-company-id", ctx.companyId),
    ("x-actor-id", ctx.actorId), ("x-actor-role", config.actorRole),
    ("x-correlation-id", ctx.correlationId)] ++
    (if truthy config.serviceToken then
      [("authorization", "Bearer " ++ config.serviceToken.getD "")]
    else []) ++
    if truthy idempotencyKey then
      [("idempotency-key", idempotencyKey.getD "")]
    else []

/-- What an error of the envelope raises. -/
def envelopeError (text : Text) (status : ℕ) (error : Json) :
    Except ClientError Json := do
  let code ← get error "code" (.string "UNKNOWN")
  let message ← get error "message" (.string "Core error.")
  let details ← get error "details" .null
  .error (.envelope (str text code) (str text message) status
    (orEmpty details))

def parseEnvelope (text : Text) (resp : HttpResponse) :
    Except ClientError Json :=
  match resp.payload with
  | none =>
      .error (.core ("Core returned non-JSON (status " ++
        toString resp.status ++ ")."))
  | some payload => do
      match ← get payload "error" .null with
      | .null =>
          if 400 ≤ resp.status then
            .error (.envelope "HTTP_ERROR"
              ("Core HTTP " ++ toString resp.status ++ ".") resp.status
              (.object []))
          else get payload "data" (.object [])
      | error => envelopeError text resp.status error

section

variable {σ : Type} (peer : Peer σ) (text : Text) (config : CoreClientConfig)

def raising {α : Type} : Except ClientError α → Client σ α
  | .ok a => pure a
  | .error e => Fallible.fail e

/-- The attempts that are left of a request. -/
def attempts (request : HttpRequest) (retryable : Bool) : ℕ → Client σ Json
  | 0 => Fallible.fail (.core "Core request failed: None")
  | left + 1 => do
      match ← ask peer request with
      | .httpError error =>
          if retryable ∧ 0 < left then attempts request retryable left
          else Fallible.fail (.core ("Core request failed: " ++ error))
      | .response resp => raising (parseEnvelope text resp)

def postRequest (path : String) (body : Json) (ctx : RequestContext)
    (idempotencyKey : Option String) : HttpRequest :=
  ⟨.post, path, headers config ctx idempotencyKey, some body⟩

def post (path : String) (body : Json) (ctx : RequestContext)
    (idempotencyKey : Option String) : Client σ Json :=
  attempts peer text (postRequest config path body ctx idempotencyKey) false 1

def getRequest (path : String) (ctx : RequestContext) : HttpRequest :=
  ⟨.get, path, headers config ctx none, none⟩

def readAttempts : ℕ := (config.maxReadRetries + 1).toNat

def read (path : String) (ctx : RequestContext) : Client σ Json :=
  attempts peer text (getRequest config path ctx) true (readAttempts config)

/-! ## The operations -/

def createIntent (ctx : RequestContext) (intent : Json) : Client σ Json :=
  post peer text config "/v1/intents" intent ctx none

def createProposal (ctx : RequestContext) (proposal : Json) :
    Client σ Json :=
  post peer text config "/v1/proposals" proposal ctx none

def assessmentsPath (proposalRowId : String) : String :=
  "/v1/proposals/" ++ proposalRowId ++ "/assessments"

def submitSecurityAssessment (ctx : RequestContext) (proposalRowId : String)
    (assessment : Json) : Client σ Json :=
  post peer text config (assessmentsPath proposalRowId) assessment ctx none

def decisionRequestBody (agentId : String)
    (intent proposal assessment : Json) (traceId : Option String) : Json :=
  .object
    ([("agent_id", .string agentId), ("intent", intent),
      ("proposal", proposal), ("security_assessment", assessment)] ++
      if truthy traceId then [("trace_id", .string (traceId.getD ""))]
      else [])

def coreDecision (data : Json) : Except ClientError CoreDecision := do
  let decision ← get data "decision" (.object [])
  let id ← get decision "id" (.string "")
  let fallback ← get decision "result" (.string "")
  let result ← get data "result" fallback
  let contextHash ← get data "context_hash" (.string "")
  let approvalId ← get data "approval_id" .null
  .ok
    { decisionId := str text id
      result := str text result
      contextHash := str text contextHash
      approvalId := approvalId
      raw := data }

def requestDecision (ctx : RequestContext) (agentId : String)
    (intent proposal assessment : Json) (traceId : Option String) :
    Client σ CoreDecision := do
  let data ← post peer text config "/v1/decisions"
    (decisionRequestBody agentId intent proposal assessment traceId) ctx none
  raising (coreDecision text data)

def decisionPath (decisionId : String) : String :=
  "/v1/decisions/" ++ decisionId

def getDecision (ctx : RequestContext) (decisionId : String) :
    Client σ Json :=
  read peer text config (decisionPath decisionId) ctx

/-! ## The relay -/

/-- What `MLToCoreOrchestrator.run` is given. -/
structure RelayCall where
  ctx : RequestContext
  agentId : String
  intent : Json
  proposal : Json
  securityAssessment : Json
  traceId : Option String

structure OrchestrationResult where
  intentRowId : String
  proposalRowId : String
  assessmentRowId : String
  decision : CoreDecision
  correlationId : String

/-- `str(row.get("id", ""))`. -/
def rowId (row : Json) : Except ClientError String :=
  return str text (← get row "id" (.string ""))

def run (call : RelayCall) : Client σ OrchestrationResult := do
  let intent ← raising (toDict call.intent)
  let proposal ← raising (toDict call.proposal)
  let assessment ← raising (toDict call.securityAssessment)
  let intentRow ← createIntent peer text config call.ctx (.object intent)
  let intentRowId ← raising (rowId text intentRow)
  let proposalRow ← createProposal peer text config call.ctx
    (.object (withField "intent_id" (.string intentRowId) proposal))
  let proposalRowId ← raising (rowId text proposalRow)
  let assessmentRow ← submitSecurityAssessment peer text config call.ctx
    proposalRowId (.object assessment)
  let assessmentRowId ← raising (rowId text assessmentRow)
  let decision ← requestDecision peer text config call.ctx call.agentId
    (.object intent) (.object proposal) (.object assessment) call.traceId
  pure ⟨intentRowId, proposalRowId, assessmentRowId, decision,
    call.ctx.correlationId⟩

end

/-! ## What is sent -/

/-- The dictionary of a contract. -/
def fieldsOf : Json → List (String × Json)
  | .object fields => fields
  | _ => []

/-- The four requests of a relay, where Core named the rows of the intent and
of the proposal. -/
def relayRequests (config : CoreClientConfig) (call : RelayCall)
    (intentRowId proposalRowId : String) : List HttpRequest :=
  [postRequest config "/v1/intents" call.intent call.ctx none,
    postRequest config "/v1/proposals" (.object (withField "intent_id"
      (.string intentRowId) (fieldsOf call.proposal))) call.ctx none,
    postRequest config (assessmentsPath proposalRowId)
      call.securityAssessment call.ctx none,
    postRequest config "/v1/decisions" (decisionRequestBody call.agentId
      call.intent call.proposal call.securityAssessment call.traceId)
      call.ctx none]

section

variable {σ : Type} {peer : Peer σ} {text : Text} {config : CoreClientConfig}

theorem sends_raising_bind {α β : Type} {x : Except ClientError α}
    {k : α → Client σ β}
    {p : Except ClientError β → List HttpRequest → Prop}
    (herror : ∀ e, x = .error e → p (.error e) [])
    (hok : ∀ a, x = .ok a → Sends p (k a)) :
    Sends p (raising x >>= k) := by
  cases x with
  | error e => exact Exchange.sends_fail (herror e rfl)
  | ok a => exact hok a rfl

/-- A request that is not a read is sent once. -/
theorem sends_post {path : String} {body : Json} {ctx : RequestContext}
    {key : Option String} :
    Sends (fun _ requests => requests = [postRequest config path body ctx key])
      (post peer text config path body ctx key) := by
  unfold post
  apply Exchange.sends_ask_bind
  intro answer
  cases answer with
  | httpError error =>
      have hlast : ¬ (false = true ∧ 0 < 0) := fun h => by simp at h
      simp only [if_neg hlast]
      exact Exchange.sends_fail rfl
  | response resp =>
      cases hparse : parseEnvelope text resp with
      | error e =>
          simp only [hparse, raising]
          exact Exchange.sends_fail rfl
      | ok data =>
          simp only [hparse, raising]
          exact Exchange.sends_pure rfl

theorem sends_post_bind {α : Type} {path : String} {body : Json}
    {ctx : RequestContext} {key : Option String} {k : Json → Client σ α}
    {p : Except ClientError α → List HttpRequest → Prop}
    (herror : ∀ e, p (.error e) [postRequest config path body ctx key])
    (hok : ∀ data, Sends (fun result rest =>
      p result (postRequest config path body ctx key :: rest)) (k data)) :
    Sends p (post peer text config path body ctx key >>= k) := by
  apply Sends.bind sends_post
  · intro e requests hrequests
    rw [hrequests]
    exact herror e
  · intro data requests hrequests
    rw [hrequests]
    exact hok data

/-- A read is repeated as often as the configuration allows. -/
theorem sends_attempts (request : HttpRequest) (left : ℕ) :
    Sends (fun result requests => ∃ n ≤ left,
        requests = List.replicate n request ∧ (result.isOk = true → 0 < n))
      (attempts peer text request true left) := by
  induction left with
  | zero =>
      apply Exchange.sends_fail
      exact ⟨0, le_refl _, rfl, fun h => by contradiction⟩
  | succ left ih =>
      apply Exchange.sends_ask_bind
      intro answer
      have hone : ∃ n ≤ left + 1,
          [request] = List.replicate n request ∧ 0 < n :=
        ⟨1, by omega, rfl, by omega⟩
      obtain ⟨n, hle, hsent, hpos⟩ := hone
      cases answer with
      | httpError error =>
          by_cases hagain : 0 < left
          · simp only [hagain, and_self, if_true]
            apply ih.mono
            rintro result requests ⟨more, hmore, hrequests, -⟩
            refine ⟨more + 1, by omega, ?_, fun _ => by omega⟩
            rw [hrequests, List.replicate_succ]
          · simp only [hagain, and_false, if_false]
            exact Exchange.sends_fail ⟨n, hle, hsent, fun _ => hpos⟩
      | response resp =>
          cases hparse : parseEnvelope text resp with
          | error e =>
              simp only [hparse, raising]
              exact Exchange.sends_fail ⟨n, hle, hsent, fun _ => hpos⟩
          | ok data =>
              simp only [hparse, raising]
              exact Exchange.sends_pure ⟨n, hle, hsent, fun _ => hpos⟩

theorem sends_requestDecision {ctx : RequestContext} {agentId : String}
    {intent proposal assessment : Json} {traceId : Option String} :
    Sends (fun _ requests => requests = [postRequest config "/v1/decisions"
        (decisionRequestBody agentId intent proposal assessment traceId) ctx
        none])
      (requestDecision peer text config ctx agentId intent proposal assessment
        traceId) := by
  apply sends_post_bind
  · exact fun _ => rfl
  · intro data
    cases hread : coreDecision text data with
    | error e => exact Exchange.sends_fail rfl
    | ok decision => exact Exchange.sends_pure rfl

theorem toDict_eq_ok {value : Json} {fields : List (String × Json)} :
    toDict value = .ok fields ↔ value = .object fields := by
  cases value <;> simp [toDict]

/-- Whatever the network and Core do, a relay sends its four requests in order
and each at most once, and it has sent all of them when it returns. -/
theorem run_sends (call : RelayCall) :
    Sends (fun result requests =>
        (∃ intentRowId proposalRowId,
          requests <+: relayRequests config call intentRowId proposalRowId) ∧
        ∀ r, result = .ok r →
          requests = relayRequests config call r.intentRowId r.proposalRowId)
      (run peer text config call) := by
  unfold run
  apply sends_raising_bind
  · intro e _
    exact ⟨⟨"", "", List.nil_prefix⟩, fun r h => by contradiction⟩
  intro intent hintent
  apply sends_raising_bind
  · intro e _
    exact ⟨⟨"", "", List.nil_prefix⟩, fun r h => by contradiction⟩
  intro proposal hproposal
  apply sends_raising_bind
  · intro e _
    exact ⟨⟨"", "", List.nil_prefix⟩, fun r h => by contradiction⟩
  intro assessment hassessment
  rw [toDict_eq_ok] at hintent hproposal hassessment
  apply sends_post_bind
  · intro e
    refine ⟨⟨"", "", ?_⟩, fun r h => by contradiction⟩
    simp [relayRequests, hintent]
  intro intentRow
  apply sends_raising_bind
  · intro e _
    refine ⟨⟨"", "", ?_⟩, fun r h => by contradiction⟩
    simp [relayRequests, hintent]
  intro intentRowId _
  apply sends_post_bind
  · intro e
    refine ⟨⟨intentRowId, "", ?_⟩, fun r h => by contradiction⟩
    simp [relayRequests, hintent, hproposal, fieldsOf]
  intro proposalRow
  apply sends_raising_bind
  · intro e _
    refine ⟨⟨intentRowId, "", ?_⟩, fun r h => by contradiction⟩
    simp [relayRequests, hintent, hproposal, fieldsOf]
  intro proposalRowId _
  apply sends_post_bind
  · intro e
    refine ⟨⟨intentRowId, proposalRowId, ?_⟩, fun r h => by contradiction⟩
    simp [relayRequests, hintent, hproposal, hassessment, fieldsOf]
  intro assessmentRow
  apply sends_raising_bind
  · intro e _
    refine ⟨⟨intentRowId, proposalRowId, ?_⟩, fun r h => by contradiction⟩
    simp [relayRequests, hintent, hproposal, hassessment, fieldsOf]
  intro assessmentRowId _
  apply Sends.bind sends_requestDecision
  · intro e requests hrequests
    refine ⟨⟨intentRowId, proposalRowId, ?_⟩, fun r h => by contradiction⟩
    rw [hrequests]
    simp [relayRequests, hintent, hproposal, hassessment, fieldsOf]
  · intro decision requests hrequests
    rw [hrequests]
    apply Exchange.sends_pure
    have hall : relayRequests config call intentRowId proposalRowId =
        [postRequest config "/v1/intents" (.object intent) call.ctx none,
          postRequest config "/v1/proposals" (.object (withField "intent_id"
            (.string intentRowId) proposal)) call.ctx none,
          postRequest config (assessmentsPath proposalRowId)
            (.object assessment) call.ctx none,
          postRequest config "/v1/decisions" (decisionRequestBody call.agentId
            (.object intent) (.object proposal) (.object assessment)
            call.traceId) call.ctx none] := by
      simp [relayRequests, hintent, hproposal, hassessment, fieldsOf]
    constructor
    · rw [List.append_nil, ← hall]
      exact ⟨intentRowId, proposalRowId, List.prefix_rfl⟩
    · intro r hr
      rw [← Except.ok.inj hr, List.append_nil, ← hall]

end

end CoreClient
end Orvex
