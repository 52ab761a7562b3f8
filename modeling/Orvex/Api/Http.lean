import Orvex.Api.V1
import Orvex.Shared.Logging

/-!
# The routes behind HTTP

A request is authenticated by its headers, its body is parsed by the contract
schemas, and the answer is an envelope with the data or with the error.  The
routes are those that the AI service calls.
-/

namespace Orvex

/-! ## Error codes -/

def ErrorCode.text : ErrorCode → String
  | .invalidInput => "INVALID_INPUT"
  | .schemaError => "SCHEMA_ERROR"
  | .authenticationError => "AUTHENTICATION_ERROR"
  | .authorizationError => "AUTHORIZATION_ERROR"
  | .tenantError => "TENANT_ERROR"
  | .agentNotFound => "AGENT_NOT_FOUND"
  | .agentInactive => "AGENT_INACTIVE"
  | .intentInvalid => "INTENT_INVALID"
  | .intentExpired => "INTENT_EXPIRED"
  | .proposalInvalid => "PROPOSAL_INVALID"
  | .capabilityInvalid => "CAPABILITY_INVALID"
  | .capabilityExpired => "CAPABILITY_EXPIRED"
  | .policyInvalid => "POLICY_INVALID"
  | .policyConflict => "POLICY_CONFLICT"
  | .policyViolation => "POLICY_VIOLATION"
  | .securityAssessmentInvalid => "SECURITY_ASSESSMENT_INVALID"
  | .securityAssessmentStale => "SECURITY_ASSESSMENT_STALE"
  | .insufficientEvidence => "INSUFFICIENT_EVIDENCE"
  | .transactionInvalid => "TRANSACTION_INVALID"
  | .transactionMismatch => "TRANSACTION_MISMATCH"
  | .simulationFailed => "SIMULATION_FAILED"
  | .simulationStale => "SIMULATION_STALE"
  | .approvalRequired => "APPROVAL_REQUIRED"
  | .approvalNotFound => "APPROVAL_NOT_FOUND"
  | .approvalExpired => "APPROVAL_EXPIRED"
  | .approvalMismatch => "APPROVAL_MISMATCH"
  | .approvalDenied => "APPROVAL_DENIED"
  | .decisionStale => "DECISION_STALE"
  | .executionBlocked => "EXECUTION_BLOCKED"
  | .executionFailed => "EXECUTION_FAILED"
  | .executionUnknown => "EXECUTION_UNKNOWN"
  | .receiptMismatch => "RECEIPT_MISMATCH"
  | .concurrencyConflict => "CONCURRENCY_CONFLICT"
  | .idempotencyConflict => "IDEMPOTENCY_CONFLICT"
  | .providerError => "PROVIDER_ERROR"
  | .timeout => "TIMEOUT"
  | .notFound => "NOT_FOUND"
  | .conflict => "CONFLICT"
  | .rateLimited => "RATE_LIMITED"
  | .configurationError => "CONFIGURATION_ERROR"
  | .internalError => "INTERNAL_ERROR"

/-- `ERROR_HTTP_STATUS`. -/
def ErrorCode.httpStatus : ErrorCode → ℕ
  | .invalidInput => 400
  | .authenticationError => 401
  | .authorizationError | .tenantError | .policyViolation
  | .approvalRequired | .approvalDenied | .executionBlocked => 403
  | .agentNotFound | .approvalNotFound | .notFound => 404
  | .schemaError | .intentInvalid | .proposalInvalid | .capabilityInvalid
  | .policyInvalid | .securityAssessmentInvalid | .insufficientEvidence
  | .transactionInvalid | .simulationFailed => 422
  | .agentInactive | .intentExpired | .capabilityExpired | .policyConflict
  | .securityAssessmentStale | .transactionMismatch | .simulationStale
  | .approvalExpired | .approvalMismatch | .decisionStale
  | .receiptMismatch | .concurrencyConflict | .idempotencyConflict
  | .conflict => 409
  | .rateLimited => 429
  | .configurationError | .internalError => 500
  | .executionFailed | .executionUnknown | .providerError => 502
  | .timeout => 504

/-- `ERROR_RETRYABLE`; a code it does not list is not retryable. -/
def ErrorCode.retryable : ErrorCode → Bool
  | .timeout | .rateLimited | .providerError | .concurrencyConflict => true
  | _ => false

/-- `toCoreError`: the exceptions of the packages do not show. -/
def toCoreError : Failure → CoreError
  | .core error => error
  | _ => ⟨.internalError, "An internal error occurred.", []⟩

namespace Http

open Logging (Scrubber isSensitiveKey redactString redacted)

/-! ## Requests and responses -/

inductive Method where
  | get | post
  deriving DecidableEq

structure HttpRequest where
  method : Method
  path : String
  headers : List (String × String)
  json : Option Json

structure HttpResponse where
  status : ℕ
  /-- `none` is a body that is not JSON. -/
  payload : Option Json

/-- A field of a parsed object. -/
def field (name : String) : Json → Option Json
  | .object fields => fields.lookup name
  | _ => none

/-- `ErrorPayload`, with the details redacted. -/
def toPayload (js : Scrubber) (error : CoreError) : Json :=
  .object
    [("code", .string error.code.text),
      ("message", .string error.message),
      ("retryable", .bool error.code.retryable),
      ("details", textFields (error.details.map fun (key, text) =>
        (key, if isSensitiveKey js key then redacted
          else redactString js text)))]

/-- What the server finds with a request: the instant, the ids it generates
for the request, and the one that the database generates. -/
structure Arrival where
  now : ℤ
  requestId : String
  correlationId : String
  uuid : String
  decisionIds : Api.DecisionIds

def envelope (arrival : Arrival) (headers : List (String × String))
    (data error : Json) : Json :=
  .object
    [("schema_version", .string "api.v1"),
      ("request_id", .string
        ((headers.lookup "x-request-id").getD arrival.requestId)),
      ("data", data),
      ("error", error),
      ("meta", .object [("correlation_id", .string
        ((headers.lookup "x-correlation-id").getD arrival.correlationId))])]

/-! ## Authentication -/

inductive CoreEnvironment where
  | localhost | ci | test | testnet | production
  deriving DecidableEq

structure CoreConfig where
  environment : CoreEnvironment
  internalServiceToken : Option String

/-- What the schemas accept. -/
structure Contracts where
  intent : Json → Option Intent
  actionProposal : Json → Option ActionProposal
  securityAssessment : Json → Option SecurityAssessment

/-- A schema keeps the text fields of what it accepts. -/
structure Contracts.Lawful (contracts : Contracts) : Prop where
  proposalIntent : ∀ {body proposal},
    contracts.actionProposal body = some proposal →
      field "intent_id" body = some (.string proposal.intentId)

/-- The parts of the server that do not change. -/
structure Server where
  rt : Runtime
  config : CoreConfig
  contracts : Contracts
  scrubber : Scrubber
  /-- `header.replace(/^Bearer\s+/i, "").trim()`. -/
  withoutBearer : String → String

def bearerRelaxed (config : CoreConfig) : Bool :=
  decide (config.environment = .localhost ∨ config.environment = .test ∨
    config.environment = .ci)

def checkBearer (server : Server) (headers : List (String × String)) :
    Except Failure Unit :=
  if bearerRelaxed server.config then .ok ()
  else if ¬ truthy server.config.internalServiceToken then
    .error (.of .configurationError "Service auth token not configured." [])
  else if some (server.withoutBearer
      ((headers.lookup "authorization").getD "")) ≠
        server.config.internalServiceToken then
    .error (.of .authenticationError "Invalid service credentials." [])
  else .ok ()

def authenticate (server : Server) (headers : List (String × String)) :
    Except Failure Api.AuthContext := do
  checkBearer server headers
  match headers.lookup "x-company-id" with
  | none =>
      .error (.of .authenticationError "Missing tenant (X-Company-Id)." [])
  | some companyId =>
      if companyId = "" then
        .error (.of .authenticationError "Missing tenant (X-Company-Id)." [])
      else
        .ok ⟨companyId, (headers.lookup "x-actor-id").getD "unknown-actor",
          (headers.lookup "x-actor-role").getD "SERVICE"⟩

/-! ## Rows as JSON -/

def nullable (text : Option String) : Json :=
  (text.map .string).getD .null

def intentStatusText : IntentRecordStatus → String
  | .valid => "VALID"
  | .needsClarification => "NEEDS_CLARIFICATION"
  | .expired => "EXPIRED"
  | .cancelled => "CANCELLED"
  | .completed => "COMPLETED"

def intentData (rt : Runtime) (row : IntentRecord) : Json :=
  .object
    [("id", .string row.id), ("companyId", .string row.companyId),
      ("agentId", .string row.agentId), ("userGoal", .string row.userGoal),
      ("purpose", .string row.purpose),
      ("desiredOutcome", .string row.desiredOutcome),
      ("intentJson", row.intentJson),
      ("validFrom", .string (rt.toISOString row.validFrom)),
      ("validUntil", .string (rt.toISOString row.validUntil)),
      ("status", .string (intentStatusText row.status))]

def proposalStatusText : ProposalRecordStatus → String
  | .received => "RECEIVED"
  | .validating => "VALIDATING"
  | .evaluating => "EVALUATING"
  | .approvedCandidate => "APPROVED_CANDIDATE"
  | .reviewRequired => "REVIEW_REQUIRED"
  | .denied => "DENIED"
  | .completed => "COMPLETED"

def proposalData (row : ActionProposalRecord) : Json :=
  .object
    [("id", .string row.id), ("companyId", .string row.companyId),
      ("agentId", .string row.agentId), ("intentId", .string row.intentId),
      ("traceId", nullable row.traceId),
      ("actionType", .string row.actionType.text),
      ("purpose", .string row.purpose), ("proposalJson", row.proposalJson),
      ("paymentMethod", nullable row.paymentMethod),
      ("network", nullable row.network),
      ("evidenceRefsJson", textArray row.evidenceRefsJson),
      ("trajectoryRefsJson", textArray row.trajectoryRefsJson),
      ("status", .string (proposalStatusText row.status))]

def assessmentData (row : SecurityAssessmentRecord) : Json :=
  .object
    [("id", .string row.id), ("companyId", .string row.companyId),
      ("agentId", nullable row.agentId),
      ("proposalId", .string row.proposalId),
      ("traceId", nullable row.traceId),
      ("assessmentJson", row.assessmentJson),
      ("recommendedHandling", .string row.recommendedHandling.text),
      ("assessmentHash", .string row.assessmentHash),
      ("modelMetadataJson", row.modelMetadataJson.getD .null)]

def resultText : DecisionResult → String
  | .allow => "ALLOW"
  | .review => "REVIEW"
  | .deny => "DENY"

def decisionData (row : Decision) : Json :=
  .object
    [("id", .string row.id), ("companyId", .string row.companyId),
      ("agentId", .string row.agentId), ("intentId", .string row.intentId),
      ("proposalId", .string row.proposalId),
      ("policyId", nullable row.policyId),
      ("policyVersionId", nullable row.policyVersionId),
      ("securityAssessmentId", nullable row.securityAssessmentId),
      ("transactionId", nullable row.transactionId),
      ("simulationResultId", nullable row.simulationResultId),
      ("approvalRequestId", nullable row.approvalRequestId),
      ("result", .string (resultText row.result)),
      ("reasonsJson", textArray row.reasonsJson),
      ("determinant", .string row.determinant),
      ("decisionContextHash", .string row.decisionContextHash),
      ("version", .number row.version)]

/-- An undefined approval id is left out. -/
def responseData (response : Api.DecisionResponse) : Json :=
  .object
    ([("decision", decisionData response.decision),
      ("result", .string (resultText response.result)),
      ("context_hash", .string response.contextHash)] ++
      (response.approvalId.map fun id => ("approval_id", .string id)).toList)

/-! ## The routes -/

inductive Route where
  | createIntent
  | createProposal
  | ingestAssessment (proposalId : String)
  | createDecision
  | getDecision (decisionId : String)

/-- The parts of a path between its slashes. -/
def segments (path : String) : List String :=
  (path.toList.splitOn '/').map String.ofList

def route (request : HttpRequest) : Option Route :=
  match request.method, segments request.path with
  | .post, ["", "v1", "intents"] => some .createIntent
  | .post, ["", "v1", "proposals"] => some .createProposal
  | .post, ["", "v1", "proposals", proposalId, "assessments"] =>
      some (.ingestAssessment proposalId)
  | .post, ["", "v1", "decisions"] => some .createDecision
  | .get, ["", "v1", "decisions", decisionId] =>
      some (.getDecision decisionId)
  | _, _ => none

/-- A text field; anything else makes the database package throw. -/
def textField (name : String) (body : Json) : Except Failure String :=
  match field name body with
  | some (.string text) => .ok text
  | _ => .error .language

/-- A text field that may be absent or null. -/
def optionalTextField (name : String) (body : Json) :
    Except Failure (Option String) :=
  match field name body with
  | none | some .null => .ok none
  | some (.string text) => .ok (some text)
  | _ => .error .language

/-- A field that a schema must accept; the schema throws otherwise. -/
def parsedField {α : Type} (parse : Json → Option α) (name : String)
    (body : Json) : Except Failure α :=
  match (field name body).bind parse with
  | some value => .ok value
  | none => .error .language

/-- The body of a decision, without the options that the client never
sends. -/
def decisionBody (contracts : Contracts) (body : Json) :
    Except Failure Api.DecisionBody := do
  let intent ← parsedField contracts.intent "intent" body
  let proposal ← parsedField contracts.actionProposal "proposal" body
  let assessment ←
    parsedField contracts.securityAssessment "security_assessment" body
  let agentId ← textField "agent_id" body
  let traceId ← optionalTextField "trace_id" body
  .ok
    { agentId := agentId
      intent := intent
      proposal := proposal
      securityAssessment := assessment
      traceId := traceId
      assessmentMaxAgeMs := none
      requireSimulation := false }

def readDecision (auth : Api.AuthContext) (decisionId : String) :
    Service (ℕ × Json) := do
  match ← Fallible.query
      (Decisions.getDecision auth.companyId decisionId) with
  | none => Fallible.fail (.of .notFound "Decision not found." [])
  | some decision => pure (200, decisionData decision)

/-- The status and the data of a successful call. -/
def handle (server : Server) (arrival : Arrival) (auth : Api.AuthContext)
    (body : Json) : Route → Service (ℕ × Json)
  | .createIntent => do
      let intent ← Fallible.ofOption (.of .invalidInput
        "Intent failed contract validation." [])
        (server.contracts.intent body)
      let row ← Api.postIntents server.rt auth intent arrival.uuid
      pure (201, intentData server.rt row)
  | .createProposal => do
      let proposal ← Fallible.ofOption (.of .proposalInvalid
        "ActionProposal failed contract validation." [])
        (server.contracts.actionProposal body)
      let row ← Api.postProposals auth proposal arrival.uuid
      pure (201, proposalData row)
  | .ingestAssessment proposalId => do
      let assessment ← Fallible.ofOption (.of .securityAssessmentInvalid
        "SecurityAssessment failed contract validation." [])
        (server.contracts.securityAssessment body)
      let row ← Api.postAssessments server.rt auth proposalId assessment
        arrival.uuid
      pure (201, assessmentData row)
  | .createDecision => do
      let parsed ← reading (fun _ => decisionBody server.contracts body)
      let response ← Api.postDecisions server.rt auth parsed arrival.now
        arrival.decisionIds
      pure (201, responseData response)
  | .getDecision decisionId => readDecision auth decisionId

/-- A request that no route takes, or one that its route takes once it is
authenticated. -/
def respond (server : Server) (arrival : Arrival) (request : HttpRequest) :
    Service (ℕ × Json) :=
  match route request with
  | none => Fallible.fail (.of .notFound "Resource not found." [])
  | some target => do
      let auth ← reading (fun _ => authenticate server request.headers)
      handle server arrival auth (request.json.getD .null) target

/-- The response, and the database afterwards. -/
def serve (server : Server) (arrival : Arrival) (request : HttpRequest)
    (db : Database) : HttpResponse × Database :=
  match respond server arrival request db with
  | (.ok (status, data), after) =>
      (⟨status, some (envelope arrival request.headers data .null)⟩, after)
  | (.error failure, after) =>
      (⟨(toCoreError failure).code.httpStatus,
        some (envelope arrival request.headers .null
          (toPayload server.scrubber (toCoreError failure)))⟩, after)

end Http
end Orvex
