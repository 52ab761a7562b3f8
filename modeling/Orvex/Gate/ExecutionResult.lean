import Orvex.Financial.Service

/-!
# Execution results, reconciliation and receipts

The outcome of an execution is reported by an executor, looked up where it
is unknown, and verified against what was authorized.  Each step finishes
the reservation of the request where the outcome says so.
-/

namespace Orvex
namespace ExecutionResults

structure ExecutionResultInput where
  executionId : String
  status : ExecutionResultStatus
  chain : String
  transactionHash : Option String
  submittedAt : Option String
  confirmedAt : Option String
  authenticated : Bool
  deriving DecidableEq

structure AuthorizedReceipt where
  recipient : String
  asset : String
  amount : String
  network : String
  deriving DecidableEq

inductive ClientStatus where
  | confirmed | pending | failed | unknown
  deriving DecidableEq

structure ClientReceipt where
  verified : Bool
  transactionHash : String
  actual : AuthorizedReceipt
  deriving DecidableEq

/-- The execution boundary: the answers of the executor at one moment. -/
structure ExecutionClient where
  getResult : String → Except Failure ClientStatus
  verify : String → Except Failure ClientReceipt

inductive ReconcileOutcome where
  | confirmed | failed | stillUnknown
  deriving DecidableEq

def getRequest (companyId executionId : String) (db : Database) :
    Option ExecutionRequestRecord :=
  executionRequestTable.find (fun request =>
    request.id = executionId ∧ request.companyId = companyId) db

def requireRequest (message companyId executionId : String)
    (db : Database) : Except Failure ExecutionRequestRecord :=
  match getRequest companyId executionId db with
  | some request => .ok request
  | none =>
      .error (.of .executionFailed message [("executionId", executionId)])

/-- The reservation of the request in one of the given states. -/
def findHold (companyId requestId : String)
    (statuses : List ReservationStatus) (db : Database) :
    Option FinancialReservation :=
  reservationTable.find (fun res =>
    res.companyId = companyId ∧ res.executionRequestId = some requestId ∧
      res.status ∈ statuses) db

def setStatus (requestId : String) (status : ExecutionRequestStatus) :
    Service ExecutionRequestRecord :=
  executionRequestTable.update .recordNotFound requestId
    (fun request => { request with status := status })

/-- Runs a completion on the reservation, if there is one. -/
def finish (hold : Option FinancialReservation)
    (complete : String → Service FinancialReservation) : Service Unit :=
  match hold with
  | none => pure ()
  | some res => do
      let _ ← complete res.id
      pure ()

def holdReservation (companyId requestId : String) : Service Unit := do
  let hold ← Fallible.query (findHold companyId requestId [.reserved])
  finish hold (Financial.markUnknown companyId)

def releaseReservation (rt : Runtime) (companyId requestId : String)
    (now : ℤ) : Service Unit := do
  let hold ← Fallible.query (findHold companyId requestId [.reserved])
  finish hold (fun id => Financial.release rt companyId id now)

def dateColumn (rt : Runtime) : Option String → Option (Option ℤ)
  | none => some none
  | some text =>
      if text = "" then some none else (rt.parseDate text).map some

def requestStatus : ExecutionResultStatus → ExecutionRequestStatus
  | .submitted => .submitted
  | .confirmed => .confirmed
  | .failed => .failed
  | .unknown => .unknown

def resultAllowed (requestId : String) (db : Database) : Bool :=
  (executionRequestTable.lookup requestId db).isSome

def createResult (rt : Runtime) (input : ExecutionResultInput)
    (requestId uuid : String) : Service ExecutionResultRecord := do
  let submittedAt ← Fallible.ofOption .language (dateColumn rt input.submittedAt)
  let confirmedAt ← Fallible.ofOption .language (dateColumn rt input.confirmedAt)
  executionResultTable.create .constraint (resultAllowed requestId)
    { id := uuid
      executionRequestId := requestId
      transactionHash := input.transactionHash
      status := input.status
      chain := input.chain
      submittedAt := submittedAt
      confirmedAt := confirmedAt
      rawReference := none }

def ingestResult (rt : Runtime) (companyId : String)
    (input : ExecutionResultInput) (now : ℤ) (uuid : String) :
    Service ExecutionResultRecord := do
  if !input.authenticated then
    Fallible.fail (.of .authenticationError
      "Execution result is not from the authenticated executor."
      [("executionId", input.executionId)])
  else
    let request ← reading (requireRequest
      "Execution result references an unknown execution_id." companyId
      input.executionId)
    if input.chain ≠ request.network then
      Fallible.fail (.of .transactionMismatch
        "Execution result network does not match authorization."
        [("expected", request.network), ("actual", input.chain)])
    else
      let record ← createResult rt input request.id uuid
      let _ ← setStatus request.id (requestStatus input.status)
      if input.status = .unknown then holdReservation companyId request.id
      else pure ()
      if input.status = .failed then
        releaseReservation rt companyId request.id now
      else pure ()
      pure record

def reconcile (rt : Runtime) (client : ExecutionClient)
    (companyId executionId : String) (now : ℤ) :
    Service ReconcileOutcome := do
  let request ← reading (requireRequest
    "Unknown execution_id for reconciliation." companyId executionId)
  match ← reading (fun _ => client.getResult executionId) with
  | .confirmed => do
      let _ ← setStatus request.id .confirmed
      pure .confirmed
  | .failed => do
      let _ ← setStatus request.id .failed
      let hold ← Fallible.query
        (findHold companyId request.id [.reserved, .unknown])
      finish hold (fun id => Financial.reconcileRelease rt companyId id now)
      pure .failed
  | _ => pure .stillUnknown

def receiptJson (receipt : AuthorizedReceipt) : Json :=
  textFields [("recipient", receipt.recipient), ("asset", receipt.asset),
    ("amount", receipt.amount), ("network", receipt.network)]

def nameIf (condition : Bool) (name : String) : List String :=
  if condition then [name] else []

/-- What differs between the authorized and the actual transfer. -/
def discrepancies (rt : Runtime) (authorized : AuthorizedReceipt)
    (receipt : ClientReceipt) : Except Failure (List String) := do
  let actual := receipt.actual
  let expectedAmount ← decimalOf (rt.toDecimal authorized.amount)
  let actualAmount ← decimalOf (rt.toDecimal actual.amount)
  pure
    (nameIf (authorized.recipient != actual.recipient) "recipient" ++
      nameIf (authorized.asset != actual.asset) "asset" ++
      nameIf (!expectedAmount.equals actualAmount) "amount" ++
      nameIf (authorized.network != actual.network) "network" ++
      nameIf (!receipt.verified) "executor_unverified")

def verifyAndFinalize (rt : Runtime) (client : ExecutionClient)
    (companyId executionId : String) (authorized : AuthorizedReceipt)
    (now : ℤ) (uuid : String) :
    Service (ReceiptVerificationRecord × Bool) := do
  let request ← reading (requireRequest
    "Unknown execution_id for verification." companyId executionId)
  let receipt ← reading (fun _ => client.verify executionId)
  let found ← reading (fun _ => discrepancies rt authorized receipt)
  let verified := found.isEmpty
  let verification ← receiptVerificationTable.create .constraint
    (resultAllowed request.id)
    { id := uuid
      executionRequestId := request.id
      status := if verified then .verified else .mismatch
      verified := verified
      transactionHash := some receipt.transactionHash
      expectedJson := receiptJson authorized
      actualJson := receiptJson receipt.actual
      discrepanciesJson := textArray found
      verifiedAt := some now }
  if verified then
    match ← Fallible.query (findHold companyId request.id [.reserved]) with
    | none => pure (verification, false)
    | some res => do
        let _ ← Financial.commit rt companyId res.id now
        pure (verification, true)
  else pure (verification, false)

end ExecutionResults
end Orvex
