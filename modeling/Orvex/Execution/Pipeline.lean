import Orvex.Concurrency.Awaits
import Orvex.Execution.Receipts
import Orvex.Execution.Store
import Orvex.Execution.Transactions

/-!
# The execution pipeline

One call of `execute` checks the chain, builds, validates and simulates the
transaction, hands it to the signer, records what the signer answered, and
waits for the receipt.  It waits at each `await`; the points below say what
it waits for.  All calls share the idempotency store and the chain id that
the RPC reported once.
-/

namespace Orvex
namespace Execution

/-! ## What the pipeline is built from -/

/-- A provider for a mainnet chain exists only where mainnet is allowed. -/
structure RpcProvider where
  chain : ChainDefinition
  allowMainnet : Bool
  mainnet_allowed : chain.isMainnet = true → allowMainnet = true

/-- The constructor; `reachable` when it has a transport or a URL. -/
def RpcProvider.create (chain : ChainDefinition)
    (allowMainnet reachable : Bool) : Except Thrown RpcProvider :=
  if h : chain.isMainnet = true ∧ allowMainnet = false then
    .error (.of .mainnetBlocked
      "Mainnet execution is blocked in this configuration."
      [("network", .string chain.network),
        ("chainId", .number chain.chainId)])
  else if reachable = false then
    .error (.of .configError "No RPC URL configured for network."
      [("network", .string chain.network)])
  else
    .ok ⟨chain, allowMainnet, by simpa using h⟩

structure PipelineDeps where
  rt : Runtime
  viem : Viem
  registry : ChainRegistry
  rpc : RpcProvider
  /-- The address of the signer. -/
  sender : String
  timeoutMs : ℤ

structure Shared where
  store : IdempotencyStore
  /-- The chain id that the RPC reported, once it was the configured one. -/
  verifiedChainId : Option ℤ

/-! ## Simulation -/

/-- The call that is simulated. -/
structure SimulatedTransfer where
  account : String
  token : String
  receiver : String
  amountUnits : ℕ
  deriving DecidableEq

structure BoundSimulation where
  status : SimulationStatus
  revertReason : Option String
  payloadHash : String
  deriving DecidableEq

def simulationStatusText : SimulationStatus → String
  | .pass => "PASS"
  | .revert => "REVERT"
  | .unexpectedStateChange => "UNEXPECTED_STATE_CHANGE"
  | .insufficientFunds => "INSUFFICIENT_FUNDS"
  | .unsupported => "UNSUPPORTED"
  | .error => "ERROR"

/-- `toLowerCase` of an address or of calldata. -/
def lowerCase (text : String) : String := text.map Char.toLower

def payloadHash (rt : Runtime) (tx : TransactionRequest) : String :=
  rt.sha256Hex (canonicalText rt (.object
    [("chainId", .number tx.chain.id),
      ("from", .string (lowerCase tx.fromAddress)),
      ("to", .string (lowerCase tx.toAddress)), ("value", .string tx.value),
      ("data", .string (lowerCase tx.data)),
      ("asset", .string tx.asset.symbol),
      ("assetAddress", .string (lowerCase (tx.asset.address.getD ""))),
      ("amount", .string tx.amount)]))

/-- The simulated payload is the current one, and its simulation passed. -/
def assertFresh (rt : Runtime) (sim : BoundSimulation)
    (tx : TransactionRequest) : Except Thrown Unit :=
  let current := payloadHash rt tx
  if current ≠ sim.payloadHash then
    .error (.of .staleSimulation
      "Transaction payload changed since simulation; prior simulation is invalid."
      [("simulated", .string sim.payloadHash), ("current", .string current)])
  else if sim.status ≠ .pass then
    .error (.of .simulationFailed
      "Simulation did not pass; execution blocked."
      [("status", .string (simulationStatusText sim.status)),
        ("revert_reason", nullable sim.revertReason)])
  else .ok ()

/-- `/insufficient|balance|exceeds/i`. -/
def insufficientReason (message : String) : Bool :=
  ["insufficient", "balance", "exceeds"].any (fun word =>
    decide (word.toList <:+: (lowerCase message).toList))

/-- The transfer that is simulated; other calls are not supported. -/
def simulatedTransfer (deps : PipelineDeps) (tx : TransactionRequest) :
    Except Thrown (Option SimulatedTransfer) := do
  let decoded ← TransactionDecoder.decode deps.viem tx
  match decoded.target, decoded.amountUnits with
  | some target, some units =>
      if decoded.known = false ∨ decoded.functionName ≠ some "transfer" ∨
          target = "" then
        pure none
      else
        let token ← deps.viem.requireSpelling tx.toAddress
        let account ← deps.viem.requireSpelling tx.fromAddress
        let _ ← deps.registry.usdc tx.chain.name
        pure (some ⟨account, token, target, units⟩)
  | _, _ => pure none

/-! ## Submission -/

/-- The argument of `signer.sendTransaction`. -/
structure SentTransaction where
  toAddress : String
  data : String
  value : ℕ
  chainId : ℤ
  deriving DecidableEq

def sentTransaction (tx : TransactionRequest) : SentTransaction where
  toAddress := tx.toAddress
  data := tx.data
  value := bigInt tx.value.toList
  chainId := tx.chain.id

/-- What a submission ended with. -/
inductive Submission where
  | hash (txHash : String)
  | failed (cause : Thrown)

/-- The sender of the transaction is the signer. -/
def assertSender (deps : PipelineDeps) (tx : TransactionRequest) :
    Except Thrown Unit := do
  let txFrom ← deps.viem.requireSpelling tx.fromAddress
  let signer ← deps.viem.requireSpelling deps.sender
  if txFrom ≠ signer then
    .error (.of .submissionFailed
      "Transaction sender does not match the configured signer."
      [("txFrom", .string txFrom), ("signer", .string signer)])
  else pure ()

def broadcastFailed (tx : TransactionRequest) : Thrown :=
  .of .submissionFailed "Failed to broadcast transaction."
    [("transaction_id", .string tx.transactionId)]

/-! ## Points and answers -/

inductive Outcome where
  | result (result : Except Thrown ExecutionResult)
  | verification (verification : Except Thrown ReceiptVerification)

/-- What a call waits for. -/
inductive Point where
  /-- The chain of the request; `cached` when the RPC need not be asked. -/
  | checkingChain (cached : Bool)
  /-- The chain of the transaction, before its simulation. -/
  | recheckingChain (cached : Bool) (tx : TransactionRequest)
  | readingBalance (tx : TransactionRequest) (sim : SimulatedTransfer)
  | simulatingTransfer (tx : TransactionRequest) (sim : SimulatedTransfer)
  | estimatingGas (tx : TransactionRequest)
  | sending (tx : TransactionRequest)
  /-- `execute` goes on after `submit` has ended. -/
  | submitted (submission : Submission)
  | waitingForReceipt (txHash : String) (deadline : ℤ)
  | gettingReceipt (txHash : String) (deadline : ℤ)
  | sleeping (txHash : String) (deadline : ℤ)
  /-- The receipt that `verify` asked for, with the record it read. -/
  | verifying (record : ExecutionRecord) (txHash : String)
      (expectation : AuthorizedExpectation)
  | done (outcome : Outcome)

inductive Answer where
  /-- A promise that was settled already, or a timer. -/
  | tick
  /-- `none` is an error of the RPC. -/
  | chainId (reported : Option ℤ)
  | balance (units : Option ℕ)
  | simulated
  | reverted (message : String)
  | gas (units : Option ℕ)
  /-- The signer returned the hash of the accepted transaction. -/
  | sent (txHash : String)
  /-- The signer raised an error, before the network accepted the transaction
  or after. -/
  | sendFailed (accepted : Bool)
  | receipt (receipt : RpcReceipt)
  | receiptNotFound
  | receiptError

/-- An answer and the time at which it arrives. -/
structure Reply where
  answer : Answer
  now : ℤ

inductive Call where
  | execute (request : ExecutionRequest) (ctx : AuthorizedContext)
  | verify (executionId : String)
  deriving DecidableEq

namespace Pipeline

variable (deps : PipelineDeps)

def mkResult (request : ExecutionRequest) (status : ExecutionStatus)
    (txHash : Option String) (now : ℤ) : ExecutionResult where
  executionId := request.executionId
  status := status
  transactionHash := txHash
  chain := request.network
  submittedAt :=
    if truthy txHash then some (deps.rt.toISOString now) else none
  confirmedAt :=
    if status = .confirmed then some (deps.rt.toISOString now) else none
  idempotencyKey := request.idempotencyKey

def recordOf (request : ExecutionRequest) (ctx : AuthorizedContext)
    (result : ExecutionResult) : ExecutionRecord where
  executionId := request.executionId
  idempotencyKey := request.idempotencyKey
  result := result
  verification := none
  authorized := some ctx.expectation

def setResult (result : ExecutionResult) (record : ExecutionRecord) :
    ExecutionRecord :=
  { record with result := result }

def throwing (thrown : Thrown) : Point := .done (.result (.error thrown))

def returning (result : ExecutionResult) : Point :=
  .done (.result (.ok result))

/-! ## The chain check -/

def assertRequestedChain (requested : ℤ) : Except Thrown Unit :=
  if requested ≠ deps.rpc.chain.chainId then
    .error (.of .chainMismatch
      "Requested chain id does not match configured chain."
      [("configured", .number deps.rpc.chain.chainId),
        ("requested", .number requested),
        ("network", .string deps.rpc.chain.network)])
  else .ok ()

/-- What `assertConfiguredChain` makes of its answer. -/
def configuredChain (cached : Bool) (answer : Answer) (shared : Shared) :
    Option (Except Thrown Unit × Shared) :=
  match cached, answer with
  | true, .tick => some (.ok (), shared)
  | false, .chainId none =>
      some (.error (.of .rpcError "Failed to read chain id from RPC."
        [("network", .string deps.rpc.chain.network)]), shared)
  | false, .chainId (some reported) =>
      if reported ≠ deps.rpc.chain.chainId then
        some (.error (.of .chainMismatch
          "RPC-reported chain id does not match configured chain."
          [("configured", .number deps.rpc.chain.chainId),
            ("reported", .number reported),
            ("network", .string deps.rpc.chain.network)]), shared)
      else some (.ok (), { shared with verifiedChainId := some reported })
  | _, _ => none

/-! ## The steps of `execute` -/

/-- From the call to the first chain check. -/
def begin (request : ExecutionRequest) (shared : Shared) : Point :=
  match shared.store.byKey request.idempotencyKey with
  | some prior => returning prior.result
  | none =>
      match (do
          let chain ← deps.registry.getByNetwork request.network
          assertRequestedChain deps chain.chainId) with
      | .error thrown => throwing thrown
      | .ok () => .checkingChain shared.verifiedChainId.isSome

/-- Builds the transaction and checks it against what was authorized. -/
def prepare (request : ExecutionRequest) (ctx : AuthorizedContext)
    (now : ℤ) : Except Thrown TransactionRequest := do
  let tx ← TransactionBuilder.build deps.viem deps.registry ctx.intent
    ⟨deps.sender, some request.transactionId⟩ (deps.rt.toISOString now)
  let analysis ← TransactionAnalyzer.analyze deps.viem deps.registry tx
  if analysis.status = .invalid then
    .error (.of .validationFailed "Transaction analysis is INVALID."
      [("risk_flags", .array (analysis.riskFlags.map .string))])
  else
    let _ ← TransactionValidator.assertValid deps.viem deps.registry tx
      ctx.expectation
    let _ ← assertRequestedChain deps tx.chain.id
    pure tx

/-- From the submission of a fresh simulation to the signer. -/
def submit (sim : BoundSimulation) (tx : TransactionRequest) : Point :=
  match assertFresh deps.rt sim tx with
  | .error thrown => throwing thrown
  | .ok () =>
      match assertSender deps tx with
      | .error thrown => .submitted (.failed thrown)
      | .ok () => .sending tx

def simulation (tx : TransactionRequest) (status : SimulationStatus)
    (reason : Option String) : BoundSimulation :=
  ⟨status, reason, payloadHash deps.rt tx⟩

/-- What the simulator asks first. -/
def beginSimulation (tx : TransactionRequest) : Point :=
  match simulatedTransfer deps tx with
  | .error thrown => throwing thrown
  | .ok none =>
      submit deps (simulation deps tx .unsupported
        (some "unsupported_or_unknown_function")) tx
  | .ok (some sim) => .readingBalance tx sim

/-- Records what the submission ended with. -/
def record (request : ExecutionRequest) (ctx : AuthorizedContext)
    (submission : Submission) (now : ℤ) (shared : Shared) :
    Shared × Point :=
  let put (result : ExecutionResult) : IdempotencyStore :=
    shared.store.put (recordOf request ctx result)
  match submission with
  | .failed cause =>
      let unknown := mkResult deps request .unknown none now
      if cause.hasCode .submissionFailed then
        let failed := mkResult deps request .failed none now
        ({ shared with
            store := (put unknown).update request.executionId
              (setResult failed) }, returning failed)
      else ({ shared with store := put unknown }, returning unknown)
  | .hash txHash =>
      ({ shared with
          store := put (mkResult deps request .pending (some txHash) now) },
        .waitingForReceipt txHash (now + deps.timeoutMs))

/-- Ends the call with a status, which is recorded. -/
def finish (request : ExecutionRequest) (status : ExecutionStatus)
    (txHash : String) (now : ℤ) (shared : Shared) : Shared × Point :=
  let result := mkResult deps request status (some txHash) now
  ({ shared with
      store := shared.store.update request.executionId (setResult result) },
    returning result)

def receiptStatus (viem : Viem) (receipt : RawReceipt) : ExecutionStatus :=
  if (ReceiptParser.parse viem receipt).success then .confirmed else .failed

/-- Asks for the receipt again until the deadline. -/
def poll (request : ExecutionRequest) (txHash : String)
    (deadline now : ℤ) (shared : Shared) : Shared × Point :=
  if now < deadline then (shared, .gettingReceipt txHash deadline)
  else finish deps request .unknown txHash now shared

def receiptFailed (txHash : String) : Thrown :=
  .of .rpcError "Failed to fetch transaction receipt."
    [("txHash", .string txHash)]

/-! ## The steps of `verify` -/

def beginVerify (executionId : String) (shared : Shared) : Point :=
  let refuse (code : ExecutionErrorCode) (message : String) : Point :=
    .done (.verification (.error (.of code message
      [("executionId", .string executionId)])))
  match shared.store.byExecutionId executionId with
  | none => refuse .unknown "No execution record for id."
  | some record =>
      match record.result.transactionHash, record.authorized with
      | some txHash, some expectation =>
          if txHash = "" then
            refuse .verificationFailed "No transaction hash to verify."
          else .verifying record txHash expectation
      | some txHash, none =>
          if txHash = "" then
            refuse .verificationFailed "No transaction hash to verify."
          else
            refuse .verificationFailed
              "No authorized context to verify against."
      | none, _ => refuse .verificationFailed "No transaction hash to verify."

/-- The authorized receipt of an expectation. -/
def authorizedReceipt (expectation : AuthorizedExpectation)
    (usdc : AssetDefinition) : AuthorizedReceipt where
  recipient := expectation.recipient
  asset := expectation.asset
  amount := expectation.amount
  network := expectation.network
  tokenAddress := usdc.address.getD ""
  decimals := usdc.decimals

/-- `verify` with the receipt of the recorded transaction. -/
def verifyReceipt (executionId : String) (record : ExecutionRecord)
    (expectation : AuthorizedExpectation) (receipt : RawReceipt)
    (now : ℤ) : Except Thrown ReceiptVerification := do
  let usdc ← deps.registry.usdc expectation.network
  ReceiptVerifier.verify deps.viem executionId
    (authorizedReceipt expectation usdc)
    (ReceiptParser.parse deps.viem receipt) record.result.chain
    (deps.rt.toISOString now)

/-- The receipt of an answer, as `getReceipt` gives it. -/
def receiptOf (txHash : String) : Answer →
    Option (Except Thrown (Option RawReceipt))
  | .receipt receipt =>
      match normalizeReceipt deps.viem receipt with
      | some raw => some (.ok (some raw))
      | none => some (.error (receiptFailed txHash))
  | .receiptNotFound => some (.ok none)
  | .receiptError => some (.error (receiptFailed txHash))
  | _ => none

def endVerify (executionId : String) (record : ExecutionRecord)
    (expectation : AuthorizedExpectation)
    (found : Except Thrown (Option RawReceipt)) (now : ℤ)
    (shared : Shared) : Shared × Point :=
  match found with
  | .error thrown => (shared, .done (.verification (.error thrown)))
  | .ok none =>
      (shared, .done (.verification (.error (.of .unknown
        "Receipt not available for verification."
        [("executionId", .string executionId)]))))
  | .ok (some raw) =>
      match verifyReceipt deps executionId record expectation raw now with
      | .error thrown => (shared, .done (.verification (.error thrown)))
      | .ok verification =>
          ({ shared with
              store := shared.store.update executionId (fun record =>
                { record with verification := some verification }) },
            .done (.verification (.ok verification)))

/-! ## The program -/

def enter (call : Call) (_ : Reply) (shared : Shared) : Shared × Point :=
  match call with
  | .execute request _ => (shared, begin deps request shared)
  | .verify executionId => (shared, beginVerify executionId shared)

/-- One step of `execute`. -/
def step (request : ExecutionRequest) (ctx : AuthorizedContext)
    (point : Point) (reply : Reply) (shared : Shared) :
    Option (Shared × Point) :=
  match point, reply.answer with
  | .checkingChain cached, answer =>
      (configuredChain deps cached answer shared).map (fun checked =>
        match checked.1 with
        | .error thrown => (checked.2, throwing thrown)
        | .ok () =>
            match prepare deps request ctx reply.now with
            | .error thrown => (checked.2, throwing thrown)
            | .ok tx =>
                (checked.2,
                  .recheckingChain checked.2.verifiedChainId.isSome tx))
  | .recheckingChain cached tx, answer =>
      (configuredChain deps cached answer shared).map (fun checked =>
        match checked.1 with
        | .error thrown => (checked.2, throwing thrown)
        | .ok () => (checked.2, beginSimulation deps tx))
  | .readingBalance tx sim, .balance units =>
      if units.any (fun balance => balance < sim.amountUnits) then
        some (shared, submit deps (simulation deps tx .insufficientFunds
          (some "insufficient_balance")) tx)
      else some (shared, .simulatingTransfer tx sim)
  | .simulatingTransfer tx _, .simulated => some (shared, .estimatingGas tx)
  | .simulatingTransfer tx _, .reverted message =>
      some (shared, submit deps (simulation deps tx
        (if insufficientReason message then .insufficientFunds else .revert)
        (some message)) tx)
  | .estimatingGas tx, .gas _ =>
      some (shared, submit deps (simulation deps tx .pass none) tx)
  | .sending _, .sent txHash => some (shared, .submitted (.hash txHash))
  | .sending tx, .sendFailed _ =>
      some (shared, .submitted (.failed (broadcastFailed tx)))
  | .submitted submission, .tick =>
      some (record deps request ctx submission reply.now shared)
  | .waitingForReceipt txHash deadline, .receipt receipt =>
      match normalizeReceipt deps.viem receipt with
      | some raw =>
          some (finish deps request (receiptStatus deps.viem raw) txHash
            reply.now shared)
      | none => some (poll deps request txHash deadline reply.now shared)
  | .waitingForReceipt txHash deadline, .receiptError =>
      some (poll deps request txHash deadline reply.now shared)
  | .gettingReceipt txHash deadline, answer =>
      (receiptOf deps txHash answer).map (fun found =>
        match found with
        | .error thrown => (shared, throwing thrown)
        | .ok none => (shared, .sleeping txHash deadline)
        | .ok (some raw) =>
            finish deps request (receiptStatus deps.viem raw) txHash
              reply.now shared)
  | .sleeping txHash deadline, .tick =>
      some (poll deps request txHash deadline reply.now shared)
  | _, _ => none

def resume (call : Call) (point : Point) (reply : Reply) (shared : Shared) :
    Option (Shared × Point) :=
  match call with
  | .execute request ctx => step deps request ctx point reply shared
  | .verify executionId =>
      match point with
      | .verifying record txHash expectation =>
          (receiptOf deps txHash reply.answer).map (fun found =>
            endVerify deps executionId record expectation found reply.now
              shared)
      | _ => none

def program : Awaits.Program Shared Call Point Reply :=
  ⟨enter deps, resume deps⟩

/-- `getResult` of the recorded execution. -/
def getResult (shared : Shared) (executionId : String) :
    Except Thrown ExecutionResult :=
  match shared.store.byExecutionId executionId with
  | none =>
      .error (.of .unknown "No execution record for id."
        [("executionId", .string executionId)])
  | some record => .ok record.result

end Pipeline
end Execution
end Orvex
