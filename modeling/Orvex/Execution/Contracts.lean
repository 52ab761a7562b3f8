import Orvex.Core.Runtime

/-!
# Contracts of the execution boundary

The objects that the core hands to the executor and gets back, with the
fields that the executor reads, and the errors it throws.  What viem or the
language throws is told apart from the executor's own errors only by not
being one of them.
-/

namespace Orvex
namespace Execution

/-! ## Errors -/

inductive ExecutionErrorCode where
  | configError | chainMismatch | rpcError | buildError | validationFailed
  | simulationFailed | staleSimulation | submissionFailed
  | verificationFailed | mainnetBlocked | signerUnavailable | unsupported
  | unknown
  deriving DecidableEq

structure ExecutionError where
  code : ExecutionErrorCode
  message : String
  details : List (String × Json)

inductive Thrown where
  | execution (error : ExecutionError)
  /-- An exception of viem or of the language. -/
  | foreign

def Thrown.of (code : ExecutionErrorCode) (message : String)
    (details : List (String × Json)) : Thrown :=
  .execution ⟨code, message, details⟩

def Thrown.hasCode (code : ExecutionErrorCode) : Thrown → Bool
  | .execution error => decide (error.code = code)
  | .foreign => false

/-! ## Transactions -/

structure AssetRef where
  symbol : String
  address : Option String
  type : Option String
  deriving DecidableEq

structure TransactionRecipient where
  address : String
  deriving DecidableEq

structure TransactionIntent where
  transactionId : String
  proposalId : String
  actionType : String
  network : String
  asset : AssetRef
  amount : String
  recipient : TransactionRecipient
  paymentMethod : Option String
  deriving DecidableEq

structure ChainRef where
  id : ℤ
  name : String
  deriving DecidableEq

structure TransactionRequest where
  transactionId : String
  chain : ChainRef
  fromAddress : String
  toAddress : String
  value : String
  data : String
  asset : AssetRef
  amount : String
  proposalId : String
  intentId : String
  createdAt : String
  deriving DecidableEq

/-! ## What the core authorized -/

/-- The only function permitted for a payment. -/
inductive AllowedFunction where
  | transfer
  deriving DecidableEq

def AllowedFunction.text : AllowedFunction → String
  | .transfer => "transfer"

structure AuthorizedExpectation where
  network : String
  chainId : ℤ
  recipient : String
  asset : String
  amount : String
  allowedFunction : AllowedFunction
  deriving DecidableEq

structure AuthorizedContext where
  intent : TransactionIntent
  expectation : AuthorizedExpectation
  deriving DecidableEq

structure ExecutionRequest where
  executionId : String
  transactionId : String
  network : String
  idempotencyKey : String
  deriving DecidableEq

/-! ## What the executor reports -/

inductive ExecutionStatus where
  | confirmed | pending | failed | unknown
  deriving DecidableEq

structure ExecutionResult where
  executionId : String
  status : ExecutionStatus
  transactionHash : Option String
  chain : String
  submittedAt : Option String
  confirmedAt : Option String
  idempotencyKey : String
  deriving DecidableEq

structure ReceiptSnapshot where
  recipient : String
  asset : String
  amount : String
  network : String
  deriving DecidableEq

structure ReceiptVerification where
  executionId : String
  verified : Bool
  transactionHash : String
  expected : ReceiptSnapshot
  actual : ReceiptSnapshot
  discrepancies : List String
  verifiedAt : String
  deriving DecidableEq

end Execution
end Orvex
