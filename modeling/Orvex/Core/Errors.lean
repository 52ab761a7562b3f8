import Orvex.Foundation.Action
import Orvex.Core.Runtime

/-!
# Errors

A service either throws a `CoreError`, which carries a code, a message and
details, or one of the exceptions of its packages.
-/

namespace Orvex

inductive ErrorCode where
  | invalidInput | schemaError | authenticationError | authorizationError
  | tenantError | agentNotFound | agentInactive | intentInvalid
  | intentExpired | proposalInvalid | capabilityInvalid | capabilityExpired
  | policyInvalid | policyConflict | policyViolation
  | securityAssessmentInvalid | securityAssessmentStale
  | insufficientEvidence | transactionInvalid | transactionMismatch
  | simulationFailed | simulationStale | approvalRequired
  | approvalNotFound | approvalExpired | approvalMismatch | approvalDenied
  | decisionStale | executionBlocked | executionFailed | executionUnknown
  | receiptMismatch | concurrencyConflict | idempotencyConflict
  | providerError | timeout | notFound | conflict | rateLimited
  | configurationError | internalError
  deriving DecidableEq

structure CoreError where
  code : ErrorCode
  message : String
  details : List (String × String)
  deriving DecidableEq

/-- What a service throws. -/
inductive Failure where
  | core (error : CoreError)
  /-- A unique, primary or foreign key was violated. -/
  | constraint
  /-- A value is not a decimal or does not fit its column. -/
  | decimal
  /-- A row to update does not exist. -/
  | recordNotFound
  /-- The database ended the session. -/
  | connectionLost
  /-- A `TypeError` or `RangeError` of the language. -/
  | language
  deriving DecidableEq

def Failure.of (code : ErrorCode) (message : String)
    (details : List (String × String)) : Failure :=
  .core ⟨code, message, details⟩

/-- The decimal that the package made, or the exception it threw. -/
def decimalOf : Option Decimal → Except Failure Decimal
  | some d => .ok d
  | none => .error .decimal

theorem decimalOf_eq_ok {number : Option Decimal} {d : Decimal} :
    decimalOf number = .ok d ↔ number = some d := by
  cases number <;> simp [decimalOf]

/-- The error is a `CoreError` with this code. -/
def Failure.hasCode (code : ErrorCode) : Failure → Bool
  | .core error => decide (error.code = code)
  | _ => false

end Orvex
