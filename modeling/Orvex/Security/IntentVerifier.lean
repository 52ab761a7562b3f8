import Mathlib.Data.List.Infix
import Orvex.Memory.Retrieval

/-!
# The intent verifier

Exact checks come first: a hard violation is a `FAIL`, and a proposal without
an amount or a recipient is `UNCERTAIN`.  Otherwise the answer of a model may
lower the score or report a mismatch.  What goes wrong while the answer is
read is handled by one handler, which passes the proposal.
-/

namespace Orvex
namespace IntentVerifier

open Retrieval (analyzeTrajectory)

inductive Status where
  | pass | fail | uncertain | insufficientEvidence
  deriving DecidableEq

structure IntentVerificationResult where
  status : Status
  intentMatch : Bool
  score : PyFloat
  dimensions : List (String × ℚ)
  violations : List String
  reasons : List String
  evidenceIds : List String
  confidence : PyFloat

/-- A list of texts, as the result model requires it. -/
def requireTexts : List PyValue → Except PyException (List String)
  | [] => .ok []
  | .str s :: rest => (requireTexts rest).map (fun texts => s :: texts)
  | _ :: _ => .error .validationError

/-- `IntentVerificationResult(...)`, which validates its lists. -/
def result (status : Status) (intentMatch : Bool) (score : PyFloat)
    (dimensions : List (String × ℚ)) (violations : List String)
    (reasons evidenceIds : List PyValue) (confidence : PyFloat) :
    Except PyException IntentVerificationResult := do
  let reasons ← requireTexts reasons
  let evidenceIds ← requireTexts evidenceIds
  return {
    status := status
    intentMatch := intentMatch
    score := score
    dimensions := dimensions
    violations := violations
    reasons := reasons
    evidenceIds := evidenceIds
    confidence := confidence }

/-! ## The deterministic checks -/

/-- `_to_decimal`; `none` is also what is not finite. -/
def toDecimal (py : Python) (value : PyValue) : Option (ℚ × String) :=
  match py.decimal (py.strip (py.str value)) with
  | some ⟨.finite x, text⟩ => some (x, text)
  | _ => none

/-- `needle in text`. -/
def containsText (text needle : String) : Bool :=
  decide (needle.toList <:+: text.toList)

structure Checks where
  hardFail : Bool
  incomplete : Bool
  violations : List String
  reasons : List String
  dimensions : List (String × ℚ)
  evidenceIds : List PyValue
  score : ℚ

/-- The text of the intent in which the recipient is looked up. -/
def intentText (py : Python) (intent : PyDict) : Except PyException String := do
  let constraints ←
    ((intent.getD "constraints" (.list [])).orElse (.list [])).members
  let constraints ← PyValue.join " " constraints
  return py.lower (" ".intercalate
    ([intent.getD "user_goal" (.str ""), intent.getD "purpose" (.str ""),
      intent.getD "desired_outcome" (.str ""), .str constraints].map py.str))

/-- The alignment of the amount with the budget, and what violates it. -/
def amountAlignment (budget amount : Option (ℚ × String)) :
    ℚ × Option String :=
  match budget, amount with
  | some (maximum, maximumText), some (value, text) =>
      if value ≤ maximum then (1, none)
      else
        (0, some ("amount " ++ text ++ " exceeds intent budget " ++
          maximumText))
  | _, _ => (1 / 2, none)

def overBudgetReason : String :=
  "Proposed amount exceeds the user's stated budget."

def redirectionViolation : String :=
  "recipient introduced by untrusted content, absent from intent"

def redirectionReason : String :=
  "The payment recipient was introduced by untrusted external content " ++
    "and does not appear in the original intent (possible redirection)."

def incompleteReason : String :=
  "Proposal is missing a concrete amount and/or recipient; cannot verify."

def deterministicChecks (py : Python) (intent proposal : PyDict)
    (trajectory : List PyDict) : Except PyException Checks := do
  let budget ← intent.getDict "budget"
  let budgetMax := toDecimal py (budget.get "maximum")
  let amount ← proposal.getDict "amount"
  let amountVal := toDecimal py (amount.get "value")
  let (alignment, overBudget) := amountAlignment budgetMax amountVal
  let budgetCurrency := py.upper (← budget.getText "currency")
  let amountCurrency := py.upper (← amount.getText "currency")
  let insights ← analyzeTrajectory py trajectory
  let recipient ← proposal.getDict "recipient"
  let recipientAddr := py.lower (← recipient.getText "address")
  let recipientId := py.lower (← recipient.getText "identifier")
  let text ← intentText py intent
  let recipientInIntent :=
    (decide (recipientId ≠ "") && containsText text recipientId) ||
      (decide (recipientAddr ≠ "") && containsText text recipientAddr)
  let redirected :=
    insights.recipientChangeAfterUntrusted && !recipientInIntent
  let evidenceIds ←
    ((proposal.getD "evidence_ids" (.list [])).orElse (.list [])).members
  let hardFail := overBudget.isSome || redirected
  let incomplete :=
    !(amountVal.isSome &&
      (decide (recipientId ≠ "") || decide (recipientAddr ≠ "")))
  let dimensions :=
    [("amount_alignment", alignment)] ++
      (if budgetCurrency ≠ "" ∧ amountCurrency ≠ "" then
        [("asset_alignment",
          if budgetCurrency = amountCurrency then 1 else 3 / 10)]
      else []) ++
      [("recipient_alignment",
        if redirected then 0
        else if recipient.isEmpty then 1 / 2 else 4 / 5)]
  let score :=
    round3 ((dimensions.map Prod.snd).sum / (max dimensions.length 1 : ℕ))
  return {
    hardFail := hardFail
    incomplete := incomplete
    violations := overBudget.toList ++
      if redirected then [redirectionViolation] else []
    reasons := (if overBudget.isSome then [overBudgetReason] else []) ++
      (if redirected then [redirectionReason] else []) ++
      if incomplete && !hardFail then [incompleteReason] else []
    dimensions := dimensions
    evidenceIds := evidenceIds
    score := if hardFail then 0 else max score (3 / 5) }

/-! ## The semantic alignment -/

structure Semantic where
  score : PyFloat
  mismatch : Bool
  reason : PyValue
  confidence : PyFloat

/-- What `_semantic_alignment` makes of the structured answer. -/
def semanticAlignment (py : Python) (answer : PyDict) :
    Except PyException Semantic := do
  let score ←
    (answer.getD "score" (.float (.finite (7 / 10)))).toFloat py
  let mismatch := (answer.getD "mismatch" (.bool false)).truthy
  let reason := answer.get "reason"
  let confidence ←
    (answer.getD "confidence" (.float (.finite (3 / 5)))).toFloat py
  return ⟨score, mismatch, reason, confidence⟩

/-! ## The verdict -/

def consistentReason : String :=
  "Proposal is consistent with the original intent."

def unavailableReason : String :=
  "Deterministic checks passed; semantic refinement unavailable."

/-- The result of checks that found a hard violation or an incomplete
proposal. -/
def checked (checks : Checks) (status : Status) (confidence : ℚ) :
    Except PyException IntentVerificationResult :=
  result status false (.finite checks.score) checks.dimensions
    checks.violations (checks.reasons.map .str) checks.evidenceIds
    (.finite confidence)

/-- The result of the handler. -/
def unavailable (checks : Checks) (score : PyFloat)
    (reasons : List PyValue) : Except PyException IntentVerificationResult :=
  result .pass true score checks.dimensions []
    (reasons ++ [.str unavailableReason]) checks.evidenceIds
    (.finite (3 / 5))

/-- The result when nothing was found. -/
def passed (checks : Checks) (score : PyFloat) (reasons : List PyValue) :
    Except PyException IntentVerificationResult :=
  result .pass true score checks.dimensions []
    (if reasons.isEmpty then [.str consistentReason] else reasons)
    checks.evidenceIds (.finite (17 / 20))

/-- What is made of the answer of the model, or of the exception it raised.
The handler also catches what the constructor of a mismatch raises. -/
def refined (py : Python) (checks : Checks)
    (answer : Except PyException PyDict) :
    Except PyException IntentVerificationResult :=
  let found := checks.reasons.map PyValue.str
  match answer.bind (semanticAlignment py) with
  | .error _ => unavailable checks (.finite checks.score) found
  | .ok semantic =>
      let score := PyFloat.min (.finite checks.score) semantic.score
      let reasons :=
        found ++ if semantic.reason.truthy then [semantic.reason] else []
      if semantic.mismatch then
        match result .uncertain false score checks.dimensions
            checks.violations reasons checks.evidenceIds
            semantic.confidence with
        | .ok verdict => .ok verdict
        | .error _ => unavailable checks score reasons
      else passed checks score reasons

/-- The verifier with the structured answer of its provider, if it has one. -/
def verify (py : Python) (provider : Option (Except PyException PyDict))
    (intent proposal : PyDict) (trajectory : List PyDict) :
    Except PyException IntentVerificationResult := do
  let checks ← deterministicChecks py intent proposal trajectory
  if checks.hardFail then checked checks .fail (19 / 20)
  else if checks.incomplete then checked checks .uncertain (1 / 2)
  else
    provider.elim
      (passed checks (.finite checks.score)
        (checks.reasons.map PyValue.str))
      (refined py checks)

end IntentVerifier
end Orvex
