import Orvex.Core.Python

/-!
# Candidate rules

The rules that a model extracts from a policy text are normalized: texts of
closed sets are upper-cased, and a rule that does not validate is skipped.
-/

namespace Orvex
namespace PolicyAi

inductive RuleType where
  | amountLimit | cumulativeLimit | recipientAllowlist | recipientBlocklist
  | categoryAllow | categoryBlock | assetAllow | networkAllow | timeWindow
  | newRecipientApproval | requiredPredecessor | humanApproval
  | noStructuring | capabilityExpiry
  deriving DecidableEq

def RuleType.text : RuleType → String
  | .amountLimit => "AMOUNT_LIMIT"
  | .cumulativeLimit => "CUMULATIVE_LIMIT"
  | .recipientAllowlist => "RECIPIENT_ALLOWLIST"
  | .recipientBlocklist => "RECIPIENT_BLOCKLIST"
  | .categoryAllow => "CATEGORY_ALLOW"
  | .categoryBlock => "CATEGORY_BLOCK"
  | .assetAllow => "ASSET_ALLOW"
  | .networkAllow => "NETWORK_ALLOW"
  | .timeWindow => "TIME_WINDOW"
  | .newRecipientApproval => "NEW_RECIPIENT_APPROVAL"
  | .requiredPredecessor => "REQUIRED_PREDECESSOR"
  | .humanApproval => "HUMAN_APPROVAL"
  | .noStructuring => "NO_STRUCTURING"
  | .capabilityExpiry => "CAPABILITY_EXPIRY"

def RuleType.all : List RuleType :=
  [.amountLimit, .cumulativeLimit, .recipientAllowlist, .recipientBlocklist,
    .categoryAllow, .categoryBlock, .assetAllow, .networkAllow, .timeWindow,
    .newRecipientApproval, .requiredPredecessor, .humanApproval,
    .noStructuring, .capabilityExpiry]

inductive RequiredAction where
  | allow | review | deny | requireApproval
  deriving DecidableEq

def RequiredAction.text : RequiredAction → String
  | .allow => "ALLOW"
  | .review => "REVIEW"
  | .deny => "DENY"
  | .requireApproval => "REQUIRE_APPROVAL"

/-- The actions in the order of their texts. -/
def RequiredAction.all : List RequiredAction :=
  [.allow, .deny, .requireApproval, .review]

structure RuleConstraint where
  operator : Option String
  field : Option String
  /-- A text or a list of texts. -/
  value : PyValue
  currency : Option String

structure PolicyRule where
  ruleId : String
  type : RuleType
  condition : PyDict
  constraint : RuleConstraint
  requiredAction : RequiredAction
  priority : ℤ
  enabled : Bool

/-! ## Normalization -/

/-- A field of type `str | None`. -/
def optionalText : PyValue → Except PyException (Option String)
  | .none => .ok none
  | .str s => .ok (some s)
  | _ => .error .validationError

/-- A field of type `str | list[str] | None`. -/
def validValue : PyValue → Bool
  | .none => true
  | .str _ => true
  | .list items => items.all PyValue.isStr
  | _ => false

/-- The text, in upper case. -/
def upperText (py : Python) : PyValue → PyValue
  | .str s => .str (py.upper s)
  | value => value

def ruleConstraint (py : Python) (fields : PyDict) :
    Except PyException RuleConstraint := do
  let operator ← optionalText (upperText py (fields.get "operator"))
  let field ← optionalText (fields.get "field")
  let currency ← optionalText (upperText py (fields.get "currency"))
  if validValue (fields.get "value") then
    return ⟨operator, field, fields.get "value", currency⟩
  else throw .validationError

/-- The rule of a dictionary with a dictionary as its constraint; `fresh` is
the identifier that is made up for a rule without one. -/
def normalizedRule (py : Python) (fresh : String) (raw constraint : PyDict) :
    Except PyException PolicyRule := do
  let ruleId ←
    match (raw.get "rule_id").orElse (.str fresh) with
    | .str s => Except.ok s
    | _ => Except.error PyException.validationError
  let typeText :=
    py.strip (py.upper (py.str (raw.getD "type" (.str ""))))
  let actionText :=
    py.upper (py.str (raw.getD "required_action" (.str "ALLOW")))
  let condition ←
    ((raw.getD "condition" (.dict [])).orElse (.dict [])).asDict
  let constraint ← ruleConstraint py constraint
  match RuleType.all.find? (fun type => type.text = typeText),
      RequiredAction.all.find? (fun action => action.text = actionText),
      py.int (raw.getD "priority" (.int 100)) with
  | some type, some action, some priority =>
      return {
        ruleId := ruleId
        type := type
        condition := condition
        constraint := constraint
        requiredAction := action
        priority := priority
        enabled := (raw.getD "enabled" (.bool true)).truthy }
  | _, _, _ => throw .validationError

/-- `normalize_rules`, with the identifiers that it makes up.  What is not a
dictionary and what does not validate is skipped; a constraint that is not a
dictionary raises. -/
def normalizeRules (py : Python) :
    List (String × PyValue) → Except PyException (List PolicyRule)
  | [] => .ok []
  | (fresh, .dict raw) :: rest => do
      let constraint ←
        ((PyDict.getD raw "constraint" (.dict [])).orElse (.dict [])).asDict
      let others ← normalizeRules py rest
      match normalizedRule py fresh raw constraint with
      | .ok rule => return rule :: others
      | .error _ => return others
  | _ :: rest => normalizeRules py rest

end PolicyAi
end Orvex
