import Orvex.Core.Coercion
import Orvex.Core.Contracts
import Orvex.Core.Errors

/-!
# Compiled rules and the context they judge

A rule set is stored with the policy version that owns it.  The engine
evaluates it against a context assembled from the proposal and the state.
-/

namespace Orvex

inductive RuleType where
  | amountLimit | cumulativeLimit | recipientAllowlist | recipientBlocklist
  | newRecipientApproval | categoryAllow | categoryBlock | assetAllow
  | assetBlock | networkAllow | networkBlock | timeWindow | humanApproval
  | requiredPredecessor | noStructuring | capabilityExpiry
  deriving DecidableEq

def RuleType.text : RuleType → String
  | .amountLimit => "AMOUNT_LIMIT"
  | .cumulativeLimit => "CUMULATIVE_LIMIT"
  | .recipientAllowlist => "RECIPIENT_ALLOWLIST"
  | .recipientBlocklist => "RECIPIENT_BLOCKLIST"
  | .newRecipientApproval => "NEW_RECIPIENT_APPROVAL"
  | .categoryAllow => "CATEGORY_ALLOW"
  | .categoryBlock => "CATEGORY_BLOCK"
  | .assetAllow => "ASSET_ALLOW"
  | .assetBlock => "ASSET_BLOCK"
  | .networkAllow => "NETWORK_ALLOW"
  | .networkBlock => "NETWORK_BLOCK"
  | .timeWindow => "TIME_WINDOW"
  | .humanApproval => "HUMAN_APPROVAL"
  | .requiredPredecessor => "REQUIRED_PREDECESSOR"
  | .noStructuring => "NO_STRUCTURING"
  | .capabilityExpiry => "CAPABILITY_EXPIRY"

def ruleTypes : List RuleType :=
  [.amountLimit, .cumulativeLimit, .recipientAllowlist, .recipientBlocklist,
    .newRecipientApproval, .categoryAllow, .categoryBlock, .assetAllow,
    .assetBlock, .networkAllow, .networkBlock, .timeWindow, .humanApproval,
    .requiredPredecessor, .noStructuring, .capabilityExpiry]

/-! ## Rules -/

/-- A rule as it is stored.  Nothing checks `config` when a rule is accepted,
so it may be missing; `extra` holds the fields that no rule type reads. -/
structure CompiledRule where
  ruleId : String
  type : RuleType
  priority : Option ℚ
  enabled : Option Bool
  config : Option Json
  extra : List (String × Json)

/-- `rule.enabled !== false`. -/
def CompiledRule.active (rule : CompiledRule) : Bool :=
  rule.enabled != some false

def CompiledRule.toJson (rule : CompiledRule) : Json :=
  .object
    ([("rule_id", .string rule.ruleId), ("type", .string rule.type.text)] ++
      optionalField "priority" (rule.priority.map .number) ++
      optionalField "enabled" (rule.enabled.map .bool) ++
      optionalField "config" rule.config ++ rule.extra)

def rulesJson (rules : List CompiledRule) : Json :=
  .array (rules.map CompiledRule.toJson)

/-- `rule.config.key`; a field of a missing or `null` config cannot be read,
and a config that is no object has none of the fields. -/
def CompiledRule.setting (rule : CompiledRule) (key : String) :
    Except Failure (Option Json) :=
  match rule.config with
  | none => .error .language
  | some .null => .error .language
  | some (.object fields) => .ok (fields.lookup key)
  | some _ => .ok none

/-- `asStringArray`. -/
def asStringArray : Option Json → List String
  | some (.array items) =>
      items.filterMap (fun item =>
        match item with
        | .string text => some text
        | _ => none)
  | _ => []

/-! ## Evaluation context -/

structure TransactionContext where
  action : String
  amount : Option String
  currency : Option String
  asset : Option String
  network : Option String
  category : Option String
  recipient : Option String
  deriving DecidableEq

structure RecentTransaction where
  amount : String
  instant : String
  deriving DecidableEq

structure EvaluationContext where
  transaction : TransactionContext
  cumulativeSpent : Option (List (String × String))
  cumulativeByKey : Option (List (String × List (String × String)))
  knownRecipients : Option (List String)
  trajectoryEventTypes : Option (List String)
  recentTransactions : Option (List RecentTransaction)
  capabilityExpiresAt : Option String
  now : String
  deriving DecidableEq

def textFields (fields : List (String × String)) : Json :=
  .object (fields.map (fun field => (field.1, .string field.2)))

def textArray (texts : List String) : Json :=
  .array (texts.map .string)

def TransactionContext.toJson (tx : TransactionContext) : Json :=
  .object
    ([("action", .string tx.action)] ++
      optionalField "amount" (tx.amount.map .string) ++
      optionalField "currency" (tx.currency.map .string) ++
      optionalField "asset" (tx.asset.map .string) ++
      optionalField "network" (tx.network.map .string) ++
      optionalField "category" (tx.category.map .string) ++
      optionalField "recipient" (tx.recipient.map .string))

def EvaluationContext.toJson (ctx : EvaluationContext) : Json :=
  .object
    ([("transaction", ctx.transaction.toJson)] ++
      optionalField "cumulativeSpent" (ctx.cumulativeSpent.map textFields) ++
      optionalField "cumulativeByKey"
        (ctx.cumulativeByKey.map (fun windows =>
          .object (windows.map (fun window =>
            (window.1, textFields window.2))))) ++
      optionalField "knownRecipients" (ctx.knownRecipients.map textArray) ++
      optionalField "trajectoryEventTypes"
        (ctx.trajectoryEventTypes.map textArray) ++
      optionalField "recentTransactions"
        (ctx.recentTransactions.map (fun recent =>
          .array (recent.map (fun tx =>
            textFields [("amount", tx.amount), ("at", tx.instant)])))) ++
      [("capabilityExpiresAt", nullable ctx.capabilityExpiresAt),
        ("now", .string ctx.now)])

/-! ## Outcomes -/

inductive RuleResult where
  | pass | violation | review | requireApproval | skipped
  deriving DecidableEq

def RuleResult.text : RuleResult → String
  | .pass => "PASS"
  | .violation => "VIOLATION"
  | .review => "REVIEW"
  | .requireApproval => "REQUIRE_APPROVAL"
  | .skipped => "SKIPPED"

inductive Severity where
  | low | medium | high | critical
  deriving DecidableEq

/-- What a rule says about a context, without the rule. -/
structure Verdict where
  result : RuleResult
  reason : Option String
  field : Option String
  actualValue : Option String
  expected : Option String
  severity : Option Severity
  deriving DecidableEq

structure RuleOutcome where
  ruleId : String
  ruleType : RuleType
  verdict : Verdict
  deriving DecidableEq

def RuleOutcome.result (out : RuleOutcome) : RuleResult := out.verdict.result

/-! ## Structural validation -/

/-- Two values are the same member of a `Set`; objects and arrays read from
one text are all different. -/
def sameMember : Json → Json → Bool
  | .null, .null => true
  | .bool a, .bool b => a == b
  | .number m, .number n => decide (m = n)
  | .string s, .string t => s == t
  | _, _ => false

def fieldOf (key : String) : Json → Option Json
  | .object fields => fields.lookup key
  | _ => none

def ruleTypeOf (value : Option Json) : Option RuleType :=
  match value with
  | some (.string text) => ruleTypes.find? (fun type => type.text == text)
  | _ => none

/-- The check of one rule, given the ids seen before it. -/
def validateRule (rt : Runtime) (seen : List Json) (rule : Json) :
    Except Failure Json := do
  match rule with
  | .object _ | .array _ => pure ()
  | _ =>
      throw (.of .policyInvalid "Each rule must be an object." [])
  let id ← match fieldOf "rule_id" rule with
    | some id =>
        if jsTruthy id then pure id
        else throw (.of .policyInvalid "Each rule requires a rule_id." [])
    | none => throw (.of .policyInvalid "Each rule requires a rule_id." [])
  if seen.any (sameMember id) then
    throw (.of .policyConflict
      ("Duplicate rule_id '" ++ jsString rt id ++ "'.") [])
  match ruleTypeOf (fieldOf "type" rule) with
  | some _ => pure id
  | none =>
      let type := ((fieldOf "type" rule).map (jsString rt)).getD "undefined"
      throw (.of .policyInvalid ("Unknown rule type '" ++ type ++ "'.")
        [("ruleId", jsString rt id), ("type", type)])

def validateRules (rt : Runtime) (seen : List Json) :
    List Json → Except Failure Unit
  | [] => pure ()
  | rule :: rest => do
      let id ← validateRule rt seen rule
      validateRules rt (id :: seen) rest

def validateCompiledRules (rt : Runtime) (rules : Json) :
    Except Failure Unit :=
  match rules with
  | .array items => validateRules rt [] items
  | _ =>
      throw (.of .policyInvalid "Compiled rules must be an array." [])

/-! ## Reading an accepted rule -/

def ruleKeys : List String := ["rule_id", "type", "priority", "enabled", "config"]

/-- A stored field; `none` is a value of a type that its column rejects. -/
def textColumn : Option Json → Option String
  | some (.string text) => some text
  | _ => none

def numberColumn : Option Json → Option (Option ℚ)
  | none => some none
  | some .null => some none
  | some (.number n) => some (some n)
  | _ => none

def flagColumn : Option Json → Option (Option Bool)
  | none => some none
  | some .null => some none
  | some (.bool b) => some (some b)
  | _ => none

/-- The rule that an object is; `none` when its rule row is rejected. -/
def CompiledRule.ofJson (rule : Json) : Option CompiledRule := do
  let ruleId ← textColumn (fieldOf "rule_id" rule)
  let type ← ruleTypeOf (fieldOf "type" rule)
  let priority ← numberColumn (fieldOf "priority" rule)
  let enabled ← flagColumn (fieldOf "enabled" rule)
  pure
    { ruleId := ruleId
      type := type
      priority := priority
      enabled := enabled
      config := fieldOf "config" rule
      extra := match rule with
        | .object fields =>
            fields.filter (fun field => !ruleKeys.contains field.1)
        | _ => [] }

end Orvex
