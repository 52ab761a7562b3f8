import Orvex.Policy.Rules

/-!
# Rule evaluators

One function for each rule type.  An evaluator reads the configuration of
its rule and the context, and throws where the configuration cannot be read.
-/

namespace Orvex
namespace Evaluators

abbrev Evaluator :=
  Runtime → CompiledRule → EvaluationContext → Except Failure Verdict

def passed : Verdict := ⟨.pass, none, none, none, none, none⟩

def skipped : Verdict := ⟨.skipped, none, none, none, none, none⟩

def violated (reason : String) (field actualValue expected : Option String)
    (severity : Severity) : Verdict :=
  ⟨.violation, some reason, field, actualValue, expected, some severity⟩

/-- The value of a setting is made a text or a number. -/
def coerced (value : Json) : Except Failure Unit :=
  if coercible value then .ok () else .error .language

/-! ## Amounts -/

def amountLimit : Evaluator := fun rt rule ctx => do
  match ← rule.setting "maximum" with
  | none => pure skipped
  | some max =>
      match ctx.transaction.amount with
      | none =>
          pure (violated "No amount to check against limit." none none none
            .high)
      | some text =>
          let amount ← decimalOf (rt.toDecimal text)
          let limit ← decimalOf (jsonDecimal rt max)
          if amount.lte limit then pure passed
          else
            pure (violated "Amount exceeds the configured limit."
              (some "transaction.amount") (some text)
              (some ("<= " ++ jsString rt max)) .high)

/-- The spend that the context carries for a window, as the decimal package
reads it.  A missing history counts as an empty one. -/
def spentBefore (rt : Runtime) (window : Json) (ctx : EvaluationContext) :
    Except Failure Decimal :=
  let byKey (name : String) (key : Option String) :=
    let totals := (ctx.cumulativeByKey.bind (List.lookup name)).getD []
    match key with
    | none => decimalOf (rt.toDecimal "0")
    | some key =>
        if key = "" then decimalOf (rt.toDecimal "0")
        else
          match totals.lookup key with
          | some text =>
              decimalOf (rt.toDecimal (if text = "" then "0" else text))
          | none =>
              -- the key of an inherited property yields that property
              if key ∈ objectPrototype then .error .decimal
              else decimalOf (rt.toDecimal "0")
  match window with
  | .string "recipient" => byKey "recipient" ctx.transaction.recipient
  | .string "category" => byKey "category" ctx.transaction.category
  | .string "asset" => byKey "asset" ctx.transaction.asset
  | window =>
      match ctx.cumulativeSpent with
      | none => decimalOf (rt.toDecimal "0")
      | some totals => do
          let () ← coerced window
          match totals.lookup (jsString rt window) with
          | some text => decimalOf (rt.toDecimal text)
          | none =>
              if jsString rt window ∈ objectPrototype then .error .decimal
              else decimalOf (rt.toDecimal "0")

def cumulativeLimit : Evaluator := fun rt rule ctx => do
  let window := (← rule.setting "window").getD .null
  match jsTruthy window, ← rule.setting "maximum" with
  | true, some max =>
      let amount ← decimalOf (rt.toDecimal
        (if truthy ctx.transaction.amount then
          ctx.transaction.amount.getD "0" else "0"))
      let spent ← spentBefore rt window ctx
      let projected := spent.plus rt amount
      let limit ← decimalOf (jsonDecimal rt max)
      if projected.lte limit then pure passed
      else
        let () ← coerced window
        pure (violated
          ("Cumulative " ++ jsString rt window ++
            " spend would exceed the limit.")
          (some ("cumulative." ++ jsString rt window))
          (some (rt.decimalToString projected))
          (some ("<= " ++ jsString rt max)) .high)
  | _, _ => pure skipped

/-! ## Allow and block lists -/

/-- What tells one allow list from another. -/
structure AllowList where
  key : String
  subject : TransactionContext → Option String
  missing : String
  missingSeverity : Severity
  refusal : String
  field : String
  expected : List String → Option String
  severity : Severity

def AllowList.evaluate (list : AllowList) : Evaluator :=
  fun _ rule ctx => do
    let allow := asStringArray (← rule.setting list.key)
    match list.subject ctx.transaction with
    | none => pure (violated list.missing none none none list.missingSeverity)
    | some value =>
        if value = "" then
          pure (violated list.missing none none none list.missingSeverity)
        else if allow.contains value then pure passed
        else
          pure (violated list.refusal (some list.field) (some value)
            (list.expected allow) list.severity)

structure BlockList where
  key : String
  subject : TransactionContext → Option String
  refusal : String
  field : String
  expected : Option String
  severity : Severity

def BlockList.evaluate (list : BlockList) : Evaluator :=
  fun _ rule ctx => do
    let block := asStringArray (← rule.setting list.key)
    match list.subject ctx.transaction with
    | none => pure passed
    | some value =>
        if value = "" ∨ ¬ block.contains value then pure passed
        else
          pure (violated list.refusal (some list.field) (some value)
            list.expected list.severity)

/-- A list that admits a context names its subject. -/
theorem AllowList.mem_of_admitted {list : AllowList} {rt : Runtime}
    {rule : CompiledRule} {ctx : EvaluationContext} {verdict : Verdict}
    (hverdict : list.evaluate rt rule ctx = .ok verdict)
    (hadmitted : verdict.result = .pass ∨ verdict.result = .skipped) :
    ∃ setting value, rule.setting list.key = .ok setting ∧
      list.subject ctx.transaction = some value ∧
        value ∈ asStringArray setting := by
  unfold AllowList.evaluate at hverdict
  cases hsetting : rule.setting list.key with
  | error failure =>
      rw [hsetting] at hverdict
      exact absurd hverdict (by simp [bind, Except.bind])
  | ok setting =>
      have hviolated : ∀ reason field actual expected severity,
          (.ok (violated reason field actual expected severity) :
            Except Failure Verdict) ≠ .ok verdict := by
        intro reason field actual expected severity heq
        rw [← Except.ok.inj heq] at hadmitted
        exact absurd hadmitted (by simp [violated])
      rw [hsetting] at hverdict
      simp only [bind, Except.bind] at hverdict
      cases hsubject : list.subject ctx.transaction with
      | none =>
          rw [hsubject] at hverdict
          exact absurd hverdict (hviolated _ _ _ _ _)
      | some value =>
          rw [hsubject] at hverdict
          simp only at hverdict
          split at hverdict
          next => exact absurd hverdict (hviolated _ _ _ _ _)
          next =>
            split at hverdict
            next hmem =>
              exact ⟨setting, value, rfl, rfl,
                List.contains_iff_mem.mp hmem⟩
            next => exact absurd hverdict (hviolated _ _ _ _ _)

def oneOf (allow : List String) : Option String :=
  some ("one of " ++ ",".intercalate allow)

def recipientAllowlist : Evaluator :=
  AllowList.evaluate
    { key := "recipients"
      subject := TransactionContext.recipient
      missing := "No recipient to match allowlist."
      missingSeverity := .high
      refusal := "Recipient is not in the allowlist."
      field := "transaction.recipient"
      expected := fun _ => some "recipient must be allowlisted"
      severity := .critical }

def recipientBlocklist : Evaluator :=
  BlockList.evaluate
    { key := "recipients"
      subject := TransactionContext.recipient
      refusal := "Recipient is blocklisted."
      field := "transaction.recipient"
      expected := some "recipient must not be blocklisted"
      severity := .critical }

def assetAllow : Evaluator :=
  AllowList.evaluate
    { key := "assets"
      subject := TransactionContext.asset
      missing := "No asset specified."
      missingSeverity := .high
      refusal := "Asset is not allowed."
      field := "transaction.asset"
      expected := oneOf
      severity := .high }

def assetBlock : Evaluator :=
  BlockList.evaluate
    { key := "assets"
      subject := TransactionContext.asset
      refusal := "Asset is blocked."
      field := "transaction.asset"
      expected := none
      severity := .high }

def networkAllow : Evaluator :=
  AllowList.evaluate
    { key := "networks"
      subject := TransactionContext.network
      missing := "No network specified."
      missingSeverity := .high
      refusal := "Network is not allowed."
      field := "transaction.network"
      expected := oneOf
      severity := .critical }

def networkBlock : Evaluator :=
  BlockList.evaluate
    { key := "networks"
      subject := TransactionContext.network
      refusal := "Network is blocked."
      field := "transaction.network"
      expected := none
      severity := .critical }

def categoryAllow : Evaluator :=
  AllowList.evaluate
    { key := "categories"
      subject := TransactionContext.category
      missing := "No category specified."
      missingSeverity := .medium
      refusal := "Category is not allowed."
      field := "transaction.category"
      expected := fun _ => none
      severity := .medium }

def categoryBlock : Evaluator :=
  BlockList.evaluate
    { key := "categories"
      subject := TransactionContext.category
      refusal := "Category is blocked."
      field := "transaction.category"
      expected := none
      severity := .medium }

/-! ## Approval -/

def newRecipientApproval : Evaluator := fun _ _ ctx =>
  match ctx.transaction.recipient with
  | none => .ok skipped
  | some recipient =>
      if recipient = "" then .ok skipped
      else if (ctx.knownRecipients.getD []).contains recipient then
        .ok passed
      else
        .ok ⟨.requireApproval, some "New recipient requires human approval.",
          some "transaction.recipient", some recipient, none, some .medium⟩

def humanApproval : Evaluator := fun _ _ _ =>
  .ok ⟨.requireApproval,
    some "Policy requires human approval for this action.", none, none, none,
    some .medium⟩

/-! ## Time -/

/-- `new Date(text).getUTCHours()`. -/
def utcHour (rt : Runtime) (text : String) : Decimal :=
  match rt.parseDate text with
  | none => .nan
  | some t => .finite ((t / 3600000 % 24 : ℤ) : ℚ)

/-- The hour lies in a window that may wrap around midnight. -/
def inWindow (rt : Runtime) (start stop : Json) (hour : Decimal) : Bool :=
  let afterStart := (jsNumber rt start).lte hour
  let beforeStop := hour.lt (jsNumber rt stop)
  if jsLte rt start stop then afterStart && beforeStop
  else afterStart || beforeStop

def timeWindow : Evaluator := fun rt rule ctx => do
  match ← rule.setting "start_hour", ← rule.setting "end_hour" with
  | some start, some stop =>
      let hour := utcHour rt ctx.now
      let () ← coerced start
      let () ← coerced stop
      if inWindow rt start stop hour then pure passed
      else
        pure (violated "Outside the permitted UTC time window."
          (some "time.utc_hour") (some (jsNumberText rt hour))
          (some ("[" ++ jsString rt start ++ "," ++ jsString rt stop ++ ")"))
          .medium)
  | _, _ => pure skipped

/-- `new Date(text).getTime()`. -/
def timeOf (rt : Runtime) (text : String) : Decimal :=
  match rt.parseDate text with
  | none => .nan
  | some t => .finite (t : ℚ)

def capabilityExpiry : Evaluator := fun rt _ ctx =>
  match ctx.capabilityExpiresAt with
  | none => .ok skipped
  | some expiresAt =>
      if expiresAt = "" then .ok skipped
      else if (timeOf rt expiresAt).gt (timeOf rt ctx.now) then .ok passed
      else
        .ok (violated "Required capability has expired."
          (some "capability.expires_at") (some expiresAt)
          (some ("> " ++ ctx.now)) .critical)

/-! ## Trajectory and structuring -/

def requiredPredecessor : Evaluator := fun rt rule ctx => do
  let predecessor := (← rule.setting "predecessor").getD .null
  if jsTruthy predecessor then
    let events := ctx.trajectoryEventTypes.getD []
    match predecessor with
    | .string name =>
        if events.contains name then pure passed
        else
          pure (violated
            ("Required predecessor '" ++ name ++
              "' did not occur before this action.")
            (some "trajectory.predecessor") none (some name) .high)
    | value =>
        -- no event type equals a value that is not a text
        let () ← coerced value
        pure (violated
          ("Required predecessor '" ++ jsString rt value ++
            "' did not occur before this action.")
          (some "trajectory.predecessor") none (some (jsString rt value))
          .high)
  else pure skipped

/-- `value ?? fallback`. -/
def orDefault (fallback : ℚ) : Option Json → Json
  | none => .number fallback
  | some .null => .number fallback
  | some value => value

def minutesToMs : Decimal → Decimal
  | .finite minutes => .finite (minutes * 60000)
  | other => other

/-- The amounts of the transactions that the window holds, this one last. -/
def windowAmounts (rt : Runtime) (windowMinutes : Json)
    (ctx : EvaluationContext) : List String :=
  let windowMs := minutesToMs (jsNumber rt windowMinutes)
  let recent := (ctx.recentTransactions.getD []).filter (fun tx =>
    ((timeOf rt ctx.now).minus { rt with round := id } (timeOf rt tx.instant)).lte
      windowMs)
  recent.map RecentTransaction.amount ++ ctx.transaction.amount.toList

def subThresholdCount (rt : Runtime) (threshold : Decimal) :
    List String → Except Failure ℕ
  | [] => .ok 0
  | amount :: rest => do
      let d ← decimalOf (rt.toDecimal amount)
      let count ← subThresholdCount rt threshold rest
      pure (if d.gt threshold then count else count + 1)

def noStructuring : Evaluator := fun rt rule ctx => do
  let threshold ← rule.setting "threshold"
  let windowMinutes := orDefault 60 (← rule.setting "window_minutes")
  let maxCount := orDefault 3 (← rule.setting "max_count")
  match threshold with
  | none => pure skipped
  | some threshold =>
      let () ← coerced windowMinutes
      let limit ← decimalOf (jsonDecimal rt threshold)
      let count ←
        subThresholdCount rt limit (windowAmounts rt windowMinutes ctx)
      let () ← coerced maxCount
      if (Decimal.finite count).gt (jsNumber rt maxCount) then
        pure (violated
          "Potential structuring: too many sub-threshold transactions in window."
          (some "structuring.count") (some (rt.numberToString count))
          (some ("<= " ++ jsString rt maxCount)) .high)
      else pure passed

end Evaluators

open Evaluators in
/-- The evaluator of each rule type. -/
def evaluators : RuleType → Evaluators.Evaluator
  | .amountLimit => amountLimit
  | .cumulativeLimit => cumulativeLimit
  | .recipientAllowlist => recipientAllowlist
  | .recipientBlocklist => recipientBlocklist
  | .newRecipientApproval => newRecipientApproval
  | .assetAllow => assetAllow
  | .assetBlock => assetBlock
  | .networkAllow => networkAllow
  | .networkBlock => networkBlock
  | .categoryAllow => categoryAllow
  | .categoryBlock => categoryBlock
  | .timeWindow => timeWindow
  | .humanApproval => humanApproval
  | .requiredPredecessor => requiredPredecessor
  | .noStructuring => noStructuring
  | .capabilityExpiry => capabilityExpiry

end Orvex
