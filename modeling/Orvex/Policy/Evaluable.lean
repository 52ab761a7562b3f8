import Orvex.Policy.Spelling

/-!
# Which rules can always be evaluated

Acceptance checks the ids and the types of rules and no configuration.  A
rule can be evaluated in every context with decimal amounts and a readable
clock exactly when its configuration is one of those that `Evaluable`
describes; one context tells the others apart.
-/

namespace Orvex

namespace CompiledRule

/-- The config is there to be read. -/
def Configured (rule : CompiledRule) : Prop :=
  rule.config ≠ none ∧ rule.config ≠ some .null

/-- The value under a key of a config that is there. -/
def value (rule : CompiledRule) (key : String) : Option Json :=
  rule.config.bind (fieldOf key)

theorem setting_eq_ok {rule : CompiledRule} {key : String}
    {setting : Option Json} :
    rule.setting key = .ok setting ↔
      rule.Configured ∧ rule.value key = setting := by
  unfold CompiledRule.setting Configured value
  cases hconfig : rule.config with
  | none => simp
  | some config =>
      cases config <;> simp [fieldOf]

theorem setting_of_configured {rule : CompiledRule}
    (h : rule.Configured) (key : String) :
    rule.setting key = .ok (rule.value key) :=
  setting_eq_ok.mpr ⟨h, rfl⟩

end CompiledRule

namespace Evaluators

theorem coerced_eq_ok {value : Json} :
    coerced value = .ok () ↔ coercible value = true := by
  unfold coerced
  split
  next h => simp [h]
  next h => simp [h]

/-- A value that counts as false is no object. -/
theorem coercible_of_falsy {value : Json} (h : jsTruthy value = false) :
    coercible value = true := by
  cases value with
  | array items => exact Bool.noConfusion h
  | object fields => exact Bool.noConfusion h
  | _ => rfl

end Evaluators

open Evaluators

/-! ## Contexts -/

/-- The text of a finite decimal. -/
def DecimalText (rt : Runtime) (text : String) : Prop :=
  ∃ x, rt.toDecimal text = some (.finite x)

/-- The amounts of the context are decimal texts, and its clock can be
read. -/
structure ContextReadable (rt : Runtime) (ctx : EvaluationContext) : Prop where
  amount : ∀ text ∈ ctx.transaction.amount, DecimalText rt text
  spent : ∀ totals ∈ ctx.cumulativeSpent, ∀ total ∈ totals,
    DecimalText rt total.2
  byKey : ∀ windows ∈ ctx.cumulativeByKey, ∀ window ∈ windows,
    ∀ total ∈ window.2, DecimalText rt total.2
  recent : ∀ txs ∈ ctx.recentTransactions, ∀ tx ∈ txs,
    DecimalText rt tx.amount
  clock : (rt.parseDate ctx.now).isSome

/-! ## Rules -/

/-- The total that the window names is there in every context. -/
structure TotalWindow (rt : Runtime) (window : Json) : Prop where
  recipient : window ≠ .string "recipient"
  category : window ≠ .string "category"
  asset : window ≠ .string "asset"
  coercible : coercible window = true
  own : jsString rt window ∉ objectPrototype

/-- The configuration lets the rule be evaluated in every readable
context. -/
def Evaluable (rt : Runtime) (rule : CompiledRule) : Prop :=
  match rule.type with
  | .humanApproval | .newRecipientApproval | .capabilityExpiry => True
  | .amountLimit =>
      rule.Configured ∧
        ∀ maximum, rule.value "maximum" = some maximum →
          (jsonDecimal rt maximum).isSome
  | .cumulativeLimit =>
      rule.Configured ∧
        ∀ window maximum, rule.value "window" = some window →
          jsTruthy window = true → rule.value "maximum" = some maximum →
            TotalWindow rt window ∧ (jsonDecimal rt maximum).isSome
  | .timeWindow =>
      rule.Configured ∧
        ∀ start stop, rule.value "start_hour" = some start →
          rule.value "end_hour" = some stop →
            coercible start = true ∧ coercible stop = true
  | .requiredPredecessor =>
      rule.Configured ∧
        ∀ predecessor, rule.value "predecessor" = some predecessor →
          coercible predecessor = true
  | .noStructuring =>
      rule.Configured ∧
        ∀ threshold, rule.value "threshold" = some threshold →
          (jsonDecimal rt threshold).isSome ∧
            coercible (orDefault 60 (rule.value "window_minutes")) = true ∧
            coercible (orDefault 3 (rule.value "max_count")) = true
  | _ => rule.Configured

/-! ## Reading amounts -/

section

variable {rt : Runtime}

theorem decimalOf_of_text {text : String} (h : DecimalText rt text) :
    ∃ d, decimalOf (rt.toDecimal text) = .ok d := by
  obtain ⟨x, hx⟩ := h
  exact ⟨_, decimalOf_eq_ok.mpr hx⟩

theorem decimalOf_eq_ok_iff {number : Option Decimal} :
    (∃ d, decimalOf number = .ok d) ↔ number.isSome := by
  rw [Option.isSome_iff_exists]
  simp only [decimalOf_eq_ok]

theorem decimalText_of_lookup {key text : String}
    {totals : List (String × String)}
    (h : ∀ total ∈ totals, DecimalText rt total.2)
    (hlookup : totals.lookup key = some text) : DecimalText rt text := by
  obtain ⟨before, after, rfl, _⟩ := List.lookup_eq_some_iff.mp hlookup
  exact h (key, text) (List.mem_append_right _ List.mem_cons_self)

/-- The total of a window that is always there. -/
theorem spentBefore_of_total {window : Json} {ctx : EvaluationContext}
    (hzero : DecimalText rt "0") (hctx : ContextReadable rt ctx)
    (hwindow : TotalWindow rt window) :
    ∃ d, spentBefore rt window ctx = .ok d := by
  unfold spentBefore
  split
  next => exact absurd rfl hwindow.recipient
  next => exact absurd rfl hwindow.category
  next => exact absurd rfl hwindow.asset
  next =>
    cases hspent : ctx.cumulativeSpent with
    | none => exact decimalOf_of_text hzero
    | some totals =>
        simp only [coerced_eq_ok.mpr hwindow.coercible,
          Fallible.result_ok_bind]
        cases hlookup : totals.lookup (jsString rt window) with
        | none =>
            simp only [if_neg hwindow.own]
            exact decimalOf_of_text hzero
        | some text =>
            exact decimalOf_of_text (decimalText_of_lookup
              (hctx.spent totals (Option.mem_def.mpr hspent)) hlookup)

theorem subThresholdCount_of_texts (threshold : Decimal)
    {amounts : List String} (h : ∀ text ∈ amounts, DecimalText rt text) :
    ∃ count, subThresholdCount rt threshold amounts = .ok count := by
  induction amounts with
  | nil => exact ⟨0, rfl⟩
  | cons text rest ih =>
      obtain ⟨d, hd⟩ := decimalOf_of_text (h text List.mem_cons_self)
      obtain ⟨count, hcount⟩ :=
        ih (fun other hmem => h other (List.mem_cons_of_mem _ hmem))
      refine ⟨if d.gt threshold then count else count + 1, ?_⟩
      rw [subThresholdCount, hd, Fallible.result_ok_bind, hcount,
        Fallible.result_ok_bind, Fallible.result_pure]

theorem windowAmounts_texts {ctx : EvaluationContext}
    (hctx : ContextReadable rt ctx) (windowMinutes : Json) :
    ∀ text ∈ windowAmounts rt windowMinutes ctx, DecimalText rt text := by
  intro text hmem
  unfold windowAmounts at hmem
  rcases List.mem_append.mp hmem with hrecent | hown
  · obtain ⟨tx, htx, rfl⟩ := List.mem_map.mp hrecent
    have hin := (List.mem_filter.mp htx).1
    cases hrecents : ctx.recentTransactions with
    | none =>
        rw [hrecents] at hin
        exact absurd hin List.not_mem_nil
    | some txs =>
        rw [hrecents] at hin
        exact hctx.recent txs (Option.mem_def.mpr hrecents) tx hin
  · exact hctx.amount text (Option.mem_toList.mp hown)

/-! ## Evaluable rules are evaluated -/

theorem allowList_total (rt : Runtime) (list : AllowList) {rule : CompiledRule}
    (hrule : rule.Configured) (ctx : EvaluationContext) :
    ∃ verdict, list.evaluate rt rule ctx = .ok verdict := by
  unfold AllowList.evaluate
  rw [CompiledRule.setting_of_configured hrule, Fallible.result_ok_bind]
  cases list.subject ctx.transaction with
  | none => exact ⟨_, rfl⟩
  | some value =>
      simp only
      split
      · exact ⟨_, rfl⟩
      · split
        · exact ⟨_, rfl⟩
        · exact ⟨_, rfl⟩

theorem blockList_total (rt : Runtime) (list : BlockList) {rule : CompiledRule}
    (hrule : rule.Configured) (ctx : EvaluationContext) :
    ∃ verdict, list.evaluate rt rule ctx = .ok verdict := by
  unfold BlockList.evaluate
  rw [CompiledRule.setting_of_configured hrule, Fallible.result_ok_bind]
  cases list.subject ctx.transaction with
  | none => exact ⟨_, rfl⟩
  | some value =>
      simp only
      split
      · exact ⟨_, rfl⟩
      · exact ⟨_, rfl⟩

variable {rule : CompiledRule} {ctx : EvaluationContext}

theorem amountLimit_total (hctx : ContextReadable rt ctx)
    (hrule : rule.Configured)
    (hmaximum : ∀ maximum, rule.value "maximum" = some maximum →
      (jsonDecimal rt maximum).isSome) :
    ∃ verdict, amountLimit rt rule ctx = .ok verdict := by
  unfold amountLimit
  rw [CompiledRule.setting_of_configured hrule, Fallible.result_ok_bind]
  cases hvalue : rule.value "maximum" with
  | none => exact ⟨_, rfl⟩
  | some maximum =>
      cases hamount : ctx.transaction.amount with
      | none => exact ⟨_, rfl⟩
      | some text =>
          obtain ⟨amount, ha⟩ := decimalOf_of_text
            (hctx.amount text (Option.mem_def.mpr hamount))
          obtain ⟨limit, hl⟩ :=
            decimalOf_eq_ok_iff.mpr (hmaximum maximum hvalue)
          simp only [ha, hl, Fallible.result_ok_bind]
          split
          · exact ⟨_, rfl⟩
          · exact ⟨_, rfl⟩

theorem cumulativeLimit_total (hzero : DecimalText rt "0")
    (hctx : ContextReadable rt ctx) (hrule : rule.Configured)
    (hlimit : ∀ window maximum, rule.value "window" = some window →
      jsTruthy window = true → rule.value "maximum" = some maximum →
        TotalWindow rt window ∧ (jsonDecimal rt maximum).isSome) :
    ∃ verdict, cumulativeLimit rt rule ctx = .ok verdict := by
  unfold cumulativeLimit
  simp only [CompiledRule.setting_of_configured hrule,
    Fallible.result_ok_bind]
  split
  next maximum htruthy hmaximum =>
    cases hwindow : rule.value "window" with
    | none =>
        rw [hwindow] at htruthy
        exact Bool.noConfusion htruthy
    | some window =>
        rw [hwindow, Option.getD_some] at htruthy
        obtain ⟨htotal, hdecimal⟩ :=
          hlimit window maximum hwindow htruthy hmaximum
        have hown : ∃ d, decimalOf (rt.toDecimal
            (if truthy ctx.transaction.amount then
              ctx.transaction.amount.getD "0" else "0")) = .ok d := by
          split
          next hamount =>
            cases hvalue : ctx.transaction.amount with
            | none => exact decimalOf_of_text hzero
            | some text =>
                exact decimalOf_of_text
                  (hctx.amount text (Option.mem_def.mpr hvalue))
          next => exact decimalOf_of_text hzero
        obtain ⟨amount, ha⟩ := hown
        obtain ⟨spent, hs⟩ := spentBefore_of_total hzero hctx htotal
        obtain ⟨limit, hl⟩ := decimalOf_eq_ok_iff.mpr hdecimal
        simp only [Option.getD_some, ha, hs, hl, Fallible.result_ok_bind,
          coerced_eq_ok.mpr htotal.coercible]
        split
        · exact ⟨_, rfl⟩
        · exact ⟨_, rfl⟩
  next => exact ⟨_, rfl⟩

theorem timeWindow_total (hrule : rule.Configured)
    (hhours : ∀ start stop, rule.value "start_hour" = some start →
      rule.value "end_hour" = some stop →
        coercible start = true ∧ coercible stop = true) :
    ∃ verdict, timeWindow rt rule ctx = .ok verdict := by
  unfold timeWindow
  simp only [CompiledRule.setting_of_configured hrule,
    Fallible.result_ok_bind]
  split
  next start stop hstart hstop =>
    obtain ⟨hs, he⟩ := hhours start stop hstart hstop
    simp only [coerced_eq_ok.mpr hs, coerced_eq_ok.mpr he,
      Fallible.result_ok_bind]
    split
    · exact ⟨_, rfl⟩
    · exact ⟨_, rfl⟩
  next => exact ⟨_, rfl⟩

theorem requiredPredecessor_total (hrule : rule.Configured)
    (hpredecessor : ∀ predecessor,
      rule.value "predecessor" = some predecessor →
        coercible predecessor = true) :
    ∃ verdict, requiredPredecessor rt rule ctx = .ok verdict := by
  have hvalue : coercible ((rule.value "predecessor").getD .null) = true := by
    cases h : rule.value "predecessor" with
    | none => rfl
    | some predecessor => exact hpredecessor predecessor h
  unfold requiredPredecessor
  simp only [CompiledRule.setting_of_configured hrule,
    Fallible.result_ok_bind]
  split
  · split
    · split
      · exact ⟨_, rfl⟩
      · exact ⟨_, rfl⟩
    · simp only [coerced_eq_ok.mpr hvalue, Fallible.result_ok_bind]
      exact ⟨_, rfl⟩
  · exact ⟨_, rfl⟩

theorem noStructuring_total (hctx : ContextReadable rt ctx)
    (hrule : rule.Configured)
    (hsettings : ∀ threshold, rule.value "threshold" = some threshold →
      (jsonDecimal rt threshold).isSome ∧
        coercible (orDefault 60 (rule.value "window_minutes")) = true ∧
        coercible (orDefault 3 (rule.value "max_count")) = true) :
    ∃ verdict, noStructuring rt rule ctx = .ok verdict := by
  unfold noStructuring
  simp only [CompiledRule.setting_of_configured hrule,
    Fallible.result_ok_bind]
  cases hthreshold : rule.value "threshold" with
  | none => exact ⟨_, rfl⟩
  | some threshold =>
      obtain ⟨hdecimal, hminutes, hcount⟩ := hsettings threshold hthreshold
      obtain ⟨limit, hl⟩ := decimalOf_eq_ok_iff.mpr hdecimal
      obtain ⟨count, hc⟩ := subThresholdCount_of_texts limit
        (windowAmounts_texts hctx
          (orDefault 60 (rule.value "window_minutes")))
      simp only [coerced_eq_ok.mpr hminutes, hl, hc,
        coerced_eq_ok.mpr hcount, Fallible.result_ok_bind]
      split
      · exact ⟨_, rfl⟩
      · exact ⟨_, rfl⟩

/-- A rule that is evaluable is evaluated in every readable context. -/
theorem Evaluable.total (h : Evaluable rt rule) (hzero : DecimalText rt "0")
    (hctx : ContextReadable rt ctx) :
    ∃ verdict, evaluators rule.type rt rule ctx = .ok verdict := by
  unfold Evaluable at h
  cases htype : rule.type with
  | humanApproval => exact ⟨_, rfl⟩
  | newRecipientApproval =>
      simp only [evaluators, newRecipientApproval]
      cases ctx.transaction.recipient with
      | none => exact ⟨_, rfl⟩
      | some recipient =>
          simp only
          split
          · exact ⟨_, rfl⟩
          · split
            · exact ⟨_, rfl⟩
            · exact ⟨_, rfl⟩
  | capabilityExpiry =>
      simp only [evaluators, capabilityExpiry]
      cases ctx.capabilityExpiresAt with
      | none => exact ⟨_, rfl⟩
      | some expiresAt =>
          simp only
          split
          · exact ⟨_, rfl⟩
          · split
            · exact ⟨_, rfl⟩
            · exact ⟨_, rfl⟩
  | amountLimit =>
      rw [htype] at h
      exact amountLimit_total hctx h.1 h.2
  | cumulativeLimit =>
      rw [htype] at h
      exact cumulativeLimit_total hzero hctx h.1 h.2
  | timeWindow =>
      rw [htype] at h
      exact timeWindow_total h.1 h.2
  | requiredPredecessor =>
      rw [htype] at h
      exact requiredPredecessor_total h.1 h.2
  | noStructuring =>
      rw [htype] at h
      exact noStructuring_total hctx h.1 h.2
  | recipientAllowlist =>
      rw [htype] at h
      exact allowList_total rt _ h ctx
  | recipientBlocklist =>
      rw [htype] at h
      exact blockList_total rt _ h ctx
  | assetAllow =>
      rw [htype] at h
      exact allowList_total rt _ h ctx
  | assetBlock =>
      rw [htype] at h
      exact blockList_total rt _ h ctx
  | networkAllow =>
      rw [htype] at h
      exact allowList_total rt _ h ctx
  | networkBlock =>
      rw [htype] at h
      exact blockList_total rt _ h ctx
  | categoryAllow =>
      rw [htype] at h
      exact allowList_total rt _ h ctx
  | categoryBlock =>
      rw [htype] at h
      exact blockList_total rt _ h ctx

end

/-! ## One context that tells the rules apart -/

/-- A payment of nothing to a recipient with the name of an inherited
property, after no other spending. -/
def probe (clock : String) : EvaluationContext where
  transaction :=
    { action := "PAY"
      amount := some "0"
      currency := none
      asset := some "constructor"
      network := none
      category := some "constructor"
      recipient := some "constructor" }
  cumulativeSpent := some []
  cumulativeByKey := none
  knownRecipients := none
  trajectoryEventTypes := none
  recentTransactions := none
  capabilityExpiresAt := none
  now := clock

section

variable {rt : Runtime} {rule : CompiledRule} {clock : String}
  {verdict : Verdict}

theorem contextReadable_probe (hzero : DecimalText rt "0")
    (hclock : (rt.parseDate clock).isSome) :
    ContextReadable rt (probe clock) where
  amount := by
    intro text htext
    rw [← Option.mem_some.mp htext]
    exact hzero
  spent := by
    intro totals htotals total htotal
    rw [← Option.mem_some.mp htotals] at htotal
    exact absurd htotal List.not_mem_nil
  byKey := by
    intro windows hwindows
    exact absurd hwindows (Option.not_mem_none _)
  recent := by
    intro txs htxs
    exact absurd htxs (Option.not_mem_none _)
  clock := hclock

theorem configured_of_bind {α : Type} {key : String}
    {k : Option Json → Except Failure α} {a : α}
    (h : (rule.setting key >>= k) = .ok a) :
    rule.Configured ∧ k (rule.value key) = .ok a := by
  obtain ⟨setting, hsetting, hk⟩ := Fallible.result_bind_eq_ok.mp h
  obtain ⟨hconfigured, hvalue⟩ := CompiledRule.setting_eq_ok.mp hsetting
  rw [hvalue]
  exact ⟨hconfigured, hk⟩

theorem amountLimit_probe
    (h : amountLimit rt rule (probe clock) = .ok verdict) :
    rule.Configured ∧
      ∀ maximum, rule.value "maximum" = some maximum →
        (jsonDecimal rt maximum).isSome := by
  obtain ⟨hconfigured, hrest⟩ := configured_of_bind h
  refine ⟨hconfigured, fun maximum hmaximum => ?_⟩
  rw [hmaximum] at hrest
  obtain ⟨amount, _, hrest⟩ := Fallible.result_bind_eq_ok.mp hrest
  obtain ⟨limit, hlimit, _⟩ := Fallible.result_bind_eq_ok.mp hrest
  exact decimalOf_eq_ok_iff.mp ⟨limit, hlimit⟩

/-- The total of a window that the probe has is there in every context. -/
theorem totalWindow_of_probe {window : Json} {spent : Decimal}
    (h : spentBefore rt window (probe clock) = .ok spent) :
    TotalWindow rt window := by
  have hinherited : ∀ name, spentBefore rt window (probe clock) =
      spentBefore rt (.string name) (probe clock) →
        name = "recipient" ∨ name = "category" ∨ name = "asset" → False := by
    intro name hname hkeyed
    rw [hname] at h
    rcases hkeyed with rfl | rfl | rfl
    · simp [spentBefore, probe, objectPrototype] at h
    · simp [spentBefore, probe, objectPrototype] at h
    · simp [spentBefore, probe, objectPrototype] at h
  have hrecipient : window ≠ .string "recipient" := by
    rintro rfl
    exact hinherited "recipient" rfl (Or.inl rfl)
  have hcategory : window ≠ .string "category" := by
    rintro rfl
    exact hinherited "category" rfl (Or.inr (Or.inl rfl))
  have hasset : window ≠ .string "asset" := by
    rintro rfl
    exact hinherited "asset" rfl (Or.inr (Or.inr rfl))
  unfold spentBefore at h
  split at h
  next => exact absurd rfl hrecipient
  next => exact absurd rfl hcategory
  next => exact absurd rfl hasset
  next =>
    simp only [probe] at h
    obtain ⟨_, hcoerced, hrest⟩ := Fallible.result_bind_eq_ok.mp h
    refine ⟨hrecipient, hcategory, hasset, coerced_eq_ok.mp hcoerced, ?_⟩
    intro hinherit
    rw [List.lookup_nil] at hrest
    simp [hinherit] at hrest

theorem cumulativeLimit_probe
    (h : cumulativeLimit rt rule (probe clock) = .ok verdict) :
    rule.Configured ∧
      ∀ window maximum, rule.value "window" = some window →
        jsTruthy window = true → rule.value "maximum" = some maximum →
          TotalWindow rt window ∧ (jsonDecimal rt maximum).isSome := by
  obtain ⟨hconfigured, hrest⟩ := configured_of_bind h
  refine ⟨hconfigured, fun window maximum hwindow htruthy hmaximum => ?_⟩
  obtain ⟨_, hrest⟩ := configured_of_bind hrest
  rw [hwindow, hmaximum, Option.getD_some, htruthy] at hrest
  obtain ⟨amount, _, hrest⟩ := Fallible.result_bind_eq_ok.mp hrest
  obtain ⟨spent, hspent, hrest⟩ := Fallible.result_bind_eq_ok.mp hrest
  obtain ⟨limit, hlimit, _⟩ := Fallible.result_bind_eq_ok.mp hrest
  exact ⟨totalWindow_of_probe hspent, decimalOf_eq_ok_iff.mp ⟨limit, hlimit⟩⟩

theorem timeWindow_probe
    (h : timeWindow rt rule (probe clock) = .ok verdict) :
    rule.Configured ∧
      ∀ start stop, rule.value "start_hour" = some start →
        rule.value "end_hour" = some stop →
          coercible start = true ∧ coercible stop = true := by
  obtain ⟨hconfigured, hrest⟩ := configured_of_bind h
  refine ⟨hconfigured, fun start stop hstart hstop => ?_⟩
  obtain ⟨_, hrest⟩ := configured_of_bind hrest
  rw [hstart, hstop] at hrest
  obtain ⟨_, hfirst, hrest⟩ := Fallible.result_bind_eq_ok.mp hrest
  obtain ⟨_, hsecond, _⟩ := Fallible.result_bind_eq_ok.mp hrest
  exact ⟨coerced_eq_ok.mp hfirst, coerced_eq_ok.mp hsecond⟩

theorem requiredPredecessor_probe
    (h : requiredPredecessor rt rule (probe clock) = .ok verdict) :
    rule.Configured ∧
      ∀ predecessor, rule.value "predecessor" = some predecessor →
        coercible predecessor = true := by
  obtain ⟨hconfigured, hrest⟩ := configured_of_bind h
  refine ⟨hconfigured, fun predecessor hpredecessor => ?_⟩
  rw [hpredecessor, Option.getD_some] at hrest
  cases htruthy : jsTruthy predecessor with
  | false => exact coercible_of_falsy htruthy
  | true =>
      simp only [htruthy, if_true] at hrest
      split at hrest
      next => rfl
      next =>
        obtain ⟨_, hcoerced, _⟩ := Fallible.result_bind_eq_ok.mp hrest
        exact coerced_eq_ok.mp hcoerced

theorem noStructuring_probe
    (h : noStructuring rt rule (probe clock) = .ok verdict) :
    rule.Configured ∧
      ∀ threshold, rule.value "threshold" = some threshold →
        (jsonDecimal rt threshold).isSome ∧
          coercible (orDefault 60 (rule.value "window_minutes")) = true ∧
          coercible (orDefault 3 (rule.value "max_count")) = true := by
  obtain ⟨hconfigured, hrest⟩ := configured_of_bind h
  refine ⟨hconfigured, fun threshold hthreshold => ?_⟩
  obtain ⟨_, hrest⟩ := configured_of_bind hrest
  obtain ⟨_, hrest⟩ := configured_of_bind hrest
  rw [hthreshold] at hrest
  obtain ⟨_, hminutes, hrest⟩ := Fallible.result_bind_eq_ok.mp hrest
  obtain ⟨limit, hlimit, hrest⟩ := Fallible.result_bind_eq_ok.mp hrest
  obtain ⟨count, _, hrest⟩ := Fallible.result_bind_eq_ok.mp hrest
  obtain ⟨_, hcount, _⟩ := Fallible.result_bind_eq_ok.mp hrest
  exact ⟨decimalOf_eq_ok_iff.mp ⟨limit, hlimit⟩, coerced_eq_ok.mp hminutes,
    coerced_eq_ok.mp hcount⟩

theorem evaluable_of_probe
    (h : evaluators rule.type rt rule (probe clock) = .ok verdict) :
    Evaluable rt rule := by
  unfold Evaluable
  cases htype : rule.type with
  | humanApproval => trivial
  | newRecipientApproval => trivial
  | capabilityExpiry => trivial
  | amountLimit =>
      rw [htype] at h
      exact @amountLimit_probe rt rule clock verdict h
  | cumulativeLimit =>
      rw [htype] at h
      exact @cumulativeLimit_probe rt rule clock verdict h
  | timeWindow =>
      rw [htype] at h
      exact @timeWindow_probe rt rule clock verdict h
  | requiredPredecessor =>
      rw [htype] at h
      exact @requiredPredecessor_probe rt rule clock verdict h
  | noStructuring =>
      rw [htype] at h
      exact @noStructuring_probe rt rule clock verdict h
  | _ =>
      -- the lists read their entries first
      rw [htype] at h
      exact (configured_of_bind h).1

end

/-! ## Rule sets -/

/-- A rule set is evaluated in every readable context exactly when each of
its enabled rules is evaluable. -/
theorem evaluate_total_iff {rt : Runtime} {clock : String}
    {rules : List CompiledRule} (hzero : DecimalText rt "0")
    (hclock : (rt.parseDate clock).isSome) :
    (∀ policyId version ctx, ContextReadable rt ctx →
        ∃ out, PolicyEngine.evaluate rt policyId version rules ctx =
          .ok out) ↔
      ∀ rule ∈ rules, rule.active = true → Evaluable rt rule := by
  constructor
  · intro htotal rule hrule hactive
    obtain ⟨out, hout⟩ :=
      htotal "" 0 (probe clock) (contextReadable_probe hzero hclock)
    obtain ⟨outs, houts, _⟩ := PolicyEngine.evaluate_eq_ok.mp hout
    obtain ⟨verdict, hverdict⟩ := PolicyEngine.exists_of_outcomes houts
      (PolicyEngine.mem_enabledRules.mpr ⟨hrule, hactive⟩)
    exact evaluable_of_probe hverdict
  · intro hrules policyId version ctx hctx
    rw [PolicyEngine.exists_evaluate_iff]
    rintro ⟨rule, hrule, hactive, failure, hfailure⟩
    obtain ⟨verdict, hverdict⟩ :=
      (hrules rule hrule hactive).total hzero hctx
    rw [hverdict] at hfailure
    exact absurd hfailure (by simp)

end Orvex
