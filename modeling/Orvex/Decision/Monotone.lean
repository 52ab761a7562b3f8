import Orvex.Decision.Engine
import Orvex.Core.Reference
import Orvex.Policy.Spelling

/-!
# More rules never bring a decision closer to ALLOW

The status of an evaluation is the greatest of what its enabled rules ask
for.  A rule that is added or enabled can only raise it, and the decision
follows the status at every step of its precedence.
-/

namespace Orvex

/-- How far the status is from a pass. -/
def PolicyEvaluationStatus.level : PolicyEvaluationStatus → ℕ
  | .pass => 0
  | .review => 1
  | .fail => 2

/-- How far the result is from ALLOW. -/
def DecisionResult.level : DecisionResult → ℕ
  | .allow => 0
  | .review => 1
  | .deny => 2

/-- Each enabled rule of the first list is a rule of the second. -/
def Extends (rules rules' : List CompiledRule) : Prop :=
  ∀ rule ∈ rules, rule.active = true → rule ∈ rules'

theorem extends_added (before after : List CompiledRule)
    (rule : CompiledRule) :
    Extends (before ++ after) (before ++ rule :: after) := by
  intro other hother _
  rcases List.mem_append.mp hother with hbefore | hafter
  · exact List.mem_append_left _ hbefore
  · exact List.mem_append_right _ (List.mem_cons_of_mem _ hafter)

theorem extends_enabled (before after : List CompiledRule)
    {rule : CompiledRule} (hdisabled : rule.enabled = some false)
    (enabled : Option Bool) :
    Extends (before ++ rule :: after)
      (before ++ { rule with enabled := enabled } :: after) := by
  intro other hother hactive
  have hother' : other = rule ∨ other ∈ before ++ after := by
    simp only [List.mem_append, List.mem_cons] at hother ⊢
    tauto
  rcases hother' with rfl | hkept
  · exact absurd hactive (by simp [CompiledRule.active, hdisabled])
  · exact extends_added before after _ other hkept hactive

namespace PolicyEngine

variable {rt : Runtime} {rules rules' : List CompiledRule}
  {ctx : EvaluationContext} {policyId policyId' : String}
  {version version' : ℕ} {out out' : PolicyEvaluation}

theorem evaluate_review_iff
    (h : evaluate rt policyId version rules ctx = .ok out) :
    out.status = .review ↔
      (¬ ∃ rule ∈ rules, rule.active = true ∧ Violated rt ctx rule) ∧
        ∃ rule ∈ rules, rule.active = true ∧ Asking rt ctx rule := by
  have hfail := evaluate_fail_iff h
  have hpass := evaluate_status_pass_iff h
  cases hstatus : out.status <;> simp only [hstatus] at hfail hpass <;>
    simp at hfail hpass ⊢ <;> tauto

/-- What a list asks for is asked for by every list that extends it. -/
theorem exists_of_extends (hextends : Extends rules rules')
    {p : CompiledRule → Prop}
    (h : ∃ rule ∈ rules, rule.active = true ∧ p rule) :
    ∃ rule ∈ rules', rule.active = true ∧ p rule := by
  obtain ⟨rule, hmem, hactive, hrule⟩ := h
  exact ⟨rule, hextends rule hmem hactive, hactive, hrule⟩

theorem level_mono (hextends : Extends rules rules')
    (h : evaluate rt policyId version rules ctx = .ok out)
    (h' : evaluate rt policyId' version' rules' ctx = .ok out') :
    out.status.level ≤ out'.status.level := by
  cases hstatus : out.status with
  | pass => exact Nat.zero_le _
  | review =>
      obtain ⟨_, hasking⟩ := (evaluate_review_iff h).mp hstatus
      have hasking' := exists_of_extends hextends hasking
      cases hstatus' : out'.status with
      | pass =>
          have hnone := ((evaluate_status_pass_iff h').mp hstatus').2
          exact absurd hasking' hnone
      | review => exact le_refl _
      | fail => exact Nat.le_succ 1
  | fail =>
      have hviolated := (evaluate_fail_iff h).mp hstatus
      have hviolated' := exists_of_extends hextends hviolated
      rw [(evaluate_fail_iff h').mpr hviolated']

end PolicyEngine

namespace DecisionEngine

/-- The checks that precede those on signals for a human. -/
def earlyChecks (input : DecisionInput) : List (Bool × DecisionOutput) :=
  authorityChecks input ++ transactionChecks input ++
    freshnessChecks input ++ approvalChecks input.approval

theorem decide_of_early {input : DecisionInput} {check : Bool × DecisionOutput}
    (h : (earlyChecks input).find? Prod.fst = some check) :
    decide input = check.2 := by
  have hchecks : checks input = earlyChecks input ++ reviewChecks input := rfl
  unfold decide
  rw [hchecks, List.find?_append, h]
  rfl

theorem decide_of_not_early {input : DecisionInput}
    (h : (earlyChecks input).find? Prod.fst = none) :
    decide input =
      (((reviewChecks input).find? Prod.fst).map Prod.snd).getD allowed := by
  have hchecks : checks input = earlyChecks input ++ reviewChecks input := rfl
  unfold decide
  rw [hchecks, List.find?_append, h]
  rfl

/-- A failed evaluation denies, whichever check comes first. -/
theorem decide_of_fail {input : DecisionInput}
    (h : input.policyEvaluation.status = .fail) :
    (decide input).result = .deny := by
  have hdeny : ∀ check ∈ authorityChecks input, check.2.result = .deny := by
    simp [authorityChecks, deny]
  have hfound : ∃ check, (authorityChecks input).find? Prod.fst =
      some check := by
    rw [← Option.isSome_iff_exists, Option.isSome_iff_ne_none]
    intro hnone
    have hclear : ∀ check ∈ authorityChecks input, check.1 = false := by
      simpa using List.find?_eq_none.mp hnone
    have hpolicy := (authorityChecks_clear.mp hclear).2.2.2.2.2
    exact hpolicy h
  obtain ⟨check, hcheck⟩ := hfound
  have hearly : (earlyChecks input).find? Prod.fst = some check := by
    unfold earlyChecks
    simp only [List.find?_append, hcheck, Option.some_or]
  rw [decide_of_early hearly]
  exact hdeny check (List.mem_of_find?_eq_some hcheck)

/-- Past the early checks nothing denies. -/
theorem level_of_not_early {input : DecisionInput}
    (h : (earlyChecks input).find? Prod.fst = none) :
    (decide input).result.level ≤ 1 := by
  have hreview : ∀ check ∈ reviewChecks input, check.2.result = .review := by
    simp [reviewChecks, review]
  rw [decide_of_not_early h]
  cases hfind : (reviewChecks input).find? Prod.fst with
  | none => exact Nat.zero_le 1
  | some check =>
      have hmem := List.mem_of_find?_eq_some hfind
      exact (congrArg DecisionResult.level (hreview check hmem)).le

theorem decide_of_review {input : DecisionInput}
    (h : input.policyEvaluation.status = .review)
    (hearly : (earlyChecks input).find? Prod.fst = none) :
    (decide input).result = .review := by
  rw [decide_of_not_early hearly]
  simp [reviewChecks, review, h]

/-- The early checks read of the evaluation only whether it failed. -/
theorem earlyChecks_congr {input : DecisionInput} {summary : PolicySummary}
    (h : input.policyEvaluation.status ≠ .fail)
    (h' : summary.status ≠ .fail) :
    earlyChecks { input with policyEvaluation := summary } =
      earlyChecks input := by
  have hfirst : (input.policyEvaluation.status == .fail) = false :=
    beq_false_of_ne h
  have hsecond : (summary.status == .fail) = false := beq_false_of_ne h'
  simp only [earlyChecks, authorityChecks, transactionChecks,
    freshnessChecks, hfirst, hsecond]

theorem decide_congr {input : DecisionInput} {summary : PolicySummary}
    (h : summary.status = input.policyEvaluation.status) :
    decide { input with policyEvaluation := summary } = decide input := by
  simp only [decide, checks, authorityChecks, transactionChecks,
    freshnessChecks, reviewChecks, h]

/-- The decision follows the status of the evaluation. -/
theorem level_decide_mono (input : DecisionInput) {summary : PolicySummary}
    (h : input.policyEvaluation.status.level ≤ summary.status.level) :
    (decide input).result.level ≤
      (decide { input with policyEvaluation := summary }).result.level := by
  have hdenied : ∀ result : DecisionResult, result.level ≤ 2 := by
    intro result
    cases result <;> simp [DecisionResult.level]
  by_cases hsame : summary.status = input.policyEvaluation.status
  · rw [decide_congr hsame]
  · by_cases hfail : summary.status = .fail
    · rw [@decide_of_fail { input with policyEvaluation := summary } hfail]
      exact hdenied _
    · have hpass : input.policyEvaluation.status = .pass := by
        cases hold : input.policyEvaluation.status <;>
          cases hnew : summary.status <;>
          simp_all [PolicyEvaluationStatus.level]
      have hreview : summary.status = .review := by
        cases hnew : summary.status <;> simp_all
      have hearly : earlyChecks { input with policyEvaluation := summary } =
          earlyChecks input := by
        apply earlyChecks_congr
        · rw [hpass]
          simp
        · exact hfail
      cases hfind : (earlyChecks input).find? Prod.fst with
      | some check =>
          rw [decide_of_early hfind, decide_of_early (hearly ▸ hfind)]
      | none =>
          have hasks := @decide_of_review
            { input with policyEvaluation := summary } hreview
            (hearly ▸ hfind)
          rw [hasks]
          exact level_of_not_early hfind

end DecisionEngine

/-! ## Aggregation and decision -/

/-- What the decision engine reads of an evaluation. -/
def PolicyEvaluation.summary (out : PolicyEvaluation) : PolicySummary :=
  ⟨out.status, out.policyId, out.policyVersion, out.evaluationHash⟩

open PolicyEngine in
/-- The status is the greatest of what the enabled rules ask for, and no rule
that is added or enabled brings the decision closer to ALLOW. -/
theorem aggregation_monotone {rt : Runtime} {rules : List CompiledRule}
    {ctx : EvaluationContext} {policyId : String} {version : ℕ}
    {out : PolicyEvaluation}
    (h : evaluate rt policyId version rules ctx = .ok out) :
    (out.status = .fail ↔
      ∃ rule ∈ rules, rule.active = true ∧ Violated rt ctx rule) ∧
    (out.status = .review ↔
      (¬ ∃ rule ∈ rules, rule.active = true ∧ Violated rt ctx rule) ∧
        ∃ rule ∈ rules, rule.active = true ∧ Asking rt ctx rule) ∧
    (out.status = .pass ↔
      (¬ ∃ rule ∈ rules, rule.active = true ∧ Violated rt ctx rule) ∧
        ¬ ∃ rule ∈ rules, rule.active = true ∧ Asking rt ctx rule) ∧
    ∀ rules' policyId' version' out', Extends rules rules' →
      evaluate rt policyId' version' rules' ctx = .ok out' →
        ∀ input : DecisionInput,
          (DecisionEngine.decide
              { input with policyEvaluation := out.summary }).result.level ≤
            (DecisionEngine.decide
              { input with policyEvaluation := out'.summary }).result.level := by
  refine ⟨evaluate_fail_iff h, evaluate_review_iff h,
    evaluate_status_pass_iff h, ?_⟩
  intro rules' policyId' version' out' hextends h' input
  exact DecisionEngine.level_decide_mono
    { input with policyEvaluation := out.summary } (level_mono hextends h h')

/-! ## A rule that is enabled -/

def sampleApproval : CompiledRule :=
  ⟨"approval", .humanApproval, none, none, some (.object []), []⟩

def sampleBlocklist : CompiledRule :=
  ⟨"blocked", .recipientBlocklist, none, some false,
    some (.object [("recipients", .array [.string "0xmallory"])]), []⟩

def sampleContext : EvaluationContext where
  transaction := ⟨"PAY", none, none, none, none, none, some "0xmallory"⟩
  cumulativeSpent := none
  cumulativeByKey := none
  knownRecipients := none
  trajectoryEventTypes := none
  recentTransactions := none
  capabilityExpiresAt := none
  now := "2026-01-01T12:00:00.000Z"

open PolicyEngine in
/-- With the blocklist enabled the decision can only become stricter. -/
theorem sample_aggregation_monotone :
    ∃ out out',
      evaluate .reference "policy-1" 1 ([sampleApproval] ++
        sampleBlocklist :: []) sampleContext = .ok out ∧
      evaluate .reference "policy-1" 2 ([sampleApproval] ++
        { sampleBlocklist with enabled := some true } :: []) sampleContext =
          .ok out' ∧
      out.status = .review ∧ out'.status = .fail ∧
      ∀ input : DecisionInput,
        (DecisionEngine.decide
            { input with policyEvaluation := out.summary }).result.level ≤
          (DecisionEngine.decide
            { input with policyEvaluation := out'.summary }).result.level := by
  have houts : ∃ outs, outcomes .reference sampleContext
      (enabledRules .reference ([sampleApproval] ++ sampleBlocklist :: [])) =
        .ok outs ∧ statusOf (violationsOf outs) (requirementsOf outs) =
          .review := ⟨_, rfl, rfl⟩
  obtain ⟨outs, hrun, hstatus⟩ := houts
  have h := @evaluate_eq_ok .reference "policy-1" 1 _ sampleContext _ |>.mpr
    ⟨outs, hrun, rfl⟩
  have hreadable : ¬ Unreadable .reference ([sampleApproval] ++
      { sampleBlocklist with enabled := some true } :: []) sampleContext := by
    rintro ⟨rule, hrule, _, failure, hfailure⟩
    simp only [List.cons_append, List.nil_append, List.mem_cons,
      List.not_mem_nil, or_false] at hrule
    rcases hrule with rfl | rfl <;> cases hfailure
  obtain ⟨out', h'⟩ :=
    (@exists_evaluate_iff .reference "policy-1" 2 _ sampleContext).mpr
      hreadable
  have hstatus' : out'.status = .fail :=
    (evaluate_fail_iff h').mpr ⟨{ sampleBlocklist with enabled := some true },
      by simp, rfl, _, rfl, rfl⟩
  refine ⟨_, out', h, h', hstatus, hstatus', ?_⟩
  exact (aggregation_monotone h).2.2.2 _ _ _ _
    (extends_enabled [sampleApproval] [] rfl (some true)) h'

end Orvex
