import Orvex.Policy.Evaluators
import Orvex.Foundation.Action
import Mathlib.Data.List.Sort

/-!
# The policy engine

The enabled rules are evaluated in priority order.  A violation makes the
evaluation fail, a requirement makes it a review, and otherwise it passes.
The hash covers the rules, the context and the results.
-/

namespace Orvex

inductive PolicyEvaluationStatus where
  | pass | fail | review
  deriving DecidableEq

structure PolicyViolation where
  ruleId : String
  ruleType : RuleType
  field : Option String
  actualValue : Option String
  expected : Option String
  severity : Severity
  message : String
  deriving DecidableEq

structure PolicyRequirement where
  ruleId : String
  ruleType : RuleType
  reason : String
  deriving DecidableEq

structure PolicyEvaluation where
  policyId : String
  policyVersion : ℕ
  status : PolicyEvaluationStatus
  rulesChecked : List (String × RuleResult)
  violations : List PolicyViolation
  requirements : List PolicyRequirement
  eventsConsidered : Option ℕ
  evaluatedAt : String
  evaluationHash : String
  deriving DecidableEq

namespace PolicyEngine

/-- The order in which rules are evaluated. -/
def ruleLe (rt : Runtime) (a b : CompiledRule) : Bool :=
  let difference := a.priority.getD 100 - b.priority.getD 100
  if difference ≠ 0 then decide (difference < 0)
  else rt.localeCompare a.ruleId b.ruleId != .gt

def enabledRules (rt : Runtime) (rules : List CompiledRule) :
    List CompiledRule :=
  (rules.filter CompiledRule.active).insertionSort
    (fun a b => ruleLe rt a b = true)

def outcomes (rt : Runtime) (ctx : EvaluationContext) :
    List CompiledRule → Except Failure (List RuleOutcome)
  | [] => .ok []
  | rule :: rest => do
      let verdict ← evaluators rule.type rt rule ctx
      let others ← outcomes rt ctx rest
      pure (⟨rule.ruleId, rule.type, verdict⟩ :: others)

def violationOf (out : RuleOutcome) : PolicyViolation where
  ruleId := out.ruleId
  ruleType := out.ruleType
  field := out.verdict.field
  actualValue := out.verdict.actualValue
  expected := out.verdict.expected
  severity := out.verdict.severity.getD .high
  message := out.verdict.reason.getD "Policy rule violated."

def requirementOf (out : RuleOutcome) : PolicyRequirement where
  ruleId := out.ruleId
  ruleType := out.ruleType
  reason := out.verdict.reason.getD ""

def RuleResult.Required (result : RuleResult) : Prop :=
  result = .requireApproval ∨ result = .review

instance (result : RuleResult) : Decidable (RuleResult.Required result) :=
  inferInstanceAs (Decidable (_ ∨ _))

def violationsOf (outs : List RuleOutcome) : List PolicyViolation :=
  (outs.filter (fun out => out.result = .violation)).map violationOf

def requirementsOf (outs : List RuleOutcome) : List PolicyRequirement :=
  (outs.filter (fun out => RuleResult.Required out.result)).map requirementOf

def statusOf (violations : List PolicyViolation)
    (requirements : List PolicyRequirement) : PolicyEvaluationStatus :=
  if violations.length > 0 then .fail
  else if requirements.length > 0 then .review
  else .pass

def resultsJson (outs : List RuleOutcome) : Json :=
  .array (outs.map (fun out =>
    textFields [("rule_id", out.ruleId), ("result", out.result.text)]))

def evaluationHash (rt : Runtime) (policyId : String) (version : ℕ)
    (enabled : List CompiledRule) (ctx : EvaluationContext)
    (outs : List RuleOutcome) : String :=
  sha256Json rt (.object
    [("policyId", .string policyId), ("version", .number version),
      ("rules", rulesJson enabled), ("context", ctx.toJson),
      ("outcomes", resultsJson outs)])

def evaluationOf (rt : Runtime) (policyId : String) (policyVersion : ℕ)
    (enabled : List CompiledRule) (ctx : EvaluationContext)
    (outs : List RuleOutcome) : PolicyEvaluation where
  policyId := policyId
  policyVersion := policyVersion
  status := statusOf (violationsOf outs) (requirementsOf outs)
  rulesChecked := outs.map (fun out => (out.ruleId, out.result))
  violations := violationsOf outs
  requirements := requirementsOf outs
  eventsConsidered := ctx.trajectoryEventTypes.map List.length
  evaluatedAt := ctx.now
  evaluationHash :=
    evaluationHash rt policyId policyVersion enabled ctx outs

def evaluate (rt : Runtime) (policyId : String) (policyVersion : ℕ)
    (rules : List CompiledRule) (ctx : EvaluationContext) :
    Except Failure PolicyEvaluation := do
  let enabled := enabledRules rt rules
  let outs ← outcomes rt ctx enabled
  pure (evaluationOf rt policyId policyVersion enabled ctx outs)

/-! ## The outcomes of the rules -/

theorem mem_enabledRules {rt : Runtime} {rules : List CompiledRule}
    {rule : CompiledRule} :
    rule ∈ enabledRules rt rules ↔ rule ∈ rules ∧ rule.active = true := by
  unfold enabledRules
  rw [(List.perm_insertionSort _ _).mem_iff, List.mem_filter]

theorem outcomes_cons {rt : Runtime} {ctx : EvaluationContext}
    {rule : CompiledRule} {rest : List CompiledRule}
    {outs : List RuleOutcome} :
    outcomes rt ctx (rule :: rest) = .ok outs ↔
      ∃ verdict others, evaluators rule.type rt rule ctx = .ok verdict ∧
        outcomes rt ctx rest = .ok others ∧
          outs = ⟨rule.ruleId, rule.type, verdict⟩ :: others := by
  rw [outcomes]
  simp only [Fallible.result_bind_eq_ok, Fallible.result_pure, Except.ok.injEq]
  constructor
  · rintro ⟨verdict, hverdict, others, hothers, houts⟩
    exact ⟨verdict, others, hverdict, hothers, houts.symm⟩
  · rintro ⟨verdict, others, hverdict, hothers, houts⟩
    exact ⟨verdict, hverdict, others, hothers, houts.symm⟩

theorem exists_of_outcomes {rt : Runtime} {ctx : EvaluationContext}
    {rules : List CompiledRule} {outs : List RuleOutcome}
    (h : outcomes rt ctx rules = .ok outs) {rule : CompiledRule}
    (hmem : rule ∈ rules) :
    ∃ verdict, evaluators rule.type rt rule ctx = .ok verdict := by
  induction rules generalizing outs with
  | nil => simp at hmem
  | cons head rest ih =>
      obtain ⟨verdict, others, hverdict, hothers, _⟩ := outcomes_cons.mp h
      rcases List.mem_cons.mp hmem with hhead | htail
      · exact ⟨verdict, by rw [hhead, hverdict]⟩
      · exact ih hothers htail

/-- Each outcome is that of one of the rules, and each rule has one. -/
theorem mem_outcomes {rt : Runtime} {ctx : EvaluationContext}
    {rules : List CompiledRule} {outs : List RuleOutcome}
    (h : outcomes rt ctx rules = .ok outs) (out : RuleOutcome) :
    out ∈ outs ↔
      ∃ rule ∈ rules, ∃ verdict,
        evaluators rule.type rt rule ctx = .ok verdict ∧
          out = ⟨rule.ruleId, rule.type, verdict⟩ := by
  induction rules generalizing outs with
  | nil =>
      simp only [outcomes, Except.ok.injEq] at h
      simp [← h]
  | cons rule rest ih =>
      obtain ⟨verdict, others, hverdict, hothers, houts⟩ :=
        outcomes_cons.mp h
      rw [houts, List.mem_cons, ih hothers]
      constructor
      · rintro (hhead | ⟨other, hmem, hother⟩)
        · exact ⟨rule, List.mem_cons_self, verdict, hverdict, hhead⟩
        · exact ⟨other, List.mem_cons_of_mem _ hmem, hother⟩
      · rintro ⟨other, hmem, found, hfound, hout⟩
        rcases List.mem_cons.mp hmem with hhead | htail
        · subst hhead
          rw [hverdict, Except.ok.injEq] at hfound
          left
          rw [hout, hfound]
        · exact Or.inr ⟨other, htail, found, hfound, hout⟩

/-- Rules that can all be evaluated have outcomes. -/
theorem outcomes_of_forall {rt : Runtime} {ctx : EvaluationContext}
    {rules : List CompiledRule}
    (h : ∀ rule ∈ rules, ∃ verdict,
      evaluators rule.type rt rule ctx = .ok verdict) :
    ∃ outs, outcomes rt ctx rules = .ok outs := by
  induction rules with
  | nil => exact ⟨[], rfl⟩
  | cons rule rest ih =>
      obtain ⟨verdict, hverdict⟩ := h rule List.mem_cons_self
      obtain ⟨others, hothers⟩ := ih (fun other hmem =>
        h other (List.mem_cons_of_mem _ hmem))
      exact ⟨_, outcomes_cons.mpr ⟨verdict, others, hverdict, hothers, rfl⟩⟩

theorem evaluate_eq_ok {rt : Runtime} {policyId : String} {version : ℕ}
    {rules : List CompiledRule} {ctx : EvaluationContext}
    {out : PolicyEvaluation} :
    evaluate rt policyId version rules ctx = .ok out ↔
      ∃ outs, outcomes rt ctx (enabledRules rt rules) = .ok outs ∧
        evaluationOf rt policyId version (enabledRules rt rules) ctx outs =
          out := by
  unfold evaluate
  simp only [Fallible.result_bind_eq_ok, Fallible.result_pure, Except.ok.injEq]

/-! ## The status -/

theorem violationsOf_eq_nil {outs : List RuleOutcome} :
    violationsOf outs = [] ↔ ∀ out ∈ outs, out.result ≠ .violation := by
  simp [violationsOf]

theorem requirementsOf_eq_nil {outs : List RuleOutcome} :
    requirementsOf outs = [] ↔
      ∀ out ∈ outs, ¬ RuleResult.Required out.result := by
  simp [requirementsOf]

theorem statusOf_eq_pass {violations : List PolicyViolation}
    {requirements : List PolicyRequirement} :
    statusOf violations requirements = .pass ↔
      violations = [] ∧ requirements = [] := by
  unfold statusOf
  cases violations <;> cases requirements <;> simp

/-- The rule lets the action through: it is satisfied or does not apply. -/
def Admits (rt : Runtime) (ctx : EvaluationContext) (rule : CompiledRule) :
    Prop :=
  ∃ verdict, evaluators rule.type rt rule ctx = .ok verdict ∧
    (verdict.result = .pass ∨ verdict.result = .skipped)

theorem result_admits_iff (result : RuleResult) :
    (result ≠ .violation ∧ ¬ RuleResult.Required result) ↔
      (result = .pass ∨ result = .skipped) := by
  unfold RuleResult.Required
  cases result <;> simp

/-- The evaluation passes exactly when every enabled rule admits the
context. -/
theorem evaluate_pass_iff {rt : Runtime} {policyId : String} {version : ℕ}
    {rules : List CompiledRule} {ctx : EvaluationContext} :
    (∃ out, evaluate rt policyId version rules ctx = .ok out ∧
        out.status = .pass) ↔
      ∀ rule ∈ rules, rule.active = true → Admits rt ctx rule := by
  constructor
  · rintro ⟨out, hevaluate, hstatus⟩ rule hrule hactive
    obtain ⟨outs, houts, hout⟩ := evaluate_eq_ok.mp hevaluate
    rw [← hout] at hstatus
    obtain ⟨hviolations, hrequirements⟩ := statusOf_eq_pass.mp hstatus
    have hmem : rule ∈ enabledRules rt rules :=
      mem_enabledRules.mpr ⟨hrule, hactive⟩
    obtain ⟨verdict, hverdict⟩ : ∃ verdict,
        evaluators rule.type rt rule ctx = .ok verdict :=
      exists_of_outcomes houts hmem
    have hin : ⟨rule.ruleId, rule.type, verdict⟩ ∈ outs :=
      (mem_outcomes houts _).mpr ⟨rule, hmem, verdict, hverdict, rfl⟩
    refine ⟨verdict, hverdict, (result_admits_iff _).mp ⟨?_, ?_⟩⟩
    · exact violationsOf_eq_nil.mp hviolations _ hin
    · exact requirementsOf_eq_nil.mp hrequirements _ hin
  · intro h
    have hall : ∀ rule ∈ enabledRules rt rules, Admits rt ctx rule := by
      intro rule hmem
      obtain ⟨hrule, hactive⟩ := mem_enabledRules.mp hmem
      exact h rule hrule hactive
    obtain ⟨outs, houts⟩ := outcomes_of_forall (fun rule hmem => by
      obtain ⟨verdict, hverdict, _⟩ := hall rule hmem
      exact ⟨verdict, hverdict⟩)
    have hadmitted : ∀ out ∈ outs,
        out.result ≠ .violation ∧ ¬ RuleResult.Required out.result := by
      intro out hout
      obtain ⟨rule, hmem, verdict, hverdict, rfl⟩ :=
        (mem_outcomes houts out).mp hout
      obtain ⟨found, hfound, hresult⟩ := hall rule hmem
      rw [hverdict, Except.ok.injEq] at hfound
      subst hfound
      exact (result_admits_iff _).mpr hresult
    refine ⟨_, evaluate_eq_ok.mpr ⟨outs, houts, rfl⟩, ?_⟩
    exact statusOf_eq_pass.mpr
      ⟨violationsOf_eq_nil.mpr fun out hout => (hadmitted out hout).1,
        requirementsOf_eq_nil.mpr fun out hout => (hadmitted out hout).2⟩

end PolicyEngine
end Orvex
