import Orvex.Policy.Engine

/-!
# Rules that ask for a human

Two rule types can ask for an approval.  Neither looks at whether one was
given: a rule that asks once asks again in every context with the same
recipient and no list of known recipients.
-/

namespace Orvex
namespace PolicyEngine

open Evaluators

/-- No verdict of the evaluation asks for a human. -/
def NeverAsks (evaluation : Except Failure Verdict) : Prop :=
  ∀ verdict, evaluation = .ok verdict → ¬ RuleResult.Required verdict.result

theorem neverAsks_ok {verdict : Verdict}
    (h : ¬ RuleResult.Required verdict.result) :
    NeverAsks (.ok verdict) := by
  intro other heq
  rwa [← Except.ok.inj heq]

theorem neverAsks_bind {α : Type} {x : Except Failure α}
    {f : α → Except Failure Verdict} (h : ∀ a, NeverAsks (f a)) :
    NeverAsks (x >>= f) := by
  intro verdict heq
  obtain ⟨a, _, hf⟩ := Fallible.result_bind_eq_ok.mp heq
  exact h a verdict hf

theorem neverAsks_ite {condition : Prop} [Decidable condition]
    {x y : Except Failure Verdict} (hx : NeverAsks x) (hy : NeverAsks y) :
    NeverAsks (if condition then x else y) := by
  split
  · exact hx
  · exact hy

theorem neverAsks_passed : NeverAsks (.ok passed) :=
  neverAsks_ok (by simp [RuleResult.Required, passed])

theorem neverAsks_skipped : NeverAsks (.ok skipped) :=
  neverAsks_ok (by simp [RuleResult.Required, skipped])

theorem neverAsks_violated (reason : String)
    (field actual expected : Option String) (severity : Severity) :
    NeverAsks (.ok (violated reason field actual expected severity)) :=
  neverAsks_ok (by simp [RuleResult.Required, violated])

theorem allowList_neverAsks (list : AllowList) (rt : Runtime)
    (rule : CompiledRule) (ctx : EvaluationContext) :
    NeverAsks (list.evaluate rt rule ctx) := by
  refine neverAsks_bind (fun allow => ?_)
  cases list.subject ctx.transaction with
  | none => exact neverAsks_violated _ _ _ _ _
  | some value =>
      exact neverAsks_ite (neverAsks_violated _ _ _ _ _)
        (neverAsks_ite neverAsks_passed (neverAsks_violated _ _ _ _ _))

theorem blockList_neverAsks (list : BlockList) (rt : Runtime)
    (rule : CompiledRule) (ctx : EvaluationContext) :
    NeverAsks (list.evaluate rt rule ctx) := by
  refine neverAsks_bind (fun block => ?_)
  cases list.subject ctx.transaction with
  | none => exact neverAsks_passed
  | some value =>
      exact neverAsks_ite neverAsks_passed (neverAsks_violated _ _ _ _ _)

theorem amountLimit_neverAsks (rt : Runtime) (rule : CompiledRule)
    (ctx : EvaluationContext) : NeverAsks (amountLimit rt rule ctx) := by
  refine neverAsks_bind (fun maximum => ?_)
  cases maximum with
  | none => exact neverAsks_skipped
  | some max =>
      simp only
      cases ctx.transaction.amount with
      | none => exact neverAsks_violated _ _ _ _ _
      | some text =>
          refine neverAsks_bind (fun amount => ?_)
          refine neverAsks_bind (fun limit => ?_)
          exact neverAsks_ite neverAsks_passed (neverAsks_violated _ _ _ _ _)

theorem cumulativeLimit_neverAsks (rt : Runtime) (rule : CompiledRule)
    (ctx : EvaluationContext) : NeverAsks (cumulativeLimit rt rule ctx) := by
  refine neverAsks_bind (fun window => ?_)
  refine neverAsks_bind (fun maximum => ?_)
  split
  next =>
    refine neverAsks_bind (fun amount => ?_)
    refine neverAsks_bind (fun spent => ?_)
    refine neverAsks_bind (fun limit => ?_)
    exact neverAsks_ite neverAsks_passed
      (neverAsks_bind (fun _ => neverAsks_violated _ _ _ _ _))
  next => exact neverAsks_skipped

theorem timeWindow_neverAsks (rt : Runtime) (rule : CompiledRule)
    (ctx : EvaluationContext) : NeverAsks (timeWindow rt rule ctx) := by
  refine neverAsks_bind (fun start => ?_)
  refine neverAsks_bind (fun stop => ?_)
  split
  next =>
    refine neverAsks_bind (fun _ => ?_)
    refine neverAsks_bind (fun _ => ?_)
    exact neverAsks_ite neverAsks_passed (neverAsks_violated _ _ _ _ _)
  next => exact neverAsks_skipped

theorem requiredPredecessor_neverAsks (rt : Runtime) (rule : CompiledRule)
    (ctx : EvaluationContext) :
    NeverAsks (requiredPredecessor rt rule ctx) := by
  refine neverAsks_bind (fun predecessor => ?_)
  refine neverAsks_ite ?_ neverAsks_skipped
  split
  next =>
    exact neverAsks_ite neverAsks_passed (neverAsks_violated _ _ _ _ _)
  next => exact neverAsks_bind (fun _ => neverAsks_violated _ _ _ _ _)

theorem noStructuring_neverAsks (rt : Runtime) (rule : CompiledRule)
    (ctx : EvaluationContext) : NeverAsks (noStructuring rt rule ctx) := by
  refine neverAsks_bind (fun threshold => ?_)
  refine neverAsks_bind (fun windowMinutes => ?_)
  refine neverAsks_bind (fun maxCount => ?_)
  cases threshold with
  | none => exact neverAsks_skipped
  | some value =>
      refine neverAsks_bind (fun _ => ?_)
      refine neverAsks_bind (fun limit => ?_)
      refine neverAsks_bind (fun count => ?_)
      refine neverAsks_bind (fun _ => ?_)
      exact neverAsks_ite (neverAsks_violated _ _ _ _ _) neverAsks_passed

theorem capabilityExpiry_neverAsks (rt : Runtime) (rule : CompiledRule)
    (ctx : EvaluationContext) :
    NeverAsks (capabilityExpiry rt rule ctx) := by
  unfold capabilityExpiry
  cases ctx.capabilityExpiresAt with
  | none => exact neverAsks_skipped
  | some expiresAt =>
      exact neverAsks_ite neverAsks_skipped
        (neverAsks_ite neverAsks_passed (neverAsks_violated _ _ _ _ _))

/-- Only two rule types ask for a human. -/
theorem asks_type {rt : Runtime} {rule : CompiledRule}
    {ctx : EvaluationContext} {verdict : Verdict}
    (hverdict : evaluators rule.type rt rule ctx = .ok verdict)
    (hasks : RuleResult.Required verdict.result) :
    rule.type = .humanApproval ∨ rule.type = .newRecipientApproval := by
  by_contra htype
  rw [not_or] at htype
  have hnever : NeverAsks (evaluators rule.type rt rule ctx) := by
    cases hrule : rule.type with
    | humanApproval => exact absurd hrule htype.1
    | newRecipientApproval => exact absurd hrule htype.2
    | amountLimit => exact amountLimit_neverAsks rt rule ctx
    | cumulativeLimit => exact cumulativeLimit_neverAsks rt rule ctx
    | recipientAllowlist => exact allowList_neverAsks _ rt rule ctx
    | recipientBlocklist => exact blockList_neverAsks _ rt rule ctx
    | categoryAllow => exact allowList_neverAsks _ rt rule ctx
    | categoryBlock => exact blockList_neverAsks _ rt rule ctx
    | assetAllow => exact allowList_neverAsks _ rt rule ctx
    | assetBlock => exact blockList_neverAsks _ rt rule ctx
    | networkAllow => exact allowList_neverAsks _ rt rule ctx
    | networkBlock => exact blockList_neverAsks _ rt rule ctx
    | timeWindow => exact timeWindow_neverAsks rt rule ctx
    | requiredPredecessor => exact requiredPredecessor_neverAsks rt rule ctx
    | noStructuring => exact noStructuring_neverAsks rt rule ctx
    | capabilityExpiry => exact capabilityExpiry_neverAsks rt rule ctx
  exact hnever verdict hverdict hasks

/-- A rule that asks in one context asks in every other with the same
recipient and the same known recipients. -/
theorem asks_again {rt : Runtime} {rule : CompiledRule}
    {ctx ctx' : EvaluationContext} {verdict verdict' : Verdict}
    (hrecipient : ctx'.transaction.recipient = ctx.transaction.recipient)
    (hknown : ctx'.knownRecipients = ctx.knownRecipients)
    (hverdict : evaluators rule.type rt rule ctx = .ok verdict)
    (hasks : RuleResult.Required verdict.result)
    (hverdict' : evaluators rule.type rt rule ctx' = .ok verdict') :
    RuleResult.Required verdict'.result := by
  have hsame : evaluators rule.type rt rule ctx' =
      evaluators rule.type rt rule ctx := by
    rcases asks_type hverdict hasks with htype | htype
    · rw [htype]
      rfl
    · rw [htype]
      simp only [evaluators, newRecipientApproval, hrecipient, hknown]
  rw [hsame, hverdict, Except.ok.injEq] at hverdict'
  rwa [← hverdict']

theorem statusOf_eq_review {violations : List PolicyViolation}
    {requirements : List PolicyRequirement}
    (h : statusOf violations requirements = .review) :
    requirements ≠ [] := by
  unfold statusOf at h
  cases violations <;> cases requirements <;> simp_all

/-- Behind a review stands an enabled rule that asks. -/
theorem asking_rule_of_review {rt : Runtime} {policyId : String}
    {version : ℕ} {rules : List CompiledRule} {ctx : EvaluationContext}
    {out : PolicyEvaluation}
    (h : evaluate rt policyId version rules ctx = .ok out)
    (hreview : out.status = .review) :
    ∃ rule ∈ rules, rule.active = true ∧ ∃ verdict,
      evaluators rule.type rt rule ctx = .ok verdict ∧
        RuleResult.Required verdict.result := by
  obtain ⟨outs, houts, rfl⟩ := evaluate_eq_ok.mp h
  have hrequirements := statusOf_eq_review hreview
  rw [ne_eq, requirementsOf_eq_nil] at hrequirements
  push Not at hrequirements
  obtain ⟨outcome, hmem, hasks⟩ := hrequirements
  obtain ⟨rule, hrule, verdict, hverdict, rfl⟩ :=
    (mem_outcomes houts outcome).mp hmem
  obtain ⟨hin, hactive⟩ := mem_enabledRules.mp hrule
  exact ⟨rule, hin, hactive, verdict, hverdict, hasks⟩

/-- A policy that asked for a human never passes while the recipient and the
known recipients stay the same. -/
theorem review_never_passes {rt : Runtime} {policyId : String}
    {version : ℕ} {rules : List CompiledRule}
    {ctx ctx' : EvaluationContext} {out out' : PolicyEvaluation}
    (hrecipient : ctx'.transaction.recipient = ctx.transaction.recipient)
    (hknown : ctx'.knownRecipients = ctx.knownRecipients)
    (h : evaluate rt policyId version rules ctx = .ok out)
    (hreview : out.status = .review)
    (h' : evaluate rt policyId version rules ctx' = .ok out') :
    out'.status ≠ .pass := by
  intro hpass
  obtain ⟨rule, hmem, hactive, verdict, hverdict, hasks⟩ :=
    asking_rule_of_review h hreview
  obtain ⟨verdict', hverdict', hadmitted⟩ :=
    evaluate_pass_iff.mp ⟨out', h', hpass⟩ rule hmem hactive
  have hagain := asks_again hrecipient hknown hverdict hasks hverdict'
  exact ((result_admits_iff _).mpr hadmitted).2 hagain

end PolicyEngine
end Orvex
