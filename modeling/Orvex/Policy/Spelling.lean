import Orvex.Policy.Requirements

/-!
# How the recipient is spelled

Four kinds of rule read the recipient: the two lists, the rule on new
recipients and the limit for one recipient.  All of them compare it as a
text.  The status of an evaluation is determined by which rules refuse and
which ask, so two texts are judged alike exactly when these rules treat them
alike, or when the rules that do not read the recipient decide.
-/

namespace Orvex
namespace PolicyEngine

open Evaluators

/-- The context with its recipient written in this way. -/
def spelled (ctx : EvaluationContext) (recipient : String) :
    EvaluationContext :=
  { ctx with
    transaction := { ctx.transaction with recipient := some recipient } }

/-- The texts of the list of a recipient rule. -/
def recipientEntries (rule : CompiledRule) : List String :=
  match rule.setting "recipients" with
  | .ok setting => asStringArray setting
  | .error _ => []

/-- The limit of the rule is one for each recipient. -/
def PerRecipient (rule : CompiledRule) : Prop :=
  rule.type = .cumulativeLimit ∧
    rule.setting "window" = .ok (some (.string "recipient"))

def ReadsRecipient (rule : CompiledRule) : Prop :=
  rule.type = .recipientAllowlist ∨ rule.type = .recipientBlocklist ∨
    rule.type = .newRecipientApproval ∨ PerRecipient rule

/-- The rule is violated. -/
def Violated (rt : Runtime) (ctx : EvaluationContext)
    (rule : CompiledRule) : Prop :=
  ∃ verdict, evaluators rule.type rt rule ctx = .ok verdict ∧
    verdict.result = .violation

/-- The rule asks for a human. -/
def Asking (rt : Runtime) (ctx : EvaluationContext) (rule : CompiledRule) :
    Prop :=
  ∃ verdict, evaluators rule.type rt rule ctx = .ok verdict ∧
    RuleResult.Required verdict.result

/-- Some enabled rule cannot be evaluated. -/
def Unreadable (rt : Runtime) (rules : List CompiledRule)
    (ctx : EvaluationContext) : Prop :=
  ∃ rule ∈ rules, rule.active = true ∧
    ∃ failure, evaluators rule.type rt rule ctx = .error failure

/-! ## The status of an evaluation -/

theorem exists_evaluate_iff {rt : Runtime} {policyId : String}
    {version : ℕ} {rules : List CompiledRule} {ctx : EvaluationContext} :
    (∃ out, evaluate rt policyId version rules ctx = .ok out) ↔
      ¬ Unreadable rt rules ctx := by
  constructor
  · rintro ⟨out, hout⟩ ⟨rule, hrule, hactive, failure, hfailure⟩
    obtain ⟨outs, houts, -⟩ := evaluate_eq_ok.mp hout
    obtain ⟨verdict, hverdict⟩ :=
      exists_of_outcomes houts (mem_enabledRules.mpr ⟨hrule, hactive⟩)
    rw [hfailure] at hverdict
    simp at hverdict
  · intro hreadable
    have hall : ∀ rule ∈ enabledRules rt rules, ∃ verdict,
        evaluators rule.type rt rule ctx = .ok verdict := by
      intro rule hmem
      obtain ⟨hrule, hactive⟩ := mem_enabledRules.mp hmem
      cases heval : evaluators rule.type rt rule ctx with
      | ok verdict => exact ⟨verdict, rfl⟩
      | error failure =>
          exact absurd ⟨rule, hrule, hactive, failure, heval⟩ hreadable
    obtain ⟨outs, houts⟩ := outcomes_of_forall hall
    exact ⟨_, evaluate_eq_ok.mpr ⟨outs, houts, rfl⟩⟩

theorem statusOf_eq_fail {violations : List PolicyViolation}
    {requirements : List PolicyRequirement} :
    statusOf violations requirements = .fail ↔ violations ≠ [] := by
  unfold statusOf
  cases violations <;> cases requirements <;> simp

theorem evaluate_fail_iff {rt : Runtime} {policyId : String} {version : ℕ}
    {rules : List CompiledRule} {ctx : EvaluationContext}
    {out : PolicyEvaluation}
    (h : evaluate rt policyId version rules ctx = .ok out) :
    out.status = .fail ↔
      ∃ rule ∈ rules, rule.active = true ∧ Violated rt ctx rule := by
  obtain ⟨outs, houts, hout⟩ := evaluate_eq_ok.mp h
  rw [← hout, show (evaluationOf rt policyId version (enabledRules rt rules)
    ctx outs).status = statusOf (violationsOf outs) (requirementsOf outs)
    from rfl, statusOf_eq_fail, ne_eq, violationsOf_eq_nil]
  push Not
  constructor
  · rintro ⟨outcome, hmem, hviolation⟩
    obtain ⟨rule, hrule, verdict, hverdict, rfl⟩ :=
      (mem_outcomes houts outcome).mp hmem
    obtain ⟨hin, hactive⟩ := mem_enabledRules.mp hrule
    exact ⟨rule, hin, hactive, verdict, hverdict, hviolation⟩
  · rintro ⟨rule, hin, hactive, verdict, hverdict, hviolation⟩
    exact ⟨_, (mem_outcomes houts _).mpr ⟨rule,
      mem_enabledRules.mpr ⟨hin, hactive⟩, verdict, hverdict, rfl⟩,
      hviolation⟩

/-- An evaluation passes when nothing is violated and nothing asks. -/
theorem evaluate_status_pass_iff {rt : Runtime} {policyId : String}
    {version : ℕ} {rules : List CompiledRule} {ctx : EvaluationContext}
    {out : PolicyEvaluation}
    (h : evaluate rt policyId version rules ctx = .ok out) :
    out.status = .pass ↔
      (¬ ∃ rule ∈ rules, rule.active = true ∧ Violated rt ctx rule) ∧
        ¬ ∃ rule ∈ rules, rule.active = true ∧ Asking rt ctx rule := by
  have hpass : out.status = .pass ↔
      ∀ rule ∈ rules, rule.active = true → Admits rt ctx rule := by
    rw [← @evaluate_pass_iff rt policyId version]
    constructor
    · exact fun hstatus => ⟨out, h, hstatus⟩
    · rintro ⟨found, hfound, hstatus⟩
      rw [h, Except.ok.injEq] at hfound
      rwa [hfound]
  rw [hpass]
  constructor
  · intro hadmits
    constructor
    · rintro ⟨rule, hrule, hactive, verdict, hverdict, hviolation⟩
      obtain ⟨found, hfound, hresult⟩ := hadmits rule hrule hactive
      rw [hverdict, Except.ok.injEq] at hfound
      subst hfound
      exact ((result_admits_iff _).mpr hresult).1 hviolation
    · rintro ⟨rule, hrule, hactive, verdict, hverdict, hasks⟩
      obtain ⟨found, hfound, hresult⟩ := hadmits rule hrule hactive
      rw [hverdict, Except.ok.injEq] at hfound
      subst hfound
      exact ((result_admits_iff _).mpr hresult).2 hasks
  · rintro ⟨hviolated, hasking⟩ rule hrule hactive
    obtain ⟨outs, houts, -⟩ := evaluate_eq_ok.mp h
    obtain ⟨verdict, hverdict⟩ :=
      exists_of_outcomes houts (mem_enabledRules.mpr ⟨hrule, hactive⟩)
    refine ⟨verdict, hverdict, (result_admits_iff _).mp ⟨?_, ?_⟩⟩
    · exact fun hviolation =>
        hviolated ⟨rule, hrule, hactive, verdict, hverdict, hviolation⟩
    · exact fun hasks =>
        hasking ⟨rule, hrule, hactive, verdict, hverdict, hasks⟩

/-- The status of an evaluation, where there is one. -/
def status? (rt : Runtime) (policyId : String) (version : ℕ)
    (rules : List CompiledRule) (ctx : EvaluationContext) :
    Option PolicyEvaluationStatus :=
  (evaluate rt policyId version rules ctx).toOption.map
    PolicyEvaluation.status

/-- Two contexts are given the same status, or both none, exactly when they
are alike in what can be read, what is violated and, unless something is
violated, what asks. -/
theorem status_eq_iff {rt : Runtime} {policyId : String} {version : ℕ}
    {rules : List CompiledRule} {ctx ctx' : EvaluationContext} :
    status? rt policyId version rules ctx =
        status? rt policyId version rules ctx' ↔
      (Unreadable rt rules ctx ↔ Unreadable rt rules ctx') ∧
      (Unreadable rt rules ctx ∨
        (((∃ rule ∈ rules, rule.active = true ∧ Violated rt ctx rule) ↔
            ∃ rule ∈ rules, rule.active = true ∧ Violated rt ctx' rule) ∧
          ((∃ rule ∈ rules, rule.active = true ∧ Violated rt ctx rule) ∨
            ((∃ rule ∈ rules, rule.active = true ∧ Asking rt ctx rule) ↔
              ∃ rule ∈ rules, rule.active = true ∧
                Asking rt ctx' rule)))) := by
  have hread := @exists_evaluate_iff rt policyId version rules ctx
  have hread' := @exists_evaluate_iff rt policyId version rules ctx'
  unfold status?
  cases hout : evaluate rt policyId version rules ctx with
  | error failure =>
      rw [hout] at hread
      have hunread : Unreadable rt rules ctx := by
        by_contra hnot
        obtain ⟨out, h⟩ := hread.mpr hnot
        simp at h
      cases hout' : evaluate rt policyId version rules ctx' with
      | error failure' =>
          rw [hout'] at hread'
          have hunread' : Unreadable rt rules ctx' := by
            by_contra hnot
            obtain ⟨out, h⟩ := hread'.mpr hnot
            simp at h
          simp [hunread, hunread', Except.toOption]
      | ok out' =>
          have hread'' := hread'.mp ⟨out', hout'⟩
          simp [hunread, hread'', Except.toOption]
  | ok out =>
      have hreadable := hread.mp ⟨out, hout⟩
      cases hout' : evaluate rt policyId version rules ctx' with
      | error failure' =>
          rw [hout'] at hread'
          have hunread' : Unreadable rt rules ctx' := by
            by_contra hnot
            obtain ⟨out, h⟩ := hread'.mpr hnot
            simp at h
          simp [hreadable, hunread', Except.toOption]
      | ok out' =>
          have hreadable' := hread'.mp ⟨out', hout'⟩
          have hfail := evaluate_fail_iff hout
          have hfail' := evaluate_fail_iff hout'
          have hpass := evaluate_status_pass_iff hout
          have hpass' := evaluate_status_pass_iff hout'
          simp only [Except.toOption, Option.map_some, Option.some.injEq,
            hreadable, hreadable', false_or, true_and]
          generalize (∃ rule ∈ rules, rule.active = true ∧
            Violated rt ctx rule) = refused at *
          generalize (∃ rule ∈ rules, rule.active = true ∧
            Violated rt ctx' rule) = refused' at *
          generalize (∃ rule ∈ rules, rule.active = true ∧
            Asking rt ctx rule) = asked at *
          generalize (∃ rule ∈ rules, rule.active = true ∧
            Asking rt ctx' rule) = asked' at *
          cases hstatus : out.status <;> cases hstatus' : out'.status <;>
            simp only [hstatus, hstatus', reduceCtorEq, false_iff, true_iff]
              at hfail hfail' hpass hpass' ⊢ <;> tauto

/-! ## The rules that read the recipient -/

/-- A rule that does not read the recipient judges every spelling alike. -/
theorem evaluators_spelled {rt : Runtime} {rule : CompiledRule}
    (hreads : ¬ ReadsRecipient rule) (ctx : EvaluationContext)
    (recipient : String) :
    evaluators rule.type rt rule (spelled ctx recipient) =
      evaluators rule.type rt rule ctx := by
  cases htype : rule.type with
  | recipientAllowlist => exact absurd (Or.inl htype) hreads
  | recipientBlocklist => exact absurd (Or.inr (Or.inl htype)) hreads
  | newRecipientApproval =>
      exact absurd (Or.inr (Or.inr (Or.inl htype))) hreads
  | cumulativeLimit =>
      have hwindow : rule.setting "window" ≠
          .ok (some (.string "recipient")) :=
        fun h => hreads (Or.inr (Or.inr (Or.inr ⟨htype, h⟩)))
      simp only [evaluators, cumulativeLimit]
      cases hsetting : rule.setting "window" with
      | error failure => rfl
      | ok window =>
          have hspent : spentBefore rt (window.getD .null)
              (spelled ctx recipient) =
                spentBefore rt (window.getD .null) ctx := by
            rw [hsetting] at hwindow
            unfold spentBefore
            split
            next h =>
              cases window with
              | none => simp at h
              | some value =>
                  rw [Option.getD_some] at h
                  rw [h] at hwindow
                  exact absurd rfl hwindow
            all_goals rfl
          simp only [Fallible.result_ok_bind, hspent]
          rfl
  | _ => rfl

theorem violated_allowlist_iff {rt : Runtime} {rule : CompiledRule}
    {ctx : EvaluationContext} {recipient : String}
    (htype : rule.type = .recipientAllowlist) (hne : recipient ≠ "")
    (hreadable : ∃ verdict, evaluators rule.type rt rule
      (spelled ctx recipient) = .ok verdict) :
    Violated rt (spelled ctx recipient) rule ↔
      recipient ∉ recipientEntries rule := by
  obtain ⟨verdict, hverdict⟩ := hreadable
  have hrule : Violated rt (spelled ctx recipient) rule ↔
      verdict.result = .violation := by
    constructor
    · rintro ⟨found, hfound, hviolation⟩
      rw [hverdict, Except.ok.injEq] at hfound
      rwa [hfound]
    · exact fun hviolation => ⟨verdict, hverdict, hviolation⟩
  rw [hrule]
  rw [htype] at hverdict
  simp only [evaluators, recipientAllowlist, AllowList.evaluate] at hverdict
  unfold recipientEntries
  cases hsetting : rule.setting "recipients" with
  | error failure =>
      rw [hsetting] at hverdict
      simp at hverdict
  | ok setting =>
      rw [hsetting, Fallible.result_ok_bind] at hverdict
      simp only [spelled, hne, if_false] at hverdict
      split at hverdict
      next hmem =>
        rw [Fallible.result_pure, Except.ok.injEq] at hverdict
        rw [← hverdict]
        simp [passed, List.contains_iff_mem.mp hmem]
      next hmem =>
        rw [Fallible.result_pure, Except.ok.injEq] at hverdict
        rw [List.contains_iff_mem] at hmem
        rw [← hverdict]
        simp [violated, hmem]

theorem violated_blocklist_iff {rt : Runtime} {rule : CompiledRule}
    {ctx : EvaluationContext} {recipient : String}
    (htype : rule.type = .recipientBlocklist) (hne : recipient ≠ "")
    (hreadable : ∃ verdict, evaluators rule.type rt rule
      (spelled ctx recipient) = .ok verdict) :
    Violated rt (spelled ctx recipient) rule ↔
      recipient ∈ recipientEntries rule := by
  obtain ⟨verdict, hverdict⟩ := hreadable
  have hrule : Violated rt (spelled ctx recipient) rule ↔
      verdict.result = .violation := by
    constructor
    · rintro ⟨found, hfound, hviolation⟩
      rw [hverdict, Except.ok.injEq] at hfound
      rwa [hfound]
    · exact fun hviolation => ⟨verdict, hverdict, hviolation⟩
  rw [hrule]
  rw [htype] at hverdict
  simp only [evaluators, recipientBlocklist, BlockList.evaluate] at hverdict
  unfold recipientEntries
  cases hsetting : rule.setting "recipients" with
  | error failure =>
      rw [hsetting] at hverdict
      simp at hverdict
  | ok setting =>
      rw [hsetting, Fallible.result_ok_bind] at hverdict
      simp only [spelled, hne, false_or] at hverdict
      split at hverdict
      next hmem =>
        rw [Fallible.result_pure, Except.ok.injEq] at hverdict
        rw [List.contains_iff_mem] at hmem
        rw [← hverdict]
        simp [passed, hmem]
      next hmem =>
        rw [Fallible.result_pure, Except.ok.injEq] at hverdict
        rw [not_not, List.contains_iff_mem] at hmem
        rw [← hverdict]
        simp [violated, hmem]

theorem newRecipient_verdict {rt : Runtime} {rule : CompiledRule}
    {ctx : EvaluationContext} {recipient : String} (hne : recipient ≠ "") :
    ∃ verdict, newRecipientApproval rt rule (spelled ctx recipient) =
        .ok verdict ∧ verdict.result ≠ .violation ∧
      (RuleResult.Required verdict.result ↔
        recipient ∉ ctx.knownRecipients.getD []) := by
  simp only [newRecipientApproval, spelled, hne, if_false]
  by_cases hmem : recipient ∈ ctx.knownRecipients.getD []
  · refine ⟨passed, by simp [hmem], by simp [passed], ?_⟩
    simp [passed, RuleResult.Required, hmem]
  · refine ⟨⟨.requireApproval, some "New recipient requires human approval.",
      some "transaction.recipient", some recipient, none, some .medium⟩,
      by simp [hmem], by simp, ?_⟩
    simp [RuleResult.Required, hmem]

/-! ## What tells two spellings apart -/

/-- A rule that does not read the recipient is violated. -/
def OtherwiseViolated (rt : Runtime) (rules : List CompiledRule)
    (ctx : EvaluationContext) : Prop :=
  ∃ rule ∈ rules, rule.active = true ∧ ¬ ReadsRecipient rule ∧
    Violated rt ctx rule

/-- The text is missing from an allow list, stands on a block list, or its
own limit is exceeded. -/
def Blocked (rt : Runtime) (rules : List CompiledRule)
    (ctx : EvaluationContext) (recipient : String) : Prop :=
  ∃ rule ∈ rules, rule.active = true ∧
    ((rule.type = .recipientAllowlist ∧
        recipient ∉ recipientEntries rule) ∨
      (rule.type = .recipientBlocklist ∧
        recipient ∈ recipientEntries rule) ∨
      (PerRecipient rule ∧ Violated rt (spelled ctx recipient) rule))

/-- A human is asked about every action. -/
def HumanAsked (rules : List CompiledRule) : Prop :=
  ∃ rule ∈ rules, rule.active = true ∧ rule.type = .humanApproval

/-- A human is asked about new recipients, and the text is none of the known
ones. -/
def Unfamiliar (rules : List CompiledRule) (ctx : EvaluationContext)
    (recipient : String) : Prop :=
  ∃ rule ∈ rules, rule.active = true ∧ rule.type = .newRecipientApproval ∧
    recipient ∉ ctx.knownRecipients.getD []

theorem readable_rule {rt : Runtime} {rules : List CompiledRule}
    {ctx : EvaluationContext} (hreadable : ¬ Unreadable rt rules ctx)
    {rule : CompiledRule} (hrule : rule ∈ rules)
    (hactive : rule.active = true) :
    ∃ verdict, evaluators rule.type rt rule ctx = .ok verdict := by
  cases heval : evaluators rule.type rt rule ctx with
  | ok verdict => exact ⟨verdict, rfl⟩
  | error failure =>
      exact absurd ⟨rule, hrule, hactive, failure, heval⟩ hreadable

/-- Something is violated when a rule that does not read the recipient is,
or when the spelling is blocked. -/
theorem exists_violated_iff {rt : Runtime} {rules : List CompiledRule}
    {ctx : EvaluationContext} {recipient : String} (hne : recipient ≠ "")
    (hreadable : ¬ Unreadable rt rules (spelled ctx recipient)) :
    (∃ rule ∈ rules, rule.active = true ∧
        Violated rt (spelled ctx recipient) rule) ↔
      OtherwiseViolated rt rules ctx ∨ Blocked rt rules ctx recipient := by
  constructor
  · rintro ⟨rule, hrule, hactive, hviolated⟩
    have hread := readable_rule hreadable hrule hactive
    by_cases hreads : ReadsRecipient rule
    · right
      refine ⟨rule, hrule, hactive, ?_⟩
      rcases hreads with htype | htype | htype | hper
      · exact Or.inl
          ⟨htype, (violated_allowlist_iff htype hne hread).mp hviolated⟩
      · exact Or.inr (Or.inl
          ⟨htype, (violated_blocklist_iff htype hne hread).mp hviolated⟩)
      · obtain ⟨verdict, hverdict, hviolation⟩ := hviolated
        obtain ⟨found, hfound, hnever, -⟩ :=
          @newRecipient_verdict rt rule ctx recipient hne
        rw [htype] at hverdict
        have hsame : found = verdict :=
          Except.ok.inj (hfound.symm.trans hverdict)
        rw [hsame] at hnever
        exact absurd hviolation hnever
      · exact Or.inr (Or.inr ⟨hper, hviolated⟩)
    · left
      obtain ⟨verdict, hverdict, hviolation⟩ := hviolated
      rw [evaluators_spelled hreads] at hverdict
      exact ⟨rule, hrule, hactive, hreads, verdict, hverdict, hviolation⟩
  · rintro (⟨rule, hrule, hactive, hreads, verdict, hverdict, hviolation⟩ |
      ⟨rule, hrule, hactive, hblocked⟩)
    · refine ⟨rule, hrule, hactive, verdict, ?_, hviolation⟩
      rw [evaluators_spelled hreads]
      exact hverdict
    · have hread := readable_rule hreadable hrule hactive
      refine ⟨rule, hrule, hactive, ?_⟩
      rcases hblocked with ⟨htype, hmem⟩ | ⟨htype, hmem⟩ | ⟨-, hviolated⟩
      · exact (violated_allowlist_iff htype hne hread).mpr hmem
      · exact (violated_blocklist_iff htype hne hread).mpr hmem
      · exact hviolated

/-- Something asks when a human is asked about every action, or about new
recipients and the spelling is not known. -/
theorem exists_asking_iff {rt : Runtime} {rules : List CompiledRule}
    {ctx : EvaluationContext} {recipient : String} (hne : recipient ≠ "") :
    (∃ rule ∈ rules, rule.active = true ∧
        Asking rt (spelled ctx recipient) rule) ↔
      HumanAsked rules ∨ Unfamiliar rules ctx recipient := by
  constructor
  · rintro ⟨rule, hrule, hactive, verdict, hverdict, hasks⟩
    rcases asks_type hverdict hasks with htype | htype
    · exact Or.inl ⟨rule, hrule, hactive, htype⟩
    · right
      obtain ⟨found, hfound, -, hrequired⟩ :=
        @newRecipient_verdict rt rule ctx recipient hne
      rw [htype] at hverdict
      have hsame : found = verdict :=
        Except.ok.inj (hfound.symm.trans hverdict)
      rw [hsame] at hrequired
      exact ⟨rule, hrule, hactive, htype, hrequired.mp hasks⟩
  · rintro (⟨rule, hrule, hactive, htype⟩ |
      ⟨rule, hrule, hactive, htype, hmem⟩)
    · refine ⟨rule, hrule, hactive, ?_⟩
      unfold Asking
      rw [htype]
      exact ⟨_, rfl, Or.inl rfl⟩
    · obtain ⟨found, hfound, -, hrequired⟩ :=
        @newRecipient_verdict rt rule ctx recipient hne
      refine ⟨rule, hrule, hactive, found, ?_, hrequired.mpr hmem⟩
      rw [htype]
      exact hfound

/-- Two spellings are treated alike: both make the rules unreadable, or a
rule that does not read the recipient is violated anyway, or the one is
blocked when the other is and, unless both are blocked or a human is asked
anyway, the one is familiar when the other is. -/
def TreatedAlike (rt : Runtime) (rules : List CompiledRule)
    (ctx : EvaluationContext) (one other : String) : Prop :=
  (Unreadable rt rules (spelled ctx one) ↔
      Unreadable rt rules (spelled ctx other)) ∧
    (Unreadable rt rules (spelled ctx one) ∨
      OtherwiseViolated rt rules ctx ∨
      ((Blocked rt rules ctx one ↔ Blocked rt rules ctx other) ∧
        (Blocked rt rules ctx one ∨ HumanAsked rules ∨
          (Unfamiliar rules ctx one ↔ Unfamiliar rules ctx other))))

/-- Two spellings are given the same status exactly when they are treated
alike. -/
theorem same_status_iff {rt : Runtime} {policyId : String} {version : ℕ}
    {rules : List CompiledRule} {ctx : EvaluationContext}
    {one other : String} (hone : one ≠ "") (hother : other ≠ "") :
    status? rt policyId version rules (spelled ctx one) =
        status? rt policyId version rules (spelled ctx other) ↔
      TreatedAlike rt rules ctx one other := by
  rw [status_eq_iff, exists_asking_iff hone, exists_asking_iff hother]
  unfold TreatedAlike
  by_cases hunread : Unreadable rt rules (spelled ctx one)
  · simp [hunread]
  · by_cases hunread' : Unreadable rt rules (spelled ctx other)
    · simp [hunread, hunread']
    · rw [exists_violated_iff hone hunread,
        exists_violated_iff hother hunread']
      simp only [hunread, hunread', false_or, true_and]
      tauto

/-- A rule that admits the recipient does not have it on its block list. -/
theorem not_mem_of_admits {rt : Runtime} {rule : CompiledRule}
    {ctx : EvaluationContext} {recipient : String}
    (htype : rule.type = .recipientBlocklist) (hne : recipient ≠ "")
    (hrecipient : ctx.transaction.recipient = some recipient)
    (hadmits : Admits rt ctx rule) : recipient ∉ recipientEntries rule := by
  have hctx : spelled ctx recipient = ctx := by
    simp [spelled, ← hrecipient]
  obtain ⟨verdict, hverdict, hresult⟩ := hadmits
  rw [← hctx] at hverdict
  rw [← violated_blocklist_iff htype hne ⟨verdict, hverdict⟩]
  rintro ⟨found, hfound, hviolation⟩
  rw [hverdict, Except.ok.injEq] at hfound
  subst hfound
  exact ((result_admits_iff _).mpr hresult).1 hviolation

end PolicyEngine
end Orvex
