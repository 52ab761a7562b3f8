import Orvex.Core.Reference
import Orvex.Foundation.Sorting
import Orvex.Policy.Engine

/-!
# The order of the rules

Rules are sorted by priority and then by id.  Where the ids are distinct and
the locale orders them, the sorted list does not depend on the order in which
the rules are stored, and neither does anything that is computed from it.
-/

namespace Orvex

/-! ## Distinct ids -/

theorem validateRule_ok {rt : Runtime} {seen : List Json}
    {rule : CompiledRule} {id : Json}
    (h : validateRule rt seen rule.toJson = .ok id) :
    id = .string rule.ruleId ∧ .string rule.ruleId ∉ seen := by
  have hid : fieldOf "rule_id" rule.toJson = some (.string rule.ruleId) := rfl
  have hobject : ∃ fields, rule.toJson = .object fields := ⟨_, rfl⟩
  obtain ⟨fields, hfields⟩ := hobject
  unfold validateRule at h
  rw [hfields] at h hid
  simp only [hid] at h
  split at h
  · have hfresh : seen.any (sameMember (.string rule.ruleId)) = false := by
      by_contra hseen
      rw [Bool.not_eq_false] at hseen
      simp [bind, Except.bind, pure, Except.pure, hseen, throw,
        throwThe, MonadExceptOf.throw] at h
    constructor
    · simp only [bind, Except.bind, pure, Except.pure, hfresh] at h
      cases htype : ruleTypeOf (fieldOf "type" (.object fields)) with
      | none => simp [htype, throw, throwThe, MonadExceptOf.throw] at h
      | some type => simpa [htype] using h.symm
    · intro hmem
      have hnot := List.any_eq_false.mp hfresh _ hmem
      exact hnot (by simp [sameMember])
  · simp [bind, Except.bind, throw, throwThe, MonadExceptOf.throw] at h

theorem validateRules_ok {rt : Runtime} {seen : List Json}
    {rules : List CompiledRule}
    (h : validateRules rt seen (rules.map CompiledRule.toJson) = .ok ()) :
    (rules.map CompiledRule.ruleId).Nodup ∧
      ∀ rule ∈ rules, .string rule.ruleId ∉ seen := by
  induction rules generalizing seen with
  | nil => simp
  | cons rule rest ih =>
      rw [List.map_cons, validateRules, Fallible.result_bind_eq_ok] at h
      obtain ⟨id, hrule, hrest⟩ := h
      obtain ⟨hid, hfresh⟩ := validateRule_ok hrule
      obtain ⟨hnodup, hlater⟩ := ih hrest
      constructor
      · rw [List.map_cons, List.nodup_cons]
        refine ⟨?_, hnodup⟩
        intro hmem
        obtain ⟨other, hother, hsame⟩ := List.mem_map.mp hmem
        have hnot := hlater other hother
        rw [hid, ← hsame] at hnot
        exact hnot List.mem_cons_self
      · intro other hother
        rcases List.mem_cons.mp hother with hhead | htail
        · rw [hhead]
          exact hfresh
        · intro hseen
          exact hlater other htail (List.mem_cons_of_mem _ hseen)

/-- The rules of an accepted list have distinct ids. -/
theorem nodup_of_accepted {rt : Runtime} {rules : List CompiledRule}
    (h : validateCompiledRules rt (rulesJson rules) = .ok ()) :
    (rules.map CompiledRule.ruleId).Nodup :=
  (validateRules_ok h).1

/-! ## The order of evaluation -/

/-- The locale is a strict total order on the texts. -/
structure Runtime.OrdersTexts (rt : Runtime) (texts : List String) : Prop where
  equal : ∀ s ∈ texts, ∀ t ∈ texts, rt.localeCompare s t = .eq ↔ s = t
  swap : ∀ s ∈ texts, ∀ t ∈ texts,
    rt.localeCompare t s = (rt.localeCompare s t).swap
  trans : ∀ s ∈ texts, ∀ t ∈ texts, ∀ u ∈ texts,
    rt.localeCompare s t = .lt → rt.localeCompare t u = .lt →
      rt.localeCompare s u = .lt

theorem Runtime.OrdersTexts.not_gt_trans {rt : Runtime} {texts : List String}
    (h : rt.OrdersTexts texts) {s t u : String} (hs : s ∈ texts)
    (ht : t ∈ texts) (hu : u ∈ texts) (hst : rt.localeCompare s t ≠ .gt)
    (htu : rt.localeCompare t u ≠ .gt) : rt.localeCompare s u ≠ .gt := by
  cases hfirst : rt.localeCompare s t with
  | gt => exact absurd hfirst hst
  | eq =>
      rw [(h.equal s hs t ht).mp hfirst]
      exact htu
  | lt =>
      cases hsecond : rt.localeCompare t u with
      | gt => exact absurd hsecond htu
      | eq =>
          rw [← (h.equal t ht u hu).mp hsecond]
          exact hst
      | lt =>
          rw [h.trans s hs t ht u hu hfirst hsecond]
          simp

namespace PolicyEngine

def priorityOf (rule : CompiledRule) : ℚ := rule.priority.getD 100

theorem ruleLe_iff {rt : Runtime} {a b : CompiledRule} :
    ruleLe rt a b = true ↔
      priorityOf a < priorityOf b ∨ priorityOf a = priorityOf b ∧
        rt.localeCompare a.ruleId b.ruleId ≠ .gt := by
  unfold ruleLe
  change (if priorityOf a - priorityOf b ≠ 0 then _ else _) = true ↔ _
  by_cases hsame : priorityOf a = priorityOf b
  · simp [hsame]
  · have hdifference : priorityOf a - priorityOf b ≠ 0 :=
      sub_ne_zero.mpr hsame
    rw [if_pos hdifference]
    change decide (priorityOf a - priorityOf b < 0) = true ↔ _
    simp [hsame, sub_neg]

variable {rt : Runtime} {rules rules' : List CompiledRule}

theorem ordersMembers_rules
    (hnodup : (rules.map CompiledRule.ruleId).Nodup)
    (horder : rt.OrdersTexts (rules.map CompiledRule.ruleId)) :
    Sorting.OrdersMembers (fun a b => ruleLe rt a b = true) rules := by
  have hid : ∀ rule ∈ rules, rule.ruleId ∈ rules.map CompiledRule.ruleId :=
    fun rule hrule => List.mem_map_of_mem hrule
  constructor
  · intro a ha b hb
    rw [ruleLe_iff, ruleLe_iff]
    rcases lt_trichotomy (priorityOf a) (priorityOf b) with hlt | heq | hgt
    · exact Or.inl (Or.inl hlt)
    · have hswap := horder.swap _ (hid a ha) _ (hid b hb)
      cases hcompare : rt.localeCompare a.ruleId b.ruleId with
      | gt =>
          right; right
          refine ⟨heq.symm, ?_⟩
          rw [hswap, hcompare]
          simp
      | eq => exact Or.inl (Or.inr ⟨heq, by simp⟩)
      | lt => exact Or.inl (Or.inr ⟨heq, by simp⟩)
    · exact Or.inr (Or.inl hgt)
  · intro a ha b hb c hc hab hbc
    rw [ruleLe_iff] at hab hbc ⊢
    rcases hab with hab | ⟨hab, hfirst⟩
    · rcases hbc with hbc | ⟨hbc, _⟩
      · exact Or.inl (hab.trans hbc)
      · exact Or.inl (hbc ▸ hab)
    · rcases hbc with hbc | ⟨hbc, hsecond⟩
      · exact Or.inl (hab ▸ hbc)
      · exact Or.inr ⟨hab.trans hbc, horder.not_gt_trans (hid a ha)
          (hid b hb) (hid c hc) hfirst hsecond⟩
  · intro a ha b hb hab hba
    rw [ruleLe_iff] at hab hba
    have hswap := horder.swap _ (hid a ha) _ (hid b hb)
    have hsame : rt.localeCompare a.ruleId b.ruleId = .eq := by
      rcases hab with hab | ⟨hab, hfirst⟩
      · rcases hba with hba | ⟨hba, _⟩
        · exact absurd hba hab.asymm
        · exact absurd hba hab.ne'
      · rcases hba with hba | ⟨_, hsecond⟩
        · exact absurd hab hba.ne'
        · rw [hswap] at hsecond
          cases hcompare : rt.localeCompare a.ruleId b.ruleId <;>
            simp_all
    have hids := (horder.equal _ (hid a ha) _ (hid b hb)).mp hsame
    exact List.inj_on_of_nodup_map hnodup ha hb hids

/-- The enabled rules in order of evaluation are the same for every order in
which the rules are stored. -/
theorem enabledRules_eq_of_perm
    (hnodup : (rules.map CompiledRule.ruleId).Nodup)
    (horder : rt.OrdersTexts (rules.map CompiledRule.ruleId))
    (hperm : rules.Perm rules') :
    enabledRules rt rules = enabledRules rt rules' := by
  have horders := ordersMembers_rules hnodup horder
  unfold enabledRules
  exact (horders.subset List.filter_sublist.subset).insertionSort_eq
    (hperm.filter _)

/-- The order in which accepted rules are stored changes nothing in what the
evaluation returns. -/
theorem rule_order_irrelevant
    (haccepted : validateCompiledRules rt (rulesJson rules) = .ok ())
    (horder : rt.OrdersTexts (rules.map CompiledRule.ruleId))
    (hperm : rules.Perm rules') (policyId : String) (version : ℕ)
    (ctx : EvaluationContext) :
    evaluate rt policyId version rules' ctx =
      evaluate rt policyId version rules ctx := by
  have hsame := enabledRules_eq_of_perm (nodup_of_accepted haccepted) horder
    hperm
  unfold evaluate
  rw [hsame]

/-- A rule of priority 10 and two rules without a priority. -/
def sampleRules : List CompiledRule :=
  [⟨"blocked", .recipientBlocklist, none, none,
      some (.object [("recipients", .array [.string "0xmallory"])]), []⟩,
    ⟨"approval", .humanApproval, none, some true, some (.object []), []⟩,
    ⟨"limit", .amountLimit, some 10, none,
      some (.object [("maximum", .string "100")]), []⟩]

theorem sample_order_irrelevant :
    sampleRules.reverse.map CompiledRule.ruleId =
        ["limit", "approval", "blocked"] ∧
      ∀ ctx, evaluate .reference "policy-1" 1 sampleRules.reverse ctx =
        evaluate .reference "policy-1" 1 sampleRules ctx := by
  refine ⟨rfl, fun ctx => ?_⟩
  apply rule_order_irrelevant
  · decide
  · constructor <;> decide
  · exact (List.reverse_perm sampleRules).symm

end PolicyEngine
end Orvex
