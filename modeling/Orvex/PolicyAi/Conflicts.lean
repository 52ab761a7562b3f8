import Mathlib.Data.List.Dedup
import Orvex.PolicyAi.Normalizer

/-!
# Conflicts between candidate rules

The detector groups the rules by a text made of their type, their category
and their field, and reports each group whose actions contradict each other.
Two rules contradict each other when both are enabled, apply to a common
category and demand contradictory actions.
-/

namespace Orvex
namespace PolicyAi

structure PolicyConflict where
  ruleIds : List String
  reason : String

/-! ## The detector -/

/-- The pairs of contradictory actions. -/
def contradictory : List (RequiredAction × RequiredAction) :=
  [(.allow, .deny), (.allow, .requireApproval), (.allow, .review)]

/-- `cond.get("category") or cond.get("categories")`. -/
def category (rule : PolicyRule) : PyValue :=
  (rule.condition.get "category").orElse (rule.condition.get "categories")

def fieldText (rule : PolicyRule) : String := rule.constraint.field.getD ""

def targetKey (py : Python) (rule : PolicyRule) : String :=
  rule.type.text ++ ":" ++ py.str (category rule) ++ ":" ++ fieldText rule

/-- The targets in the order in which they first occur. -/
def targets (py : Python) (rules : List PolicyRule) : List String :=
  (rules.map (targetKey py)).eraseDups

def groupOf (py : Python) (rules : List PolicyRule) (target : String) :
    List PolicyRule :=
  rules.filter (fun rule => targetKey py rule = target)

/-- Some rule of the group demands the action. -/
def demands (group : List PolicyRule) (action : RequiredAction) : Bool :=
  group.any (fun rule => rule.requiredAction = action)

/-- `sorted(actions)`, as a text. -/
def actionsText (group : List PolicyRule) : String :=
  "[" ++ ", ".intercalate ((RequiredAction.all.filter (demands group)).map
    (fun action => "'" ++ action.text ++ "'")) ++ "]"

def groupConflict (target : String) (group : List PolicyRule) :
    Option PolicyConflict :=
  if group.length < 2 then none
  else if contradictory.any (fun pair =>
      demands group pair.1 && demands group pair.2) then
    some ⟨group.map PolicyRule.ruleId,
      "Rules for target '" ++ target ++
        "' specify contradictory actions " ++ actionsText group ++ "."⟩
  else none

def detectConflicts (py : Python) (rules : List PolicyRule) :
    List PolicyConflict :=
  (targets py rules).filterMap (fun target =>
    groupConflict target (groupOf py rules target))

/-! ## Contradictions -/

/-- The categories that a rule names; without a category it applies to
every one. -/
def scope (rule : PolicyRule) : Option (List PyValue) :=
  match category rule with
  | .list items => if items.isEmpty then none else some items
  | value => if value.truthy then some [value] else none

/-- Some category is in both scopes. -/
def Overlap (r s : PolicyRule) : Prop :=
  ∀ cats ∈ scope r, ∀ cats' ∈ scope s, ∃ c ∈ cats, c ∈ cats'

def ContradictoryActions (a b : RequiredAction) : Prop :=
  (a, b) ∈ contradictory ∨ (b, a) ∈ contradictory

/-- The rules contradict each other. -/
structure Contradict (r s : PolicyRule) : Prop where
  enabled : r.enabled = true ∧ s.enabled = true
  type : r.type = s.type
  field : fieldText r = fieldText s
  overlap : Overlap r s
  actions : ContradictoryActions r.requiredAction s.requiredAction

/-- The identifier belongs to a rule that contradicts another one. -/
def TakesPart (rules : List PolicyRule) (id : String) : Prop :=
  ∃ r ∈ rules, r.ruleId = id ∧ ∃ s ∈ rules, Contradict r s

/-- Two lists of conflicts report the same, whatever the order. -/
def SameConflicts (conflicts conflicts' : List PolicyConflict) : Prop :=
  ∀ conflict ∈ conflicts, ∃ conflict' ∈ conflicts',
    conflict'.ruleIds.Perm conflict.ruleIds ∧
      conflict'.reason = conflict.reason

/-- The detector reports conflicts exactly when rules contradict each other,
names only rules that take part in a contradiction, and does not look at the
order of the rules. -/
structure SoundAndComplete (py : Python) (rules : List PolicyRule) :
    Prop where
  reported_iff : detectConflicts py rules ≠ [] ↔
    ∃ r ∈ rules, ∃ s ∈ rules, Contradict r s
  named : ∀ conflict ∈ detectConflicts py rules, ∀ id ∈ conflict.ruleIds,
    TakesPart rules id
  unordered : ∀ rules', rules'.Perm rules →
    SameConflicts (detectConflicts py rules') (detectConflicts py rules)

/-! ## What the detector finds -/

variable {py : Python} {rules : List PolicyRule}

/-- Two rules of one target demand contradictory actions. -/
def Clash (py : Python) (rules : List PolicyRule) (target : String) : Prop :=
  ∃ r ∈ rules, ∃ s ∈ rules, targetKey py r = target ∧
    targetKey py s = target ∧
    ContradictoryActions r.requiredAction s.requiredAction

theorem demands_iff {group : List PolicyRule} {action : RequiredAction} :
    demands group action = true ↔
      ∃ rule ∈ group, rule.requiredAction = action := by
  simp [demands]

theorem mem_groupOf {target : String} {rule : PolicyRule} :
    rule ∈ groupOf py rules target ↔
      rule ∈ rules ∧ targetKey py rule = target := by
  simp [groupOf]

theorem mem_targets {target : String} :
    target ∈ targets py rules ↔ ∃ rule ∈ rules, targetKey py rule = target := by
  simp [targets, List.mem_eraseDups]

theorem contradictory_ne :
    ∀ pair ∈ contradictory, pair.1 ≠ pair.2 := by
  decide

theorem two_of_actions {group : List PolicyRule} {r s : PolicyRule}
    (hr : r ∈ group) (hs : s ∈ group)
    (hne : r.requiredAction ≠ s.requiredAction) : 2 ≤ group.length := by
  cases group with
  | nil => simp at hr
  | cons first rest =>
      cases rest with
      | nil =>
          rw [List.mem_singleton] at hr hs
          exact absurd (by rw [hr, hs]) hne
      | cons second others => simp

theorem any_contradictory_iff {group : List PolicyRule} :
    (contradictory.any (fun pair =>
      demands group pair.1 && demands group pair.2)) = true ↔
      ∃ r ∈ group, ∃ s ∈ group,
        ContradictoryActions r.requiredAction s.requiredAction := by
  rw [List.any_eq_true]
  constructor
  · intro h
    obtain ⟨pair, hpair, hboth⟩ := h
    rw [Bool.and_eq_true, demands_iff, demands_iff] at hboth
    obtain ⟨⟨r, hr, hfirst⟩, s, hs, hsecond⟩ := hboth
    exact ⟨r, hr, s, hs, Or.inl (by rw [hfirst, hsecond]; exact hpair)⟩
  · intro h
    obtain ⟨r, hr, s, hs, hactions⟩ := h
    rcases hactions with hpair | hpair
    · refine ⟨_, hpair, ?_⟩
      rw [Bool.and_eq_true, demands_iff, demands_iff]
      exact ⟨⟨r, hr, rfl⟩, s, hs, rfl⟩
    · refine ⟨_, hpair, ?_⟩
      rw [Bool.and_eq_true, demands_iff, demands_iff]
      exact ⟨⟨s, hs, rfl⟩, r, hr, rfl⟩

theorem ContradictoryActions.ne {a b : RequiredAction}
    (h : ContradictoryActions a b) : a ≠ b := by
  rcases h with hpair | hpair
  · exact contradictory_ne _ hpair
  · exact (contradictory_ne _ hpair).symm

/-- A group is reported exactly when its target clashes. -/
theorem groupConflict_iff {target : String} {conflict : PolicyConflict} :
    groupConflict target (groupOf py rules target) = some conflict ↔
      Clash py rules target ∧
        conflict =
          ⟨(groupOf py rules target).map PolicyRule.ruleId,
            "Rules for target '" ++ target ++
              "' specify contradictory actions " ++
                actionsText (groupOf py rules target) ++ "."⟩ := by
  have hclash : Clash py rules target ↔
      ∃ r ∈ groupOf py rules target, ∃ s ∈ groupOf py rules target,
        ContradictoryActions r.requiredAction s.requiredAction := by
    unfold Clash
    simp only [mem_groupOf]
    constructor
    · intro h
      obtain ⟨r, hr, s, hs, hkey, hkey', hactions⟩ := h
      exact ⟨r, ⟨hr, hkey⟩, s, ⟨hs, hkey'⟩, hactions⟩
    · intro h
      obtain ⟨r, ⟨hr, hkey⟩, s, ⟨hs, hkey'⟩, hactions⟩ := h
      exact ⟨r, hr, s, hs, hkey, hkey', hactions⟩
  rw [hclash, ← any_contradictory_iff]
  unfold groupConflict
  by_cases hany : (contradictory.any (fun pair =>
      demands (groupOf py rules target) pair.1 &&
        demands (groupOf py rules target) pair.2)) = true
  · obtain ⟨r, hr, s, hs, hactions⟩ := any_contradictory_iff.mp hany
    have hlength := two_of_actions hr hs hactions.ne
    rw [if_neg (by omega), if_pos hany, Option.some.injEq]
    simp [hany, eq_comm]
  · rw [if_neg hany]
    simp [hany]

theorem mem_detectConflicts {conflict : PolicyConflict} :
    conflict ∈ detectConflicts py rules ↔
      ∃ target, Clash py rules target ∧
        conflict =
          ⟨(groupOf py rules target).map PolicyRule.ruleId,
            "Rules for target '" ++ target ++
              "' specify contradictory actions " ++
                actionsText (groupOf py rules target) ++ "."⟩ := by
  unfold detectConflicts
  rw [List.mem_filterMap]
  constructor
  · intro h
    obtain ⟨target, -, hconflict⟩ := h
    exact ⟨target, groupConflict_iff.mp hconflict⟩
  · intro h
    obtain ⟨target, hclash, hconflict⟩ := h
    refine ⟨target, ?_, groupConflict_iff.mpr ⟨hclash, hconflict⟩⟩
    obtain ⟨r, hr, -, -, hkey, -⟩ := hclash
    exact mem_targets.mpr ⟨r, hr, hkey⟩

theorem detectConflicts_ne_nil :
    detectConflicts py rules ≠ [] ↔ ∃ target, Clash py rules target := by
  rw [ne_eq, List.eq_nil_iff_forall_not_mem]
  push Not
  simp only [mem_detectConflicts]
  constructor
  · intro h
    obtain ⟨conflict, target, hclash, -⟩ := h
    exact ⟨target, hclash⟩
  · intro h
    obtain ⟨target, hclash⟩ := h
    exact ⟨_, target, hclash, rfl⟩

/-- The conflicts do not depend on the order of the rules. -/
theorem sameConflicts_of_perm {rules' : List PolicyRule}
    (hperm : rules'.Perm rules) :
    SameConflicts (detectConflicts py rules') (detectConflicts py rules) := by
  intro conflict hmem
  obtain ⟨target, hclash, hconflict⟩ := mem_detectConflicts.mp hmem
  have hgroup : (groupOf py rules target).Perm (groupOf py rules' target) :=
    (hperm.symm).filter _
  have hdemands : demands (groupOf py rules target) =
      demands (groupOf py rules' target) := by
    funext action
    rw [Bool.eq_iff_iff, demands_iff, demands_iff]
    simp only [hgroup.mem_iff]
  have hactions : actionsText (groupOf py rules target) =
      actionsText (groupOf py rules' target) := by
    unfold actionsText
    rw [hdemands]
  have hsame : Clash py rules target := by
    obtain ⟨r, hr, s, hs, hclash⟩ := hclash
    exact ⟨r, hperm.mem_iff.mp hr, s, hperm.mem_iff.mp hs, hclash⟩
  refine ⟨_, mem_detectConflicts.mpr ⟨target, hsame, rfl⟩, ?_, ?_⟩
  · rw [hconflict]
    exact hgroup.map _
  · rw [hconflict, hactions]

/-! ## When the detector is right -/

/-- Contradictory rules leave some target with contradictory actions, and
every rule of such a target takes part in a contradiction. -/
structure TargetsFit (py : Python) (rules : List PolicyRule) : Prop where
  clash : ∀ r ∈ rules, ∀ s ∈ rules, Contradict r s →
    ∃ target, Clash py rules target
  takesPart : ∀ r ∈ rules, Clash py rules (targetKey py r) →
    TakesPart rules r.ruleId

/-- The detector is sound and complete exactly when the targets fit. -/
theorem soundAndComplete_iff (py : Python) (rules : List PolicyRule) :
    SoundAndComplete py rules ↔ TargetsFit py rules := by
  constructor
  · intro hright
    constructor
    · intro r hr s hs hcontradict
      exact detectConflicts_ne_nil.mp
        (hright.reported_iff.mpr ⟨r, hr, s, hs, hcontradict⟩)
    · intro r hr hclash
      apply hright.named _ (mem_detectConflicts.mpr ⟨_, hclash, rfl⟩)
      exact List.mem_map.mpr ⟨r, mem_groupOf.mpr ⟨hr, rfl⟩, rfl⟩
  · intro hfit
    constructor
    · rw [detectConflicts_ne_nil]
      constructor
      · intro h
        obtain ⟨target, hclash⟩ := h
        have hmember := hclash
        obtain ⟨r, hr, -, -, hkey, -⟩ := hmember
        obtain ⟨r', hr', -, s, hs, hcontradict⟩ :=
          hfit.takesPart r hr (hkey ▸ hclash)
        exact ⟨r', hr', s, hs, hcontradict⟩
      · intro h
        obtain ⟨r, hr, s, hs, hcontradict⟩ := h
        exact hfit.clash r hr s hs hcontradict
    · intro conflict hmem id hid
      obtain ⟨target, hclash, hconflict⟩ := mem_detectConflicts.mp hmem
      rw [hconflict] at hid
      obtain ⟨r, hr, hrule⟩ := List.mem_map.mp hid
      obtain ⟨hin, hkey⟩ := mem_groupOf.mp hr
      rw [← hrule]
      exact hfit.takesPart r hin (hkey.symm ▸ hclash)
    · intro rules' hperm
      exact sameConflicts_of_perm hperm

/-! ## A conflict that is missed and one that is none -/

/-- The library on the values of the rules below. -/
def rulePython : Python where
  str := fun value =>
    match value with
    | .str s => s
    | .list [.str s] => "['" ++ s ++ "']"
    | _ => "None"
  upper := fun s => s
  lower := fun s => s
  strip := fun s => s
  decimal := fun _ => none
  floatOfInt := fun n => some (.finite n)
  floatOfStr := fun _ => none
  int := fun _ => none
  ge := fun _ _ => none

/-- A rule about human approval. -/
def approvalRule (ruleId : String) (condition : PyDict)
    (action : RequiredAction) (enabled : Bool) : PolicyRule where
  ruleId := ruleId
  type := .humanApproval
  condition := condition
  constraint := ⟨none, none, .none, none⟩
  requiredAction := action
  priority := 100
  enabled := enabled

/-- Invoices are allowed under one spelling of the category and denied under
the other. -/
def invoiceRules : List PolicyRule :=
  [approvalRule "allow" [("category", .str "invoice")] .allow true,
    approvalRule "deny" [("categories", .list [.str "invoice"])] .deny true]

/-- The rule that allows invoices is switched off. -/
def switchedOffRules : List PolicyRule :=
  [approvalRule "allow" [("category", .str "invoice")] .allow false,
    approvalRule "deny" [("category", .str "invoice")] .deny true]

theorem missed_and_spurious_conflicts :
    ((∃ r ∈ invoiceRules, ∃ s ∈ invoiceRules, Contradict r s) ∧
      (detectConflicts rulePython invoiceRules).map PolicyConflict.ruleIds =
        []) ∧
    ((detectConflicts rulePython switchedOffRules).map
        PolicyConflict.ruleIds = [["allow", "deny"]] ∧
      ¬ TakesPart switchedOffRules "allow") := by
  refine ⟨⟨?_, by decide⟩, by decide, ?_⟩
  · refine ⟨_, List.mem_cons_self, _,
      List.mem_cons_of_mem _ List.mem_cons_self, ⟨rfl, rfl⟩, rfl, rfl, ?_,
      Or.inl (by decide)⟩
    intro cats hcats cats' hcats'
    have hfirst : cats = [.str "invoice"] := (Option.some.inj hcats).symm
    have hsecond : cats' = [.str "invoice"] := (Option.some.inj hcats').symm
    rw [hfirst, hsecond]
    exact ⟨_, List.mem_cons_self, List.mem_cons_self⟩
  · intro htakes
    obtain ⟨r, hr, hid, s, -, hcontradict⟩ := htakes
    have henabled := hcontradict.enabled.1
    rcases List.mem_cons.mp hr with hfirst | hrest
    · rw [hfirst] at henabled
      cases henabled
    · rw [List.mem_singleton.mp hrest] at hid
      exact absurd hid (by decide)

end PolicyAi
end Orvex
