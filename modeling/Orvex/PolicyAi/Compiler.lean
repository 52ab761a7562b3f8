import Orvex.Agents.Clarification
import Orvex.Models.Repairs
import Orvex.PolicyAi.Conflicts

/-!
# The policy compiler

A model extracts rules from a policy text.  The compiler normalizes them and
looks for vague language, for limits without a value and for contradictions.
Only a text with none of these compiles.
-/

namespace Orvex
namespace PolicyAi

open ProviderRouter (Router GenerationRequest ModelResponse RouterError
  generateStructured)

structure PolicyAmbiguity where
  clause : String
  reason : String
  deriving DecidableEq

/-- What the compiler uses of the library besides. -/
structure CompilerPython extends Python where
  /-- The span of `re.search(pattern, text, flags=re.IGNORECASE)`. -/
  search : String → String → Option (ℕ × ℕ)
  /-- `uuid.uuid4().hex[:6]`, for the rule at a place. -/
  hex : ℕ → String
  /-- `render_prompt("policy", "v1", policy_text=text)`. -/
  prompt : String → String

/-! ## Ambiguities -/

/-- `_VAGUE_PATTERNS`. -/
def vaguePatterns : List String :=
  ["\\btoo much\\b", "\\breasonable\\b", "\\bnot too (?:much|many|high)\\b",
    "\\bsensible\\b", "\\bappropriate amount\\b", "\\ba lot\\b",
    "\\bsmall (?:amount|sum)\\b", "\\blarge (?:amount|sum)\\b"]

/-- The type is in `_NUMERIC_RULE_TYPES`. -/
def RuleType.isNumeric : RuleType → Bool
  | .amountLimit => true
  | .cumulativeLimit => true
  | _ => false

/-- `text[start:stop]`. -/
def slice (text : String) (start stop : ℕ) : String :=
  String.ofList ((text.toList.take stop).drop start)

def vagueReason : String :=
  "Vague quantity with no explicit numeric limit; refusing to invent one."

def noValueReason : String := "Numeric limit rule has no concrete value."

/-- The ambiguity of a pattern that the text matches. -/
def vagueAmbiguity (py : CompilerPython) (text pattern : String) :
    Option PolicyAmbiguity :=
  (py.search pattern text).map (fun span =>
    ⟨py.strip (slice text (span.1 - 20) (span.2 + 20)), vagueReason⟩)

def hasNoValue (py : Python) (rule : PolicyRule) : Bool :=
  match rule.constraint.value with
  | .none => true
  | .str s => decide (py.strip s = "")
  | _ => false

/-- The rule must name a limit and does not. -/
def lacksLimit (py : Python) (rule : PolicyRule) : Bool :=
  rule.type.isNumeric && hasNoValue py rule

def limitAmbiguity (rule : PolicyRule) : PolicyAmbiguity :=
  ⟨"rule " ++ rule.ruleId ++ " (" ++ rule.type.text ++ ")", noValueReason⟩

def detectAmbiguities (py : CompilerPython) (text : String)
    (rules : List PolicyRule) : List PolicyAmbiguity :=
  vaguePatterns.filterMap (vagueAmbiguity py text) ++
    (rules.filter (lacksLimit py.toPython)).map limitAmbiguity

/-! ## Compilation -/

/-- The key under which ambiguities are the same. -/
def PolicyAmbiguity.key (py : Python) (a : PolicyAmbiguity) :
    String × String :=
  (py.lower (py.strip a.clause), py.lower (py.strip a.reason))

/-- `a.clause or a.reason`. -/
def PolicyAmbiguity.isStated (a : PolicyAmbiguity) : Bool :=
  decide (a.clause ≠ "" ∨ a.reason ≠ "")

/-- The loop, with the keys that were seen. -/
def dedupeFrom (py : Python) :
    List (String × String) → List PolicyAmbiguity → List PolicyAmbiguity
  | _, [] => []
  | seen, a :: rest =>
      if a.key py ∉ seen ∧ a.isStated then
        a :: dedupeFrom py (a.key py :: seen) rest
      else dedupeFrom py seen rest

/-- `_dedupe_ambiguities(items)`. -/
def dedupeAmbiguities (py : Python) (items : List PolicyAmbiguity) :
    List PolicyAmbiguity :=
  dedupeFrom py [] items

/-- The ambiguity that an entry of the answer reports, if it is a
dictionary. -/
def modelAmbiguity : PyValue → Except PyException (Option PolicyAmbiguity)
  | .dict fields => do
      let clause ← (PyDict.getD fields "clause" (.str "")).requireText
      let reason ← (PyDict.getD fields "reason" (.str "")).requireText
      return some ⟨clause, reason⟩
  | _ => .ok none

/-- The entries of a list of the answer. -/
def entries (data : PyDict) (key : String) :
    Except PyException (List PyValue) :=
  (data.getD key (.list [])).members

def modelAmbiguities (data : PyDict) :
    Except PyException (List PolicyAmbiguity) := do
  let items ← entries data "ambiguities"
  let reported ← items.mapM modelAmbiguity
  return reported.filterMap id

/-- `{n:03d}`. -/
def threeDigits (n : ℕ) : String :=
  String.ofList (List.replicate (3 - (Nat.toDigits 10 n).length) '0' ++
    Nat.toDigits 10 n)

/-- `f"rule_{i + 1:03d}_{uuid.uuid4().hex[:6]}"`. -/
def freshId (py : CompilerPython) (place : ℕ) : String :=
  "rule_" ++ threeDigits (place + 1) ++ "_" ++ py.hex place

/-- The entries with the identifiers that are made up for them. -/
def withIds (py : CompilerPython) (raw : List PyValue) :
    List (String × PyValue) :=
  raw.mapIdx (fun place value => (freshId py place, value))

inductive CompileStatus where
  | ok | ambiguous | policyConflict
  deriving DecidableEq

structure PolicyCandidateResult where
  status : CompileStatus
  candidateRules : List PolicyRule
  ambiguities : List PolicyAmbiguity
  conflicts : List PolicyConflict

def statusOf (ambiguities : List PolicyAmbiguity)
    (conflicts : List PolicyConflict) : CompileStatus :=
  if !conflicts.isEmpty then .policyConflict
  else if !ambiguities.isEmpty then .ambiguous
  else .ok

/-- The result for the dictionary that the model answered. -/
def candidate (py : CompilerPython) (text : String) (data : PyDict) :
    Except PyException PolicyCandidateResult := do
  let raw ← entries data "rules"
  let rules ← normalizeRules py.toPython (withIds py raw)
  let reported ← modelAmbiguities data
  let ambiguities := dedupeAmbiguities py.toPython
    (reported ++ detectAmbiguities py text rules)
  let conflicts := detectConflicts py.toPython rules
  return {
    status := statusOf ambiguities conflicts
    candidateRules := rules
    ambiguities := ambiguities
    conflicts := conflicts }

/-- `validate_rules(rules, policy_text)`, which asks no model. -/
def validateRules (py : CompilerPython) (rules : List PolicyRule)
    (text : String) : PolicyCandidateResult :=
  let ambiguities := detectAmbiguities py text rules
  let conflicts := detectConflicts py.toPython rules
  { status := statusOf ambiguities conflicts
    candidateRules := rules
    ambiguities := ambiguities
    conflicts := conflicts }

def policyRequest (py : CompilerPython) (text : String) :
    GenerationRequest where
  systemPrompt := py.prompt text
  messages :=
    [[("role", .str "user"), ("content", .str "Compile this policy.")]]
  promptVersion := "policy_v1"

inductive CompileError where
  | provider (error : RouterError)
  | python (exception : PyException)

/-- `PolicyCompiler.compile(policy_text)`. -/
def compile (py : CompilerPython) (router : Router) (text : String) :
    Except CompileError PolicyCandidateResult :=
  match (generateStructured router (policyRequest py text)).result with
  | .error error => .error (.provider error)
  | .ok response =>
      ((response.structured.orElse (.dict [])).asDict >>=
        candidate py text).mapError .python

/-! ## What a compiled text says -/

/-- The rule is one of the answer, and so is its limit. -/
def Extracted (py : Python) (data : PyDict) (rule : PolicyRule) : Prop :=
  ∃ items fields constraint, entries data "rules" = .ok items ∧
    .dict fields ∈ items ∧
    ((PyDict.getD fields "constraint" (.dict [])).orElse (.dict [])).asDict =
      .ok constraint ∧
    rule.constraint.value = constraint.get "value" ∧
    rule.type.text =
      py.strip (py.upper (py.str (PyDict.getD fields "type" (.str "")))) ∧
    rule.requiredAction.text =
      py.upper (py.str (PyDict.getD fields "required_action" (.str "ALLOW")))

/-- The answer reports no ambiguity. -/
def Unreported (data : PyDict) : Prop :=
  ∀ items, entries data "ambiguities" = .ok items →
    ∀ fields, .dict fields ∈ items →
      PyDict.getD fields "clause" (.str "") = .str "" ∧
      PyDict.getD fields "reason" (.str "") = .str ""

/-- Every limit is stated, no quantity is vague and no two rules contradict
each other. -/
structure Clear (py : CompilerPython) (text : String) (data : PyDict)
    (rules : List PolicyRule) : Prop where
  limits : ∀ rule ∈ rules, rule.type.isNumeric = true →
    hasNoValue py.toPython rule = false
  precise : ∀ pattern ∈ vaguePatterns, py.search pattern text = none
  unreported : Unreported data
  consistent : ∀ target, ¬ Clash py.toPython rules target

/-- Some reported ambiguity has the key. -/
def Reports (py : Python) (result : PolicyCandidateResult)
    (a : PolicyAmbiguity) : Prop :=
  ∃ b ∈ result.ambiguities, b.key py = a.key py

structure Verdict (py : CompilerPython) (text : String) (data : PyDict)
    (result : PolicyCandidateResult) : Prop where
  extracted : ∀ rule ∈ result.candidateRules,
    Extracted py.toPython data rule
  limits : ∀ rule ∈ result.candidateRules,
    lacksLimit py.toPython rule = true →
      Reports py.toPython result (limitAmbiguity rule)
  vague : ∀ pattern ∈ vaguePatterns, ∀ a,
    vagueAmbiguity py text pattern = some a →
      Reports py.toPython result a
  distinct : (result.ambiguities.map
    (PolicyAmbiguity.key py.toPython)).Nodup
  conflict_iff : result.status = .policyConflict ↔
    ∃ target, Clash py.toPython result.candidateRules target
  ok_iff : result.status = .ok ↔
    Clear py text data result.candidateRules
  /-- Validating the rules again finds the same, but for what the model
  reported. -/
  validated : (validateRules py result.candidateRules text).conflicts =
      result.conflicts ∧
    ∀ a ∈ (validateRules py result.candidateRules text).ambiguities,
      Reports py.toPython result a
  validated_ok : (validateRules py result.candidateRules text).status = .ok ↔
    Clear py text [] result.candidateRules

/-! ## Duplicates -/

variable {py : Python} {seen : List (String × String)}
  {items : List PolicyAmbiguity}

theorem mem_dedupeFrom {a : PolicyAmbiguity}
    (h : a ∈ dedupeFrom py seen items) :
    a ∈ items ∧ a.isStated = true ∧ a.key py ∉ seen := by
  induction items generalizing seen with
  | nil => exact absurd h List.not_mem_nil
  | cons first rest ih =>
      unfold dedupeFrom at h
      by_cases hfirst : first.key py ∉ seen ∧ first.isStated = true
      · rw [if_pos hfirst] at h
        rcases List.mem_cons.mp h with heq | hrest
        · rw [heq]
          exact ⟨List.mem_cons_self, hfirst.2, hfirst.1⟩
        · obtain ⟨hmem, hstated, hseen⟩ := ih hrest
          rw [List.mem_cons, not_or] at hseen
          exact ⟨List.mem_cons_of_mem first hmem, hstated, hseen.2⟩
      · rw [if_neg hfirst] at h
        obtain ⟨hmem, hstated, hseen⟩ := ih h
        exact ⟨List.mem_cons_of_mem first hmem, hstated, hseen⟩

/-- What is stated is kept under its key, unless the key was seen. -/
theorem exists_mem_dedupeFrom {a : PolicyAmbiguity} (ha : a ∈ items)
    (hstated : a.isStated = true) (hseen : a.key py ∉ seen) :
    ∃ b ∈ dedupeFrom py seen items, b.key py = a.key py := by
  induction items generalizing seen with
  | nil => exact absurd ha List.not_mem_nil
  | cons first rest ih =>
      unfold dedupeFrom
      by_cases hfirst : first.key py ∉ seen ∧ first.isStated = true
      · rw [if_pos hfirst]
        by_cases hkey : first.key py = a.key py
        · exact ⟨first, List.mem_cons_self, hkey⟩
        · have hrest : a ∈ rest := by
            rcases List.mem_cons.mp ha with heq | hrest
            · exact absurd (by rw [heq]) hkey
            · exact hrest
          have hnot : a.key py ∉ first.key py :: seen := by
            rw [List.mem_cons, not_or]
            exact ⟨Ne.symm hkey, hseen⟩
          obtain ⟨b, hb, hsame⟩ := ih hrest hnot
          exact ⟨b, List.mem_cons_of_mem first hb, hsame⟩
      · rw [if_neg hfirst]
        apply ih _ hseen
        rcases List.mem_cons.mp ha with heq | hrest
        · rw [heq] at hseen hstated
          exact absurd ⟨hseen, hstated⟩ hfirst
        · exact hrest

theorem dedupeFrom_nodup :
    ((dedupeFrom py seen items).map (PolicyAmbiguity.key py)).Nodup := by
  induction items generalizing seen with
  | nil => exact List.nodup_nil
  | cons first rest ih =>
      unfold dedupeFrom
      by_cases hfirst : first.key py ∉ seen ∧ first.isStated = true
      · rw [if_pos hfirst, List.map_cons, List.nodup_cons]
        refine ⟨?_, ih⟩
        intro hmem
        obtain ⟨b, hb, hkey⟩ := List.mem_map.mp hmem
        apply (mem_dedupeFrom hb).2.2
        rw [hkey]
        exact List.mem_cons_self
      · rw [if_neg hfirst]
        exact ih

theorem dedupeAmbiguities_eq_nil :
    dedupeAmbiguities py items = [] ↔ ∀ a ∈ items, a.isStated = false := by
  unfold dedupeAmbiguities
  constructor
  · intro h a ha
    by_contra hstated
    have hkept := @exists_mem_dedupeFrom py [] items a ha
      (Bool.of_not_eq_false hstated) List.not_mem_nil
    obtain ⟨b, hb, -⟩ := hkept
    rw [h] at hb
    exact absurd hb List.not_mem_nil
  · intro h
    rw [List.eq_nil_iff_forall_not_mem]
    intro a ha
    obtain ⟨hmem, hstated, -⟩ := mem_dedupeFrom ha
    rw [h a hmem] at hstated
    cases hstated

/-! ## Rules of the answer -/

theorem ruleConstraint_value {fields : PyDict} {constraint : RuleConstraint}
    (h : ruleConstraint py fields = .ok constraint) :
    constraint.value = fields.get "value" := by
  unfold ruleConstraint at h
  obtain ⟨operator, -, h⟩ := Fallible.result_bind_eq_ok.mp h
  obtain ⟨field, -, h⟩ := Fallible.result_bind_eq_ok.mp h
  obtain ⟨currency, -, h⟩ := Fallible.result_bind_eq_ok.mp h
  split at h
  · rw [← Except.ok.inj h]
  · cases h

theorem normalizedRule_ok {fresh : String} {raw constraint : PyDict}
    {rule : PolicyRule}
    (h : normalizedRule py fresh raw constraint = .ok rule) :
    rule.constraint.value = constraint.get "value" ∧
    rule.type.text =
      py.strip (py.upper (py.str (raw.getD "type" (.str "")))) ∧
    rule.requiredAction.text =
      py.upper (py.str (raw.getD "required_action" (.str "ALLOW"))) := by
  unfold normalizedRule at h
  split at h
  rotate_left
  · cases h
  obtain ⟨ruleId, -, h⟩ := Fallible.result_bind_eq_ok.mp h
  obtain ⟨condition, -, h⟩ := Fallible.result_bind_eq_ok.mp h
  obtain ⟨parsed, hparsed, h⟩ := Fallible.result_bind_eq_ok.mp h
  split at h
  · rename_i type action priority htype haction hpriority
    rw [← Except.ok.inj h]
    have htext := List.find?_some htype
    have hdemand := List.find?_some haction
    exact ⟨ruleConstraint_value hparsed, of_decide_eq_true htext,
      of_decide_eq_true hdemand⟩
  · cases h

theorem exists_of_normalizeRules {raw : List (String × PyValue)}
    {rules : List PolicyRule} (h : normalizeRules py raw = .ok rules)
    {rule : PolicyRule} (hrule : rule ∈ rules) :
    ∃ fresh fields constraint, (fresh, PyValue.dict fields) ∈ raw ∧
      ((PyDict.getD fields "constraint" (.dict [])).orElse
        (.dict [])).asDict = .ok constraint ∧
      normalizedRule py fresh fields constraint = .ok rule := by
  induction raw generalizing rules with
  | nil =>
      unfold normalizeRules at h
      rw [← Except.ok.inj h] at hrule
      exact absurd hrule List.not_mem_nil
  | cons entry rest ih =>
      obtain ⟨fresh, value⟩ := entry
      have hlater : ∀ {others}, normalizeRules py rest = .ok others →
          rule ∈ others → ∃ fresh' fields constraint,
            (fresh', PyValue.dict fields) ∈ (fresh, value) :: rest ∧
            ((PyDict.getD fields "constraint" (.dict [])).orElse
              (.dict [])).asDict = .ok constraint ∧
            normalizedRule py fresh' fields constraint = .ok rule := by
        intro others hothers hmem
        obtain ⟨fresh', fields, constraint, hentry, hrest⟩ :=
          ih hothers hmem
        exact ⟨fresh', fields, constraint,
          List.mem_cons_of_mem _ hentry, hrest⟩
      cases value with
      | dict fields =>
          unfold normalizeRules at h
          obtain ⟨constraint, hconstraint, h⟩ :=
            Fallible.result_bind_eq_ok.mp h
          obtain ⟨others, hothers, h⟩ := Fallible.result_bind_eq_ok.mp h
          split at h
          · rename_i first hfirst
            rw [← Except.ok.inj h] at hrule
            rcases List.mem_cons.mp hrule with heq | hmem
            · rw [heq]
              exact ⟨fresh, fields, constraint, List.mem_cons_self,
                hconstraint, hfirst⟩
            · exact hlater hothers hmem
          · rw [← Except.ok.inj h] at hrule
            exact hlater hothers hrule
      | _ =>
          unfold normalizeRules at h
          exact hlater h hrule

theorem extracted_of_normalizeRules {compiler : CompilerPython}
    {data : PyDict} {raw : List PyValue} {rules : List PolicyRule}
    (hraw : entries data "rules" = .ok raw)
    (hrules : normalizeRules compiler.toPython (withIds compiler raw) =
      .ok rules) {rule : PolicyRule} (hrule : rule ∈ rules) :
    Extracted compiler.toPython data rule := by
  obtain ⟨fresh, fields, constraint, hentry, hconstraint, hnormal⟩ :=
    exists_of_normalizeRules hrules hrule
  have hmem : PyValue.dict fields ∈ raw := by
    unfold withIds at hentry
    obtain ⟨place, hplace, heq⟩ := List.mem_mapIdx.mp hentry
    rw [← (Prod.mk.inj heq).2]
    exact List.getElem_mem hplace
  obtain ⟨hvalue, htype, haction⟩ := normalizedRule_ok hnormal
  exact ⟨raw, fields, constraint, hraw, hmem, hconstraint, hvalue, htype,
    haction⟩

/-! ## Ambiguities of the answer -/

theorem modelAmbiguity_eq_some {fields : PyDict} {a : PolicyAmbiguity} :
    modelAmbiguity (.dict fields) = .ok (some a) ↔
      fields.getD "clause" (.str "") = .str a.clause ∧
      fields.getD "reason" (.str "") = .str a.reason := by
  unfold modelAmbiguity
  constructor
  · intro h
    obtain ⟨clause, hclause, h⟩ := Fallible.result_bind_eq_ok.mp h
    obtain ⟨reason, hreason, h⟩ := Fallible.result_bind_eq_ok.mp h
    rw [← Option.some.inj (Except.ok.inj h)]
    exact ⟨IntentParser.requireText_eq_ok.mp hclause,
      IntentParser.requireText_eq_ok.mp hreason⟩
  · intro h
    obtain ⟨hclause, hreason⟩ := h
    change ((fields.getD "clause" (.str "")).requireText >>= fun clause =>
      (fields.getD "reason" (.str "")).requireText >>= fun reason =>
        pure (some (⟨clause, reason⟩ : PolicyAmbiguity))) = _
    rw [hclause, hreason]
    rfl

theorem modelAmbiguity_dict {fields : PyDict}
    {found : Option PolicyAmbiguity}
    (h : modelAmbiguity (.dict fields) = .ok found) : ∃ a, found = some a := by
  unfold modelAmbiguity at h
  obtain ⟨clause, -, h⟩ := Fallible.result_bind_eq_ok.mp h
  obtain ⟨reason, -, h⟩ := Fallible.result_bind_eq_ok.mp h
  exact ⟨_, (Except.ok.inj h).symm⟩

theorem isStated_eq_false {a : PolicyAmbiguity} :
    a.isStated = false ↔ a.clause = "" ∧ a.reason = "" := by
  unfold PolicyAmbiguity.isStated
  rw [decide_eq_false_iff_not, not_or, not_not, not_not]

theorem unreported_iff {data : PyDict} {reported : List PolicyAmbiguity}
    (h : modelAmbiguities data = .ok reported) :
    (∀ a ∈ reported, a.isStated = false) ↔ Unreported data := by
  unfold modelAmbiguities at h
  obtain ⟨items, hitems, h⟩ := Fallible.result_bind_eq_ok.mp h
  obtain ⟨results, hresults, h⟩ := Fallible.result_bind_eq_ok.mp h
  have hreported : reported = results.filterMap id := (Except.ok.inj h).symm
  have hmem : ∀ a, a ∈ reported ↔
      ∃ value ∈ items, modelAmbiguity value = .ok (some a) := by
    intro a
    rw [hreported, ← Fallible.mem_mapM_iff hresults]
    simp
  constructor
  · intro hunstated items' hitems' fields hfields
    have hsame : items' = items := by
      rw [hitems] at hitems'
      exact (Except.ok.inj hitems').symm
    rw [hsame] at hfields
    obtain ⟨found, hfound⟩ := Fallible.exists_of_mapM hresults hfields
    obtain ⟨a, ha⟩ := modelAmbiguity_dict hfound
    rw [ha] at hfound
    obtain ⟨hclause, hreason⟩ := modelAmbiguity_eq_some.mp hfound
    have hempty := isStated_eq_false.mp
      (hunstated a ((hmem a).mpr ⟨_, hfields, hfound⟩))
    rw [hempty.1] at hclause
    rw [hempty.2] at hreason
    exact ⟨hclause, hreason⟩
  · intro hunreported a ha
    obtain ⟨value, hvalue, hfound⟩ := (hmem a).mp ha
    cases value with
    | dict fields =>
        obtain ⟨hclause, hreason⟩ := modelAmbiguity_eq_some.mp hfound
        obtain ⟨hnoClause, hnoReason⟩ := hunreported items hitems fields hvalue
        rw [hnoClause] at hclause
        rw [hnoReason] at hreason
        exact isStated_eq_false.mpr ⟨(PyValue.str.inj hclause).symm,
          (PyValue.str.inj hreason).symm⟩
    | _ => cases hfound

/-! ## Verdicts -/

section

variable {compiler : CompilerPython} {text : String}
  {rules : List PolicyRule}

theorem vagueAmbiguity_isStated {pattern : String} {a : PolicyAmbiguity}
    (h : vagueAmbiguity compiler text pattern = some a) :
    a.isStated = true := by
  unfold vagueAmbiguity at h
  obtain ⟨span, -, ha⟩ := Option.map_eq_some_iff.mp h
  rw [← ha]
  apply decide_eq_true
  right
  change vagueReason ≠ ""
  decide

theorem limitAmbiguity_isStated (rule : PolicyRule) :
    (limitAmbiguity rule).isStated = true := by
  apply decide_eq_true
  right
  change noValueReason ≠ ""
  decide

theorem detected_unstated_iff :
    (∀ a ∈ detectAmbiguities compiler text rules, a.isStated = false) ↔
      (∀ rule ∈ rules, rule.type.isNumeric = true →
        hasNoValue compiler.toPython rule = false) ∧
      ∀ pattern ∈ vaguePatterns, compiler.search pattern text = none := by
  unfold detectAmbiguities
  constructor
  · intro h
    constructor
    · intro rule hrule hnumeric
      by_contra hvalue
      have hlacks : lacksLimit compiler.toPython rule = true := by
        unfold lacksLimit
        rw [hnumeric, Bool.of_not_eq_false hvalue]
        rfl
      have hstated := h (limitAmbiguity rule)
        (List.mem_append_right _ (List.mem_map_of_mem
          (List.mem_filter.mpr ⟨hrule, hlacks⟩)))
      rw [limitAmbiguity_isStated] at hstated
      cases hstated
    · intro pattern hpattern
      cases hfound : vagueAmbiguity compiler text pattern with
      | none => exact Option.map_eq_none_iff.mp hfound
      | some a =>
          have hstated := h a (List.mem_append_left _
            (List.mem_filterMap.mpr ⟨pattern, hpattern, hfound⟩))
          rw [vagueAmbiguity_isStated hfound] at hstated
          cases hstated
  · intro h a ha
    obtain ⟨hlimits, hprecise⟩ := h
    rcases List.mem_append.mp ha with hvague | hlimit
    · obtain ⟨pattern, hpattern, hfound⟩ := List.mem_filterMap.mp hvague
      unfold vagueAmbiguity at hfound
      rw [hprecise pattern hpattern] at hfound
      cases hfound
    · obtain ⟨rule, hrule, -⟩ := List.mem_map.mp hlimit
      obtain ⟨hmem, hlacks⟩ := List.mem_filter.mp hrule
      obtain ⟨hnumeric, hvalue⟩ := Bool.and_eq_true_iff.mp hlacks
      rw [hlimits rule hmem hnumeric] at hvalue
      cases hvalue

theorem statusOf_eq_ok {ambiguities : List PolicyAmbiguity}
    {conflicts : List PolicyConflict} :
    statusOf ambiguities conflicts = .ok ↔
      ambiguities = [] ∧ conflicts = [] := by
  cases ambiguities <;> cases conflicts <;> simp [statusOf]

theorem statusOf_eq_policyConflict {ambiguities : List PolicyAmbiguity}
    {conflicts : List PolicyConflict} :
    statusOf ambiguities conflicts = .policyConflict ↔ conflicts ≠ [] := by
  cases ambiguities <;> cases conflicts <;> simp [statusOf]

theorem unreported_nil : Unreported [] := by
  intro items hitems fields hfields
  have hnil : items = [] := (Except.ok.inj hitems).symm
  rw [hnil] at hfields
  exact absurd hfields List.not_mem_nil

theorem detected_isStated {a : PolicyAmbiguity}
    (h : a ∈ detectAmbiguities compiler text rules) : a.isStated = true := by
  rcases List.mem_append.mp h with hvague | hlimit
  · obtain ⟨pattern, -, hfound⟩ := List.mem_filterMap.mp hvague
    exact vagueAmbiguity_isStated hfound
  · obtain ⟨rule, -, hrule⟩ := List.mem_map.mp hlimit
    rw [← hrule]
    exact limitAmbiguity_isStated rule

/-- All of them are stated, so none is found exactly when no stated one
is. -/
theorem detectAmbiguities_eq_nil :
    detectAmbiguities compiler text rules = [] ↔
      (∀ rule ∈ rules, rule.type.isNumeric = true →
        hasNoValue compiler.toPython rule = false) ∧
      ∀ pattern ∈ vaguePatterns, compiler.search pattern text = none := by
  rw [← detected_unstated_iff, List.eq_nil_iff_forall_not_mem]
  constructor
  · intro h a ha
    exact absurd ha (h a)
  · intro h a ha
    have hstated := detected_isStated ha
    rw [h a ha] at hstated
    cases hstated

theorem detectConflicts_eq_nil :
    detectConflicts compiler.toPython rules = [] ↔
      ∀ target, ¬ Clash compiler.toPython rules target := by
  rw [← not_exists, ← detectConflicts_ne_nil, ne_eq, not_not]

theorem candidate_verdict {data : PyDict} {result : PolicyCandidateResult}
    (h : candidate compiler text data = .ok result) :
    Verdict compiler text data result := by
  unfold candidate at h
  obtain ⟨raw, hraw, h⟩ := Fallible.result_bind_eq_ok.mp h
  obtain ⟨rules, hrules, h⟩ := Fallible.result_bind_eq_ok.mp h
  obtain ⟨reported, hreported, h⟩ := Fallible.result_bind_eq_ok.mp h
  rw [← Except.ok.inj h]
  have hkept : ∀ a ∈ detectAmbiguities compiler text rules,
      ∃ b ∈ dedupeAmbiguities compiler.toPython
          (reported ++ detectAmbiguities compiler text rules),
        b.key compiler.toPython = a.key compiler.toPython := by
    intro a ha
    exact exists_mem_dedupeFrom (List.mem_append_right _ ha)
      (detected_isStated ha) List.not_mem_nil
  constructor
  · intro rule hrule
    exact extracted_of_normalizeRules hraw hrules hrule
  · intro rule hrule hlacks
    apply hkept
    exact List.mem_append_right _ (List.mem_map_of_mem
      (List.mem_filter.mpr ⟨hrule, hlacks⟩))
  · intro pattern hpattern a ha
    apply hkept
    exact List.mem_append_left _
      (List.mem_filterMap.mpr ⟨pattern, hpattern, ha⟩)
  · exact dedupeFrom_nodup
  · exact statusOf_eq_policyConflict.trans detectConflicts_ne_nil
  · rw [statusOf_eq_ok, dedupeAmbiguities_eq_nil, List.forall_mem_append,
      unreported_iff hreported, detected_unstated_iff, detectConflicts_eq_nil]
    constructor
    · intro hclear
      obtain ⟨⟨hunreported, hlimits, hprecise⟩, htargets⟩ := hclear
      exact ⟨hlimits, hprecise, hunreported, htargets⟩
    · intro hclear
      exact ⟨⟨hclear.unreported, hclear.limits, hclear.precise⟩,
        hclear.consistent⟩
  · exact ⟨rfl, hkept⟩
  · unfold validateRules
    rw [statusOf_eq_ok, detectAmbiguities_eq_nil, detectConflicts_eq_nil]
    constructor
    · intro hclear
      obtain ⟨⟨hlimits, hprecise⟩, htargets⟩ := hclear
      exact ⟨hlimits, hprecise, unreported_nil, htargets⟩
    · intro hclear
      exact ⟨⟨hclear.limits, hclear.precise⟩, hclear.consistent⟩

theorem asDict_orElse {data : PyDict} (hne : data ≠ []) :
    ((PyValue.dict data).orElse (.dict [])).asDict = .ok data := by
  unfold PyValue.orElse
  rw [if_pos]
  · rfl
  · change (!data.isEmpty) = true
    simp [hne]

/-- What compiles was answered by a provider, and the verdict is about that
answer. -/
theorem compile_verdict {router : Router} {result : PolicyCandidateResult}
    (h : compile compiler router text = .ok result) :
    ∃ provider exchanges exchange response data,
      (provider, exchanges) ∈
        (generateStructured router (policyRequest compiler text)).asked ∧
      exchange ∈ exchanges ∧ exchange.outcome = .answered response ∧
      response.structured = .dict data ∧
      Verdict compiler text data result := by
  unfold compile at h
  cases hrun : (generateStructured router
      (policyRequest compiler text)).result with
  | error error =>
      rw [hrun] at h
      cases h
  | ok response =>
      obtain ⟨hvalid, entry, hentry, exchange, hexchange, hanswered⟩ :=
        ProviderRouter.answer_of_runFrom hrun
      obtain ⟨data, hdata, hne⟩ := ProviderRouter.isValid_iff.mp hvalid
      refine ⟨entry.1, entry.2, exchange, response, data, hentry, hexchange,
        hanswered, hdata, ?_⟩
      rw [hrun] at h
      dsimp only at h
      rw [hdata, asDict_orElse hne, Fallible.result_ok_bind] at h
      cases hcandidate : candidate compiler text data with
      | error exception =>
          rw [hcandidate] at h
          cases h
      | ok found =>
          rw [hcandidate] at h
          have hsame : found = result := Except.ok.inj h
          rw [← hsame]
          exact candidate_verdict hcandidate

end

/-! ## A limit that is missing -/

/-- The library on the values of the answer below. -/
def samplePython : CompilerPython where
  toPython :=
    { rulePython with
      int := fun value =>
        match value with
        | .int n => some n
        | _ => none }
  search := fun _ _ => none
  hex := fun _ => "4f1a9c"
  prompt := fun text => text

/-- One payment is limited; the sum of all payments is not. -/
def sampleAnswer : PyDict :=
  [("rules", .list
    [.dict [("type", .str "AMOUNT_LIMIT"),
      ("constraint", .dict [("field", .str "amount"), ("value", .str "100")])],
      .dict [("type", .str "CUMULATIVE_LIMIT")]])]

def sampleProvider : ProviderRouter.Provider where
  identity := 0
  name := "mock"
  health := some true
  outcome := fun _ => .answered ⟨none, .dict sampleAnswer⟩
  checkedAt := 0
  limitedAt := 0

def sampleRouter : Router where
  providers := [sampleProvider]
  maxRetries := 1
  cooldownUntil := .empty

def sampleText : String := "No payment above 100 USDC."

theorem sample_verdict :
    ∃ result, compile samplePython sampleRouter sampleText = .ok result ∧
      result.status = .ambiguous ∧
      Verdict samplePython sampleText sampleAnswer result := by
  have hrun : ∃ result,
      compile samplePython sampleRouter sampleText = .ok result ∧
        result.status = .ambiguous := ⟨_, rfl, rfl⟩
  have hasked : (generateStructured sampleRouter
      (policyRequest samplePython sampleText)).asked =
      [(sampleProvider, [⟨policyRequest samplePython sampleText,
        .answered ⟨none, .dict sampleAnswer⟩⟩])] := rfl
  obtain ⟨result, hresult, hstatus⟩ := hrun
  obtain ⟨provider, exchanges, exchange, response, data, hentry, hexchange,
    hanswered, hdata, hverdict⟩ := compile_verdict hresult
  rw [hasked, List.mem_singleton] at hentry
  cases hentry
  rw [List.mem_singleton] at hexchange
  rw [hexchange] at hanswered
  cases hanswered
  cases hdata
  exact ⟨result, hresult, hstatus, hverdict⟩

end PolicyAi
end Orvex
