import Orvex.Api.Activations
import Orvex.Policy.Evaluable

/-!
# Accepted policies and their evaluation

No call changes the rules of a policy version, so the rules that are loaded
after an activation are those that the draft was accepted with.
-/

namespace Orvex

open Fallible (Keeps)

/-- The version is stored with these rules. -/
structure StoredRules (versionId : String) (rules : List CompiledRule)
    (db : Database) : Prop where
  unique : KeyedTable.UniqueKeys PolicyVersion.id db.policyVersions
  stored : (policyVersionTable.lookup versionId db).map
    PolicyVersion.compiledPolicyJson = some ⟨some rules⟩

section

variable {versionId : String} {rules : List CompiledRule}

theorem StoredRules.of_versions {db db' : Database}
    (h : StoredRules versionId rules db)
    (hversions : db'.policyVersions = db.policyVersions) :
    StoredRules versionId rules db' where
  unique := by
    rw [hversions]
    exact h.unique
  stored := by
    change (KeyedTable.lookup PolicyVersion.id versionId
      db'.policyVersions).map _ = _
    rw [hversions]
    exact h.stored

/-- A change of all versions that keeps their ids and their rules. -/
theorem StoredRules.map {db : Database}
    (h : StoredRules versionId rules db)
    {change : PolicyVersion → PolicyVersion}
    (hkeep : KeyedTable.KeepsKey PolicyVersion.id change)
    (hrules : ∀ v, (change v).compiledPolicyJson = v.compiledPolicyJson) :
    StoredRules versionId rules
      { db with policyVersions := db.policyVersions.map change } where
  unique := by
    have hsame : PolicyVersion.id ∘ change = PolicyVersion.id :=
      funext hkeep
    unfold KeyedTable.UniqueKeys
    rw [List.map_map, hsame]
    exact h.unique
  stored := by
    change (KeyedTable.lookup PolicyVersion.id versionId
      (db.policyVersions.map change)).map _ = _
    rw [KeyedTable.lookup_map hkeep, Option.map_map, ← h.stored]
    congr 1
    funext version
    exact hrules version

/-- An update of one version that keeps its id and its rules. -/
theorem StoredRules.modify {db : Database}
    (h : StoredRules versionId rules db) (id : String)
    {change : PolicyVersion → PolicyVersion}
    (hkeep : KeyedTable.KeepsKey PolicyVersion.id change)
    (hrules : ∀ v, (change v).compiledPolicyJson = v.compiledPolicyJson) :
    StoredRules versionId rules (policyVersionTable.modify id change db) := by
  refine h.map (fun v => ?_) (fun v => ?_)
  · by_cases hid : policyVersionTable.key v = id
    · rw [if_pos hid]
      exact hkeep v
    · rw [if_neg hid]
  · by_cases hid : policyVersionTable.key v = id
    · rw [if_pos hid]
      exact hrules v
    · rw [if_neg hid]

theorem StoredRules.insert {db : Database} {version : PolicyVersion}
    (h : StoredRules versionId rules db)
    (hfresh : policyVersionTable.lookup version.id db = none) :
    StoredRules versionId rules (policyVersionTable.insert version db) where
  unique := h.unique.append_singleton hfresh
  stored := by
    obtain ⟨found, hfound, hrules⟩ := Option.map_eq_some_iff.mp h.stored
    have hlookup : policyVersionTable.lookup versionId
        (policyVersionTable.insert version db) =
          (policyVersionTable.lookup versionId db).or
            (if version.id = versionId then some version else none) :=
      KeyedTable.lookup_append_singleton versionId db.policyVersions version
    rw [hlookup, hfound, Option.some_or, Option.map_some, hrules]

/-! ## What the lifecycle keeps -/

namespace Policies

theorem keepsRules_update (id : String)
    {change : PolicyVersion → PolicyVersion}
    (hkeep : KeyedTable.KeepsKey PolicyVersion.id change)
    (hrules : ∀ v, (change v).compiledPolicyJson = v.compiledPolicyJson) :
    Keeps (StoredRules versionId rules)
      (policyVersionTable.update Failure.recordNotFound id change) :=
  Table.keeps_update (fun _ hdb => hdb.modify id hkeep hrules)

theorem keepsRules_transition (companyId policyVersionId : String)
    (target : PolicyVersionStatus) :
    Keeps (StoredRules versionId rules)
      (transition companyId policyVersionId target) := by
  refine Keeps.bind (keeps_reading _) (fun current => ?_)
  refine Keeps.bind (keeps_reading _) (fun _ => ?_)
  exact keepsRules_update _ (fun _ => rfl) (fun _ => rfl)

theorem keepsRules_approve (companyId policyVersionId : String)
    (approvedBy : Option String) :
    Keeps (StoredRules versionId rules)
      (approve companyId policyVersionId approvedBy) := by
  refine Keeps.transaction ?_
  refine Keeps.bind (keeps_reading _) (fun current => ?_)
  refine Keeps.bind (keeps_reading _) (fun _ => ?_)
  exact keepsRules_update _ (fun _ => rfl) (fun _ => rfl)

theorem keepsRules_activate (companyId policyVersionId : String)
    (now : ℤ) :
    Keeps (StoredRules versionId rules)
      (activate companyId policyVersionId now) := by
  refine Keeps.transaction ?_
  refine Keeps.bind (keeps_reading _) (fun target => ?_)
  refine Keeps.bind (keeps_reading _) (fun _ => ?_)
  have hsweep : Keeps (StoredRules versionId rules)
      (policyVersionTable.updateMany
        (fun version => version.policyId = target.policyId ∧
          version.status = .active)
        (fun version => { version with
          status := .superseded, deactivatedAt := some now }) :
        Service Unit) := by
    refine Fallible.keeps_change (fun db hdb => ?_)
    refine hdb.map (fun version => ?_) (fun version => ?_)
    · split <;> rfl
    · split <;> rfl
  refine hsweep.bind (fun _ => ?_)
  refine Keeps.bind (keepsRules_update _ (fun _ => rfl) (fun _ => rfl))
    (fun activated => ?_)
  refine Keeps.bind (Table.keeps_update (fun db hdb => ?_))
    (fun _ => Fallible.keeps_pure _)
  exact hdb.of_versions rfl

theorem keepsRules_createDraft (rt : Runtime) (input : CreateDraftInput)
    (ids : DraftIds) :
    Keeps (StoredRules versionId rules) (createDraft rt input ids) := by
  have hpolicy : ∀ name uuid, Keeps (StoredRules versionId rules)
      (findOrCreatePolicy input name uuid) := by
    intro name uuid
    refine Keeps.bind (Fallible.keeps_query _) (fun found => ?_)
    cases found with
    | some policy => exact Fallible.keeps_pure _
    | none => exact Table.keeps_create (fun db hdb _ => hdb.of_versions rfl)
  have hversion : ∀ id uuid rules', Keeps (StoredRules versionId rules)
      (createVersion rt input id uuid rules') := by
    intro id uuid rules'
    refine Keeps.bind (Fallible.keeps_query _) (fun latest => ?_)
    exact Table.keeps_create (fun db hdb hallowed => hdb.insert hallowed.1)
  have hrows : ∀ id uuid rules', Keeps (StoredRules versionId rules)
      (createRules id uuid rules') := by
    intro id uuid rules' db hdb
    exact hdb.of_versions
      ((preserves_createRules (fun _ _ => rfl) id rules' uuid).apply db)
  unfold createDraft
  refine Keeps.ite (Fallible.keeps_fail _) ?_
  refine Keeps.bind (keeps_reading _) (fun _ => ?_)
  refine Keeps.bind (Fallible.keeps_query _) (fun known => ?_)
  refine Keeps.ite ?_ (Fallible.keeps_fail _)
  refine Keeps.transaction ?_
  refine (hpolicy _ _).bind (fun policy => ?_)
  refine Keeps.bind (Fallible.keeps_ofOption _ _) (fun accepted => ?_)
  refine (hversion _ _ _).bind (fun version => ?_)
  exact (hrows _ _ _).bind (fun _ => Fallible.keeps_pure _)

end Policies

theorem Api.storedRules_step {rt : Runtime} (call : Api.Call) {db : Database}
    (h : StoredRules versionId rules db) :
    StoredRules versionId rules (call.step rt db) := by
  have hspared : call.operation.Spares Database.policyVersions →
      StoredRules versionId rules (call.step rt db) :=
    fun hspares => h.of_versions (call.step_spares hspares db)
  cases hoperation : call.operation with
  | createPolicy body ids =>
      simp only [Api.Call.step, Api.Call.perform, hoperation,
        Api.discard_state]
      exact Keeps.bind (Api.keeps_requireRole _ _)
        (fun _ => Policies.keepsRules_createDraft _ _ _) db h
  | compilePolicy body ids =>
      simp only [Api.Call.step, Api.Call.perform, hoperation,
        Api.discard_state]
      exact Keeps.bind (Api.keeps_requireRole _ _)
        (fun _ => Policies.keepsRules_createDraft _ _ _) db h
  | validatePolicy policyVersionId =>
      simp only [Api.Call.step, Api.Call.perform, hoperation,
        Api.discard_state]
      refine Keeps.bind (Api.keeps_requireRole _ _) (fun _ => ?_) db h
      refine Keeps.bind (Policies.keepsRules_transition _ _ _) (fun _ => ?_)
      refine Keeps.bind (Policies.keepsRules_transition _ _ _) (fun _ => ?_)
      exact Policies.keepsRules_approve _ _ _
  | activatePolicy policyId policyVersionId =>
      simp only [Api.Call.step, Api.Call.perform, hoperation,
        Api.discard_state]
      have hrepoint : Keeps (StoredRules versionId rules)
          (Api.repointAgent call.auth.companyId policyId) :=
        fun db hdb => hdb.of_versions
          ((Api.preserves_repointAgent (fun _ _ => rfl) _ _).apply db)
      refine Keeps.bind (Api.keeps_requireRole _ _) (fun _ => ?_) db h
      refine Keeps.bind (Policies.keepsRules_activate _ _ _) (fun _ => ?_)
      exact hrepoint.bind (fun _ => Fallible.keeps_pure _)
  | _ =>
      -- the other routes do not write versions
      refine hspared ?_
      rw [hoperation]
      repeat' first
        | exact fun _ _ => rfl
        | exact fun _ _ _ => rfl
        | refine ⟨?_, ?_⟩

end

/-! ## From the draft to its activation -/

namespace Policies

/-- An accepted draft is stored with the rules of the input. -/
theorem storedRules_of_createDraft {rt : Runtime}
    {input : CreateDraftInput} {ids : DraftIds} {db db' : Database}
    {policy : Policy} {version : PolicyVersion}
    (hunique : KeyedTable.UniqueKeys PolicyVersion.id db.policyVersions)
    (h : createDraft rt input ids db = (.ok (policy, version), db')) :
    ∃ rules, (ruleItems input.rules).mapM CompiledRule.ofJson = some rules ∧
      StoredRules version.id rules db' := by
  unfold createDraft at h
  split at h
  next => simp at h
  next =>
    rw [Fallible.bind_eq_ok] at h
    obtain ⟨_, read, hread, h⟩ := h
    obtain ⟨_, hsame⟩ := reading_eq_ok.mp hread
    rw [hsame, Fallible.query_bind] at h
    split at h
    next =>
      rw [Fallible.transaction_eq_ok, Fallible.bind_eq_ok] at h
      obtain ⟨owner, owned, howner, h⟩ := h
      rw [Fallible.bind_eq_ok] at h
      obtain ⟨rules, parsed, hparsed, h⟩ := h
      obtain ⟨hrules, hstate⟩ := Fallible.ofOption_eq_ok.mp hparsed
      rw [Fallible.bind_eq_ok] at h
      obtain ⟨created, written, hcreated, h⟩ := h
      rw [Fallible.bind_eq_ok] at h
      obtain ⟨_, final, hrows, hdone⟩ := h
      rw [Fallible.pure_apply, Prod.mk.injEq, Except.ok.injEq,
        Prod.mk.injEq] at hdone
      obtain ⟨⟨_, hversion⟩, hfinal⟩ := hdone
      have howned : owned.policyVersions = db.policyVersions := by
        have hpreserved : Fallible.Preserves Database.policyVersions
            (findOrCreatePolicy input (jsTrim (input.name.getD ""))
              ids.policy) := by
          refine (Fallible.preserves_query _).bind (fun found => ?_)
          cases found with
          | some row => exact Fallible.preserves_pure _
          | none =>
              exact Table.Apart.create (t := policyTable) (fun _ _ => rfl)
                _ _ _
        have hkept := hpreserved.apply db
        rw [howner] at hkept
        exact hkept
      refine ⟨rules, hrules, ?_⟩
      unfold createVersion at hcreated
      rw [Fallible.query_bind] at hcreated
      obtain ⟨hfresh, _, hrow, hwritten⟩ := Table.create_eq_ok.mp hcreated
      have hstored : StoredRules created.id rules written := by
        rw [hrow, hwritten]
        constructor
        · have howned' : KeyedTable.UniqueKeys PolicyVersion.id
              parsed.policyVersions := by
            rw [← hstate, howned]
            exact hunique
          exact howned'.append_singleton hfresh
        · have hlookup := @KeyedTable.lookup_append_singleton _ _ _
            PolicyVersion.id ids.version parsed.policyVersions
          change (KeyedTable.lookup PolicyVersion.id ids.version
            (parsed.policyVersions ++ [_])).map _ = _
          rw [hlookup]
          have hnone : KeyedTable.lookup PolicyVersion.id ids.version
              parsed.policyVersions = none := hfresh
          rw [hnone, Option.none_or, if_pos rfl]
          rfl
      rw [← hversion, ← hfinal]
      have hkept := (preserves_createRules (f := Database.policyVersions)
        (fun _ _ => rfl) created.id rules ids.rule).apply written
      rw [hrows] at hkept
      exact hstored.of_versions hkept
    next => simp at h

/-- After an activation the rules of the version can be loaded. -/
theorem loadRules_of_activates {companyId versionId : String}
    {rules : List CompiledRule} {db db' : Database} {version : PolicyVersion}
    (hstored : StoredRules versionId rules db')
    (h : Activates companyId versionId db db' version) :
    loadRules companyId versionId db' = .ok rules := by
  have hactive : version ∈ activeVersions version.policyId db' := by
    rw [h.only]
    exact List.mem_singleton_self _
  have hmem := (List.mem_filter.mp hactive).1
  have howned : ownedBy companyId db' version = true := by
    obtain ⟨policy, hpolicy, hcompany⟩ := Option.map_eq_some_iff.mp h.owner
    unfold ownedBy
    rw [hpolicy]
    exact decide_eq_true hcompany
  cases hfound : getVersion companyId versionId db' with
  | none =>
      have hnone := List.find?_eq_none.mp hfound version hmem
      exact absurd (decide_eq_true ⟨h.named, howned⟩) hnone
  | some found =>
      obtain ⟨hin, hid, _⟩ := getVersion_eq_some hfound
      have hlookup : policyVersionTable.lookup found.id db' = some found :=
        KeyedTable.lookup_of_mem h.unique hin
      have hrules := hstored.stored
      rw [← hid, hlookup, Option.map_some, Option.some.injEq] at hrules
      unfold loadRules
      rw [requireVersion_eq_ok.mpr hfound, Fallible.result_ok_bind, hrules]
      rfl

end Policies

namespace Api

/-- The rules of an accepted draft are those that are loaded after its
activation, and they are evaluated in every readable context exactly when
each enabled one is evaluable. -/
theorem accepted_policy_total_iff {rt : Runtime} {clock : String}
    (hzero : DecimalText rt "0") (hclock : (rt.parseDate clock).isSome)
    {input : Policies.CreateDraftInput} {ids : Policies.DraftIds}
    {db drafted final : Database} {policy : Policy}
    {version activated : PolicyVersion} {calls : List Call}
    {companyId : String} {now : ℤ} (hunique : UniqueVersions db)
    (hdraft : Policies.createDraft rt input ids db =
      (.ok (policy, version), drafted))
    (hactivate : Policies.activate companyId version.id now
      (run rt calls drafted) = (.ok activated, final)) :
    ∃ rules,
      (Policies.ruleItems input.rules).mapM CompiledRule.ofJson =
        some rules ∧
      Policies.loadRules companyId version.id final = .ok rules ∧
      ((∀ policyId number ctx, ContextReadable rt ctx →
          ∃ out, PolicyEngine.evaluate rt policyId number rules ctx =
            .ok out) ↔
        ∀ rule ∈ rules, rule.active = true → Evaluable rt rule) := by
  obtain ⟨rules, hrules, hdrafted⟩ :=
    Policies.storedRules_of_createDraft hunique hdraft
  have hstored : StoredRules version.id rules (run rt calls drafted) :=
    run_induction (fun call _ hdb => storedRules_step call hdb) hdrafted
  have hfinal : StoredRules version.id rules final := by
    have hkept := Policies.keepsRules_activate companyId version.id now
      (run rt calls drafted) hstored
    rw [hactivate] at hkept
    exact hkept
  have hactivates := Policies.activates_of_ok hstored.unique hactivate
  exact ⟨rules, hrules, Policies.loadRules_of_activates hfinal hactivates,
    evaluate_total_iff hzero hclock⟩

/-! ## A limit that is no number -/

def limitDraft (maximum : String) : Policies.CreateDraftInput where
  companyId := "acme"
  agentId := some "agent-1"
  name := some "limits"
  description := none
  rules := .array [.object [("rule_id", .string "limit"),
    ("type", .string "AMOUNT_LIMIT"),
    ("config", .object [("maximum", .string maximum)])]]
  sourceType := none
  sourceReference := none
  createdBy := none

def limitRule (maximum : String) : CompiledRule where
  ruleId := "limit"
  type := .amountLimit
  priority := none
  enabled := none
  config := some (.object [("maximum", .string maximum)])
  extra := []

def limitIds : Policies.DraftIds := ⟨"policy-1", "version-1", fun _ => "rule-1"⟩

theorem limitDraft_rules (maximum : String) :
    (Policies.ruleItems (limitDraft maximum).rules).mapM
      CompiledRule.ofJson = some [limitRule maximum] := rfl

def approving : List Call :=
  [⟨administrator, 0, .validatePolicy "version-1"⟩]

/-- The state in which the draft waits for its activation. -/
def awaiting (maximum : String) : Database :=
  run .reference approving (Policies.createDraft .reference
    (limitDraft maximum) limitIds acme).2

def morning : String := "2025-01-01T09:00:00.000Z"

theorem decimalText_zero : DecimalText .reference "0" :=
  ⟨0, by decide⟩

theorem morning_parsed :
    ((Runtime.reference).parseDate morning).isSome = true := by
  decide

/-- A limit of one hundred is accepted, activated, and can be evaluated in
every readable context. -/
theorem hundred_always_evaluated :
    ∃ policy version drafted activated final,
      Policies.createDraft .reference (limitDraft "100") limitIds acme =
          (.ok (policy, version), drafted) ∧
        Policies.activate "acme" version.id 5
          (run .reference approving drafted) = (.ok activated, final) ∧
        ∃ rules,
          Policies.loadRules "acme" version.id final = .ok rules ∧
          ∀ policyId number ctx, ContextReadable .reference ctx →
            ∃ out, PolicyEngine.evaluate .reference policyId number rules
              ctx = .ok out := by
  have hdraft : (Fallible.value? (Policies.createDraft .reference
      (limitDraft "100") limitIds) acme).map (fun found => found.2.id) =
        some "version-1" := by
    decide
  obtain ⟨⟨policy, version⟩, drafted, hcreated, hid⟩ :=
    Fallible.exists_ok_of_value hdraft
  have hactivate : (Fallible.value? (Policies.activate "acme" "version-1" 5)
      (awaiting "100")).map PolicyVersion.id = some "version-1" := by
    decide
  obtain ⟨activated, final, hactivated, _⟩ :=
    Fallible.exists_ok_of_value hactivate
  have hversion : version.id = "version-1" := hid
  have hwaiting : awaiting "100" = run .reference approving drafted := by
    rw [awaiting, hcreated]
  rw [← hversion, hwaiting] at hactivated
  have hunique : UniqueVersions acme := List.nodup_nil
  refine ⟨policy, version, drafted, activated, final, hcreated, hactivated,
    ?_⟩
  obtain ⟨rules, hrules, hloaded, htotal⟩ := accepted_policy_total_iff
    decimalText_zero morning_parsed hunique hcreated hactivated
  rw [limitDraft_rules, Option.some.injEq] at hrules
  refine ⟨rules, hloaded, htotal.mpr ?_⟩
  rw [← hrules]
  intro rule hrule _
  rw [List.mem_singleton.mp hrule]
  refine ⟨⟨by simp [limitRule], by simp [limitRule]⟩, ?_⟩
  intro maximum hmaximum
  have hvalue : maximum = .string "100" := by
    simpa [CompiledRule.value, limitRule, fieldOf] using hmaximum.symm
  rw [hvalue]
  decide

/-- A limit of "abc" is accepted and activated, and no payment with an
amount can be judged. -/
theorem unreadable_limit_activated :
    ∃ policy version drafted activated final,
      Policies.createDraft .reference (limitDraft "abc") limitIds acme =
          (.ok (policy, version), drafted) ∧
        Policies.activate "acme" version.id 5
          (run .reference approving drafted) = (.ok activated, final) ∧
        ContextReadable .reference (probe morning) ∧
        ¬ ∃ rules out,
          Policies.loadRules "acme" version.id final = .ok rules ∧
          PolicyEngine.evaluate .reference "policy-1" 1 rules
            (probe morning) = .ok out := by
  have hdraft : (Fallible.value? (Policies.createDraft .reference
      (limitDraft "abc") limitIds) acme).map (fun found => found.2.id) =
        some "version-1" := by
    decide
  obtain ⟨⟨policy, version⟩, drafted, hcreated, hid⟩ :=
    Fallible.exists_ok_of_value hdraft
  have hactivate : (Fallible.value? (Policies.activate "acme" "version-1" 5)
      (awaiting "abc")).map PolicyVersion.id = some "version-1" := by
    decide
  obtain ⟨activated, final, hactivated, _⟩ :=
    Fallible.exists_ok_of_value hactivate
  have hversion : version.id = "version-1" := hid
  have hwaiting : awaiting "abc" = run .reference approving drafted := by
    rw [awaiting, hcreated]
  have hfinal : final =
      (Policies.activate "acme" "version-1" 5 (awaiting "abc")).2 := by
    rw [hactivated]
  refine ⟨policy, version, drafted, activated, final, hcreated, ?_,
    contextReadable_probe decimalText_zero morning_parsed, ?_⟩
  · rw [hversion, ← hwaiting]
    exact hactivated
  · rintro ⟨rules, out, hloaded, hout⟩
    have hevaluated : (Policies.loadRules "acme" "version-1"
        (Policies.activate "acme" "version-1" 5 (awaiting "abc")).2).toOption.map
          (fun rules => (PolicyEngine.evaluate .reference "policy-1" 1 rules
            (probe morning)).toOption.isSome) = some false := by
      decide
    rw [← hfinal, ← hversion, hloaded] at hevaluated
    rw [Except.toOption, Option.map_some, hout] at hevaluated
    exact absurd hevaluated (by simp [Except.toOption])

end Api
end Orvex
