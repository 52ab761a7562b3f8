import Orvex.Policy.Service

/-!
# The active version of a policy

Activation leaves the activated version as the only active one of its
policy.  No other step of the lifecycle touches an active version.
-/

namespace Orvex
namespace Policies

/-! ## The versions that are active -/

def activeVersions (policyId : String) (db : Database) :
    List PolicyVersion :=
  db.policyVersions.filter
    (fun version => version.policyId = policyId ∧ version.status = .active)

/-- The active version that is read is the first one, in the company of the
policy. -/
theorem getActiveVersion_eq (companyId policyId : String) (db : Database) :
    getActiveVersion companyId policyId db =
      if (policyTable.lookup policyId db).map Policy.companyId =
          some companyId then
        (activeVersions policyId db).head?
      else none := by
  have hsplit : getActiveVersion companyId policyId db =
      (activeVersions policyId db).find? (ownedBy companyId db) := by
    unfold getActiveVersion activeVersions Table.find
    rw [List.find?_filter]
    congr 1
    funext version
    rw [Bool.eq_iff_iff]
    simp only [decide_eq_true_eq, and_assoc]
  have howned : ∀ version ∈ activeVersions policyId db,
      (ownedBy companyId db version = true ↔
        (policyTable.lookup policyId db).map Policy.companyId =
          some companyId) := by
    intro version hversion
    have hpolicy := of_decide_eq_true (List.mem_filter.mp hversion).2
    unfold ownedBy
    rw [hpolicy.1]
    cases policyTable.lookup policyId db with
    | none => simp
    | some policy => simp
  rw [hsplit]
  split
  next hcompany =>
    cases hactive : activeVersions policyId db with
    | nil => rfl
    | cons first rest =>
        have hmem : first ∈ activeVersions policyId db := by
          rw [hactive]
          exact List.mem_cons_self
        rw [List.find?_cons_of_pos ((howned first hmem).mpr hcompany),
          List.head?_cons]
  next hcompany =>
    rw [List.find?_eq_none]
    intro version hversion hfound
    exact hcompany ((howned version hversion).mp hfound)

/-! ## Activation -/

theorem assertTransition_eq_ok {source target : PolicyVersionStatus} :
    assertTransition source target = .ok () ↔
      target ∈ versionTransitions source := by
  unfold assertTransition
  split
  next h => simpa using h
  next h => simpa using h

theorem requireVersion_eq_ok {companyId policyVersionId : String}
    {db : Database} {version : PolicyVersion} :
    requireVersion companyId policyVersionId db = .ok version ↔
      getVersion companyId policyVersionId db = some version := by
  unfold requireVersion
  cases getVersion companyId policyVersionId db with
  | none => simp
  | some found => simp

/-- Only an approved version can be activated. -/
theorem approved_of_active_mem {status : PolicyVersionStatus}
    (h : .active ∈ versionTransitions status) : status = .approved := by
  cases status <;> simp [versionTransitions] at h ⊢

/-- What activating a version at `now` makes of it. -/
def activated (now : ℤ) (version : PolicyVersion) : PolicyVersion :=
  { version with status := .active, activatedAt := some now }

theorem activated_keepsKey (now : ℤ) :
    KeyedTable.KeepsKey PolicyVersion.id (activated now) :=
  fun _ => rfl

/-- What the activation of another version of the policy makes of a
version. -/
def superseded (policyId : String) (now : ℤ) (version : PolicyVersion) :
    PolicyVersion :=
  if version.policyId = policyId ∧ version.status = .active then
    { version with status := .superseded, deactivatedAt := some now }
  else version

theorem superseded_keepsKey (policyId : String) (now : ℤ) :
    KeyedTable.KeepsKey PolicyVersion.id (superseded policyId now) := by
  intro version
  unfold superseded
  split <;> rfl

theorem superseded_inactive (policyId : String) (now : ℤ)
    (version : PolicyVersion) :
    ¬ ((superseded policyId now version).policyId = policyId ∧
      (superseded policyId now version).status = .active) := by
  unfold superseded
  split
  next => simp
  next h => exact h

/-- The policy of the version that was activated. -/
def promoted (number : ℕ) (policy : Policy) : Policy :=
  { policy with status := .active, currentVersion := number }

theorem promoted_keepsKey (number : ℕ) :
    KeyedTable.KeepsKey Policy.id (promoted number) :=
  fun _ => rfl

/-- What a successful activation found and wrote. -/
theorem activate_eq_ok {companyId policyVersionId : String} {now : ℤ}
    {db db' : Database} {version : PolicyVersion}
    (h : activate companyId policyVersionId now db = (.ok version, db')) :
    ∃ target row policy,
      getVersion companyId policyVersionId db = some target ∧
        target.status = .approved ∧
        KeyedTable.lookup PolicyVersion.id target.id
          (db.policyVersions.map (superseded target.policyId now)) =
            some row ∧
        policyTable.lookup target.policyId db = some policy ∧
        version = activated now row ∧
        db' = policyTable.modify target.policyId (promoted version.version)
          { db with
            policyVersions := KeyedTable.modify PolicyVersion.id target.id
              (activated now)
              (db.policyVersions.map (superseded target.policyId now)) } := by
  unfold activate at h
  rw [Fallible.transaction_eq_ok, Fallible.bind_eq_ok] at h
  obtain ⟨target, read, htarget, h⟩ := h
  obtain ⟨hfound, hread⟩ := reading_eq_ok.mp htarget
  rw [hread] at h
  rw [Fallible.bind_eq_ok] at h
  obtain ⟨_, read, hasserted, h⟩ := h
  obtain ⟨hstatus, hread⟩ := reading_eq_ok.mp hasserted
  rw [hread] at h
  have happroved :=
    approved_of_active_mem (assertTransition_eq_ok.mp hstatus)
  rw [Fallible.bind_eq_ok] at h
  obtain ⟨_, swept, hswept, h⟩ := h
  rw [Table.updateMany, Fallible.change_apply, Prod.mk.injEq] at hswept
  have hrows : swept = policyVersionTable.put
      (db.policyVersions.map (superseded target.policyId now)) db := by
    rw [← hswept.2]
    unfold Table.modifyAll superseded
    simp only [decide_eq_true_eq]
    rfl
  rw [Fallible.bind_eq_ok] at h
  obtain ⟨active, written, hwritten, h⟩ := h
  obtain ⟨row, hrow, hactive, hwritten⟩ := Table.update_eq_ok.mp hwritten
  rw [Fallible.bind_eq_ok] at h
  obtain ⟨_, final, hfinal, h⟩ := h
  obtain ⟨policy, hpolicy, _, hfinal⟩ := Table.update_eq_ok.mp hfinal
  rw [Fallible.pure_apply, Prod.mk.injEq, Except.ok.injEq] at h
  obtain ⟨rfl, rfl⟩ := h
  subst hrows hwritten
  refine ⟨target, row, policy, requireVersion_eq_ok.mp hfound, happroved,
    hrow, hpolicy, hactive, ?_⟩
  rw [hfinal]
  rfl

theorem uniqueKeys_swept {rows : List PolicyVersion} (policyId : String)
    (now : ℤ) (hunique : KeyedTable.UniqueKeys PolicyVersion.id rows) :
    KeyedTable.UniqueKeys PolicyVersion.id
      (rows.map (superseded policyId now)) := by
  unfold KeyedTable.UniqueKeys
  have hsame : PolicyVersion.id ∘ superseded policyId now =
      PolicyVersion.id := funext (superseded_keepsKey policyId now)
  rw [List.map_map, hsame]
  exact hunique

/-- After the sweep only the activated row is active. -/
theorem filter_active_modify {rows : List PolicyVersion}
    {target : PolicyVersion} (now : ℤ)
    (hunique : KeyedTable.UniqueKeys PolicyVersion.id rows)
    (hinactive : ∀ v ∈ rows,
      ¬ (v.policyId = target.policyId ∧ v.status = .active))
    (hlookup : KeyedTable.lookup PolicyVersion.id target.id rows =
      some target) :
    (KeyedTable.modify PolicyVersion.id target.id (activated now)
        rows).filter
      (fun v => v.policyId = target.policyId ∧ v.status = .active) =
      [activated now target] := by
  have hselected : ∀ v ∈ rows,
      ((fun v : PolicyVersion =>
          decide (v.policyId = target.policyId ∧ v.status = .active)) ∘
        (fun v => if v.id = target.id then activated now v else v)) v =
        decide (v.id = target.id) := by
    intro v hv
    by_cases hid : v.id = target.id
    · have hfound := KeyedTable.lookup_of_mem hunique hv
      rw [hid, hlookup, Option.some.injEq] at hfound
      simp [← hfound, activated]
    · simp only [Function.comp_apply, hid, if_false, hinactive v hv,
        decide_false]
  unfold KeyedTable.modify
  rw [List.filter_map, List.filter_congr hselected,
    KeyedTable.filter_key hunique hlookup, List.map_singleton, if_pos rfl]

/-- The database before and after a successful activation. -/
structure Activates (companyId policyVersionId : String)
    (db db' : Database) (version : PolicyVersion) : Prop where
  named : version.id = policyVersionId
  found : ∃ target, getVersion companyId policyVersionId db = some target ∧
    target.policyId = version.policyId
  /-- No other version of the policy is active. -/
  only : activeVersions version.policyId db' = [version]
  owner : (policyTable.lookup version.policyId db').map Policy.companyId =
    some companyId
  policies : ∀ policyId,
    (getPolicy companyId policyId db').map
        (fun policy => (policy.id, policy.agentId)) =
      (getPolicy companyId policyId db).map
        (fun policy => (policy.id, policy.agentId))
  agents : db'.agents = db.agents
  unique : KeyedTable.UniqueKeys PolicyVersion.id db'.policyVersions

theorem activates_of_ok {companyId policyVersionId : String} {now : ℤ}
    {db db' : Database} {version : PolicyVersion}
    (hunique : KeyedTable.UniqueKeys PolicyVersion.id db.policyVersions)
    (h : activate companyId policyVersionId now db = (.ok version, db')) :
    Activates companyId policyVersionId db db' version := by
  obtain ⟨target, row, policy, hfound, happroved, hrow, hpolicy, hversion,
    hdb⟩ := activate_eq_ok h
  obtain ⟨hmem, hid, howned⟩ := getVersion_eq_some hfound
  have hkeep := superseded_keepsKey target.policyId now
  have hkept : superseded target.policyId now target = target := by
    unfold superseded
    rw [if_neg]
    simp [happroved]
  -- the sweep leaves the approved target as it was
  have hswept : KeyedTable.lookup PolicyVersion.id target.id
      (db.policyVersions.map (superseded target.policyId now)) =
        some target := by
    rw [KeyedTable.lookup_map hkeep, KeyedTable.lookup_of_mem hunique hmem,
      Option.map_some, hkept]
  rw [hswept, Option.some.injEq] at hrow
  subst hrow
  have hpolicyId : version.policyId = target.policyId := by
    rw [hversion, activated]
  have hrows : db'.policyVersions =
      KeyedTable.modify PolicyVersion.id target.id (activated now)
        (db.policyVersions.map (superseded target.policyId now)) := by
    rw [hdb]
    rfl
  have hpolicies : db'.policies = KeyedTable.modify Policy.id
      target.policyId (promoted version.version) db.policies := by
    rw [hdb]
    rfl
  have hkeys := uniqueKeys_swept target.policyId now hunique
  constructor
  · rw [hversion, activated]
    exact hid
  · exact ⟨target, hfound, hpolicyId.symm⟩
  · rw [hpolicyId, activeVersions, hrows, hversion]
    refine filter_active_modify now hkeys (fun v hv => ?_) hswept
    obtain ⟨u, _, rfl⟩ := List.mem_map.mp hv
    exact superseded_inactive target.policyId now u
  · have hcompany : policy.companyId = companyId := by
      unfold ownedBy at howned
      rw [hpolicy] at howned
      exact of_decide_eq_true howned
    have hlookup : policyTable.lookup target.policyId db' =
        some (promoted version.version policy) := by
      change KeyedTable.lookup Policy.id target.policyId db'.policies = _
      rw [hpolicies, KeyedTable.lookup_modify (promoted_keepsKey _),
        if_pos rfl]
      exact congrArg (Option.map (promoted version.version)) hpolicy
    rw [hpolicyId, hlookup, Option.map_some, promoted, hcompany]
  · intro policyId
    have hsame : getPolicy companyId policyId db' =
        (getPolicy companyId policyId db).map (fun policy =>
          if policy.id = target.policyId then
            promoted version.version policy
          else policy) := by
      change db'.policies.find? _ = _
      rw [hpolicies]
      exact @KeyedTable.find?_modify Policy String _ Policy.id _
        (promoted version.version) _ (fun _ => rfl) db.policies
    rw [hsame, Option.map_map]
    congr 1
    funext found
    simp only [Function.comp_apply]
    split <;> rfl
  · rw [hdb]
    rfl
  · rw [hrows]
    exact hkeys.modify (activated_keepsKey now) _

/-! ## What the other steps of the lifecycle keep -/

/-- What is in force of a policy: its company, where it is known, and its
active versions. -/
structure InForce (policyId : String) (companyId : Option String)
    (active : List PolicyVersion) (db : Database) : Prop where
  unique : KeyedTable.UniqueKeys PolicyVersion.id db.policyVersions
  owner : ∀ id, companyId = some id →
    (policyTable.lookup policyId db).map Policy.companyId = some id
  active : activeVersions policyId db = active

section

open Fallible (Keeps)

variable {policyId : String} {companyId : Option String}
  {active : List PolicyVersion}

/-- Writing a version that is not active, before and after. -/
theorem inForce_modify {db : Database} {id : String}
    {change : PolicyVersion → PolicyVersion} {version : PolicyVersion}
    (h : InForce policyId companyId active db)
    (hkeep : KeyedTable.KeepsKey PolicyVersion.id change)
    (hlookup : policyVersionTable.lookup id db = some version)
    (hbefore : version.status ≠ .active)
    (hafter : (change version).status ≠ .active) :
    InForce policyId companyId active (policyVersionTable.modify id change db)
    where
  unique := h.unique.modify hkeep id
  owner := h.owner
  active := by
    refine Eq.trans ?_ h.active
    exact KeyedTable.filter_modify h.unique hlookup (by simp [hbefore])
      (by simp [hafter])

theorem inForce_insert {db : Database} {version : PolicyVersion}
    (h : InForce policyId companyId active db)
    (hfresh : policyVersionTable.lookup version.id db = none)
    (hstatus : version.status ≠ .active) :
    InForce policyId companyId active (policyVersionTable.insert version db)
    where
  unique := h.unique.append_singleton hfresh
  owner := h.owner
  active := by
    refine Eq.trans ?_ h.active
    change (db.policyVersions ++ [version]).filter _ = _
    rw [List.filter_append, List.filter_cons_of_neg (by simp [hstatus]),
      List.filter_nil, List.append_nil]
    rfl

/-- A new policy does not change what is known of another one. -/
theorem inForce_insertPolicy {db : Database} {policy : Policy}
    (h : InForce policyId companyId active db) :
    InForce policyId companyId active (policyTable.insert policy db) where
  unique := h.unique
  owner := by
    intro id hid
    have howner := h.owner id hid
    have hlookup : policyTable.lookup policyId (policyTable.insert policy db) =
        (policyTable.lookup policyId db).or
          (if policy.id = policyId then some policy else none) :=
      KeyedTable.lookup_append_singleton policyId db.policies policy
    obtain ⟨found, hfound, hcompany⟩ := Option.map_eq_some_iff.mp howner
    rw [hlookup, hfound, Option.some_or, Option.map_some, hcompany]
  active := h.active

/-- A version that may move on to a state before activation is not
active. -/
theorem not_active_of_mem {status target : PolicyVersionStatus}
    (h : target ∈ versionTransitions status)
    (htarget : target = .validating ∨ target = .simulated ∨
      target = .approved) : status ≠ .active := by
  rintro rfl
  rcases htarget with rfl | rfl | rfl <;> simp [versionTransitions] at h

/-- A step that moves a version on to a state before activation. -/
theorem keeps_advance {companyId' policyVersionId : String}
    {target : PolicyVersionStatus} {change : PolicyVersion → PolicyVersion}
    (htarget : target = .validating ∨ target = .simulated ∨
      target = .approved)
    (hkeep : KeyedTable.KeepsKey PolicyVersion.id change)
    (hchange : ∀ version, (change version).status = target) :
    Keeps (InForce policyId companyId active) (do
      let current ← reading (requireVersion companyId' policyVersionId)
      let () ← reading (fun _ => assertTransition current.status target)
      policyVersionTable.update .recordNotFound current.id change :
        Service PolicyVersion) := by
  intro db hdb
  rcases reading_bind_cases (requireVersion companyId' policyVersionId)
      _ db with ⟨failure, _, hrun⟩ | ⟨current, hfound, hrun⟩
  · rw [hrun]
    exact hdb
  · rw [hrun]
    rcases reading_bind_cases
        (fun _ => assertTransition current.status target) _ db with
      ⟨failure, _, hrun⟩ | ⟨_, hstatus, hrun⟩
    · rw [hrun]
      exact hdb
    · rw [hrun]
      obtain ⟨hmem, _, _⟩ :=
        getVersion_eq_some (requireVersion_eq_ok.mp hfound)
      have hlookup : policyVersionTable.lookup current.id db =
          some current :=
        KeyedTable.lookup_of_mem hdb.unique hmem
      have hbefore :=
        not_active_of_mem (assertTransition_eq_ok.mp hstatus) htarget
      have hafter : (change current).status ≠ .active := by
        rw [hchange current]
        rcases htarget with rfl | rfl | rfl <;> simp
      have hwritten : (policyVersionTable.update Failure.recordNotFound
          current.id change) db =
            (.ok (change current),
              policyVersionTable.modify current.id change db) :=
        Table.update_eq_ok.mpr ⟨current, hlookup, rfl, rfl⟩
      rw [hwritten]
      exact inForce_modify hdb hkeep hlookup hbefore hafter

theorem keeps_transition (companyId' policyVersionId : String)
    {target : PolicyVersionStatus}
    (htarget : target = .validating ∨ target = .simulated ∨
      target = .approved) :
    Keeps (InForce policyId companyId active)
      (transition companyId' policyVersionId target) :=
  keeps_advance htarget (fun _ => rfl) (fun _ => rfl)

theorem keeps_approve (companyId' policyVersionId : String)
    (approvedBy : Option String) :
    Keeps (InForce policyId companyId active)
      (approve companyId' policyVersionId approvedBy) :=
  Keeps.transaction (keeps_advance (Or.inr (Or.inr rfl)) (fun _ => rfl)
    (fun _ => rfl))

theorem keeps_createRules (versionId : String) (rules : List CompiledRule)
    (uuid : ℕ → String) :
    Keeps (InForce policyId companyId active)
      (createRules versionId uuid rules) := by
  induction rules generalizing uuid with
  | nil => exact Fallible.keeps_pure _
  | cons rule rest ih =>
      have hcreate : Keeps (InForce policyId companyId active)
          (createRule versionId (uuid 0) rule) := by
        refine (Fallible.keeps_ofOption _ _).bind (fun priority => ?_)
        exact Table.keeps_create
          (fun db hdb _ => ⟨hdb.unique, hdb.owner, hdb.active⟩)
      exact hcreate.bind (fun _ => ih _)

theorem keeps_createDraft (rt : Runtime) (input : CreateDraftInput)
    (ids : DraftIds) :
    Keeps (InForce policyId companyId active)
      (createDraft rt input ids) := by
  have hpolicy : ∀ name uuid, Keeps (InForce policyId companyId active)
      (findOrCreatePolicy input name uuid) := by
    intro name uuid
    refine Keeps.bind (Fallible.keeps_query _) (fun found => ?_)
    cases found with
    | some policy => exact Fallible.keeps_pure _
    | none =>
        exact Table.keeps_create
          (fun db hdb _ => inForce_insertPolicy hdb)
  have hversion : ∀ id uuid rules, Keeps (InForce policyId companyId active)
      (createVersion rt input id uuid rules) := by
    intro id uuid rules
    refine Keeps.bind (Fallible.keeps_query _) (fun latest => ?_)
    exact Table.keeps_create
      (fun db hdb hallowed => inForce_insert hdb hallowed.1 (by simp))
  unfold createDraft
  refine Keeps.ite (Fallible.keeps_fail _) ?_
  refine Keeps.bind (keeps_reading _) (fun _ => ?_)
  refine Keeps.bind (Fallible.keeps_query _) (fun known => ?_)
  refine Keeps.ite ?_ (Fallible.keeps_fail _)
  refine Keeps.transaction ?_
  refine (hpolicy _ _).bind (fun policy => ?_)
  refine Keeps.bind (Fallible.keeps_ofOption _ _) (fun rules => ?_)
  refine (hversion _ _ _).bind (fun version => ?_)
  exact (keeps_createRules _ _ _).bind (fun _ => Fallible.keeps_pure _)

/-- What is in force is read from the policies and their versions. -/
theorem InForce.of_same {db db' : Database}
    (h : InForce policyId companyId active db)
    (hpolicies : db'.policies = db.policies)
    (hversions : db'.policyVersions = db.policyVersions) :
    InForce policyId companyId active db' where
  unique := by
    rw [hversions]
    exact h.unique
  owner := by
    intro id hid
    have howner := h.owner id hid
    change (KeyedTable.lookup Policy.id policyId db'.policies).map _ = _
    rw [hpolicies]
    exact howner
  active := by
    unfold activeVersions
    rw [hversions]
    exact h.active

end

end Policies
end Orvex
