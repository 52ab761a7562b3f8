import Orvex.Domain.Capabilities
import Orvex.Foundation.Lineage

/-!
# The calls that grant and withdraw authority

Constitutions and capabilities change by five calls.  A run is a list of
calls, each of them on what the calls before it left.  No call changes the
terms of a capability that exists, only whether it counts.
-/

namespace Orvex
namespace Authority

open Capabilities (CreateCapabilityInput Created WithinParent)
open Constitutions (CreateConstitutionInput)

/-- The id of a new row, which is never the empty text. -/
abbrev Uuid := { text : String // text ≠ "" }

inductive Call where
  | createConstitution (input : CreateConstitutionInput) (uuid : Uuid)
  | activateConstitution (companyId constitutionId : String) (now : ℤ)
  | createCapability (input : CreateCapabilityInput) (uuid : Uuid) (now : ℤ)
  | revokeCapability (companyId capabilityId : String) (now : ℤ)
  | expireCapabilities (companyId : String) (now : ℤ)

/-- The database after a call, whether it succeeds or fails. -/
def Call.perform (rt : Runtime) : Call → Database → Database
  | .createConstitution input uuid, db =>
      (Constitutions.createConstitution rt input uuid db).2
  | .activateConstitution companyId constitutionId now, db =>
      (Constitutions.activateConstitution companyId constitutionId now db).2
  | .createCapability input uuid now, db =>
      (Capabilities.createCapability rt input uuid now db).2
  | .revokeCapability companyId capabilityId now, db =>
      (Capabilities.revokeCapability companyId capabilityId now db).2
  | .expireCapabilities companyId now, db =>
      (Capabilities.expireCapabilities companyId now db).2

def run (rt : Runtime) (calls : List Call) (db : Database) : Database :=
  calls.foldl (fun db call => call.perform rt db) db

/-- Every call of the run meets the condition where it is made. -/
def Meets (rt : Runtime) (condition : Call → Database → Prop) :
    List Call → Database → Prop
  | [], _ => True
  | call :: rest, db =>
      condition call db ∧ Meets rt condition rest (call.perform rt db)

section Runs

variable {rt : Runtime} {condition : Call → Database → Prop}
  {inv : Database → Prop}

theorem Meets.of_prefix {calls first : List Call} {db : Database}
    (h : Meets rt condition calls db) (hfirst : first <+: calls) :
    Meets rt condition first db := by
  induction first generalizing calls db with
  | nil => trivial
  | cons call rest ih =>
      obtain ⟨later, rfl⟩ := hfirst
      exact ⟨h.1, ih h.2 (List.prefix_append rest later)⟩

theorem meets_true (calls : List Call) (db : Database) :
    Meets rt (fun _ _ => True) calls db := by
  induction calls generalizing db with
  | nil => trivial
  | cons call rest ih => exact ⟨trivial, ih _⟩

/-- What every call that meets the condition keeps holds after a run of such
calls. -/
theorem run_keeps
    (hstep : ∀ call db, inv db → condition call db →
      inv (call.perform rt db))
    {calls : List Call} {db : Database} (hinv : inv db)
    (hmeets : Meets rt condition calls db) : inv (run rt calls db) := by
  induction calls generalizing db with
  | nil => exact hinv
  | cons call rest ih => exact ih (hstep call db hinv hmeets.1) hmeets.2

end Runs

/-! ## What a call does to the capabilities -/

/-- A capability with the columns that a call may change set aside. -/
def terms (c : Capability) : Capability :=
  { c with status := .active, revokedAt := none }

/-- The change leaves the terms of every capability as they are. -/
def KeepsTerms (change : Capability → Capability) : Prop :=
  ∀ c, terms (change c) = terms c

theorem KeepsTerms.place {change : Capability → Capability}
    (h : KeepsTerms change) :
    Lineage.KeepsPlace Capability.id Capability.parentCapabilityId
      change := by
  intro c
  have hid : (terms (change c)).id = (terms c).id := by rw [h c]
  have hparent : (terms (change c)).parentCapabilityId =
      (terms c).parentCapabilityId := by rw [h c]
  exact ⟨hid, hparent⟩

theorem keepsTerms_cascade (companyId capabilityId : String) (now : ℤ) :
    KeepsTerms (Capabilities.cascade companyId capabilityId now) := by
  intro c
  unfold Capabilities.cascade
  split <;> rfl

theorem keepsTerms_expire (p : Capability → Prop) [DecidablePred p] :
    KeepsTerms (fun c => if p c then Capabilities.expire c else c) := by
  intro c
  simp only
  split <;> rfl

/-- What a call does to the capabilities: nothing, one more row, or a change
that keeps the terms of every row. -/
inductive Effect (rt : Runtime) (call : Call) (db : Database) :
    List Capability → Prop
  | unchanged : Effect rt call db db.capabilities
  | created {input : CreateCapabilityInput} {uuid : Uuid} {now : ℤ}
      {c : Capability} (hcall : call = .createCapability input uuid now)
      (h : Created rt input uuid now c db) :
      Effect rt call db (db.capabilities ++ [c])
  | revoked {companyId capabilityId : String} {now : ℤ}
      (hcall : call = .revokeCapability companyId capabilityId now)
      (htarget : ∃ target ∈ db.capabilities, target.id = capabilityId ∧
        target.companyId = companyId) :
      Effect rt call db (db.capabilities.map
        (Capabilities.cascade companyId capabilityId now))
  | expired {companyId : String} {now : ℤ}
      (hcall : call = .expireCapabilities companyId now) :
      Effect rt call db (db.capabilities.map (fun c =>
        if c.companyId = companyId ∧ Capabilities.Overdue now c then
          Capabilities.expire c else c))

theorem capabilities_perform (rt : Runtime) (call : Call) (db : Database) :
    Effect rt call db (call.perform rt db).capabilities := by
  have happart : constitutionTable.Apart Database.capabilities :=
    fun _ _ => rfl
  have hagents : agentTable.Apart Database.capabilities := fun _ _ => rfl
  cases call with
  | createConstitution input uuid =>
      have hsame := (Constitutions.preserves_createConstitution happart rt
        input uuid).apply db
      rw [Call.perform, hsame]
      exact .unchanged
  | activateConstitution companyId constitutionId now =>
      have hsame := (Constitutions.preserves_activateConstitution happart
        hagents companyId constitutionId now).apply db
      rw [Call.perform, hsame]
      exact .unchanged
  | createCapability input uuid now =>
      rw [Call.perform]
      rcases Capabilities.allOrNothing_createCapability rt input uuid now db
        with ⟨failure, hrun⟩ | ⟨c, db', hrun⟩
      · rw [hrun]
        exact .unchanged
      · obtain ⟨hcreated, hstate⟩ :=
          Capabilities.createCapability_eq_ok hrun
        rw [hrun, hstate]
        exact .created rfl hcreated
  | revokeCapability companyId capabilityId now =>
      rw [Call.perform]
      rcases Capabilities.revokeCapability_rows companyId capabilityId now db
        with hsame | ⟨htarget, hrows⟩
      · rw [hsame]
        exact .unchanged
      · rw [hrows]
        exact .revoked rfl htarget
  | expireCapabilities companyId now =>
      rw [Call.perform, Capabilities.expireCapabilities_rows]
      exact .expired rfl

/-! ## Every parent is there -/

/-- Every capability has an id of its own and a parent that is there. -/
structure Placed (db : Database) : Prop where
  rooted : Lineage.Rooted Capability.id Capability.parentCapabilityId
    db.capabilities
  named : ∀ c ∈ db.capabilities, c.id ≠ ""

theorem placed_of_empty {db : Database} (h : db.capabilities = []) :
    Placed db := by
  constructor
  · rw [h]
    exact Lineage.rooted_nil
  · simp [h]

variable {rt : Runtime} {input : CreateCapabilityInput} {uuid : Uuid}
  {now : ℤ} {c : Capability} {db : Database}

/-- The columns that a new capability takes from its request. -/
theorem created_terms (h : Created rt input uuid now c db) :
    c.id = uuid ∧ c.companyId = input.companyId ∧
      c.agentId = input.agentId ∧
      c.parentCapabilityId = input.parentCapabilityId ∧
      c.status = .active ∧ c.expiresAt = input.expiresAt := by
  rw [h.row]
  exact ⟨rfl, rfl, rfl, rfl, rfl, rfl⟩

theorem created_parent_mem (h : Created rt input uuid now c db) {p : String}
    (hp : c.parentCapabilityId = some p) :
    p ∈ db.capabilities.map Capability.id := by
  have hallowed := h.allowed
  unfold Capabilities.capabilityAllowed at hallowed
  rw [hp, Bool.and_eq_true] at hallowed
  by_contra hnot
  have hnone : capabilityTable.lookup p db = none :=
    KeyedTable.lookup_eq_none_iff.mpr hnot
  simp [hnone] at hallowed

/-- A new capability with a parent was compared with it. -/
theorem created_parent (hplaced : Placed db)
    (h : Created rt input uuid now c db) {parent : Capability}
    (hmem : parent ∈ db.capabilities)
    (hparent : c.parentCapabilityId = some parent.id) :
    parent.companyId = c.companyId ∧ parent.agentId = c.agentId ∧
      WithinParent rt input parent := by
  obtain ⟨_, hcompany, hagent, hlink, _⟩ := created_terms h
  have hchecked := (Capabilities.assertContained_eq_ok h.contained).2
    parent.id (hlink ▸ hparent) (hplaced.named parent hmem)
  obtain ⟨found, hfound, hwithin⟩ := hchecked
  obtain ⟨hin, hid, hfoundCompany, hfoundAgent⟩ :=
    Capabilities.findParent_eq_some hfound
  have hsame : found = parent :=
    List.inj_on_of_nodup_map hplaced.rooted.unique hin hmem hid
  subst hsame
  exact ⟨hfoundCompany.trans hcompany.symm, hfoundAgent.trans hagent.symm,
    Capabilities.assertWithinParent_eq_ok hwithin⟩

theorem placed_perform {call : Call} (h : Placed db) :
    Placed (call.perform rt db) := by
  have hchanged : ∀ change, KeepsTerms change →
      ∀ db' : Database, db'.capabilities = db.capabilities.map change →
        Placed db' := by
    intro change hterms db' hrows
    constructor
    · rw [hrows]
      exact h.rooted.map hterms.place
    · rw [hrows]
      intro c hc
      obtain ⟨old, hold, rfl⟩ := List.mem_map.mp hc
      rw [(hterms.place old).1]
      exact h.named old hold
  generalize hrows : (call.perform rt db).capabilities = rows
  have heffect := capabilities_perform rt call db
  rw [hrows] at heffect
  cases heffect with
  | unchanged =>
      constructor
      · rw [hrows]
        exact h.rooted
      · rw [hrows]
        exact h.named
  | @created input uuid now new hcall hcreated =>
      constructor
      · rw [hrows]
        exact h.rooted.append hcreated.fresh
          (fun p hp => created_parent_mem hcreated hp)
      · rw [hrows]
        intro c hc
        rcases List.mem_append.mp hc with hold | hnew
        · exact h.named c hold
        · rw [List.mem_singleton.mp hnew, (created_terms hcreated).1]
          exact uuid.property
  | revoked hcall htarget => exact hchanged _ (keepsTerms_cascade _ _ _) _ hrows
  | expired hcall => exact hchanged _ (keepsTerms_expire _) _ hrows

/-! ## What holds of every capability and its parent -/

/-- A relation between a capability and its parent that reads their terms
only. -/
def OfTerms (related : Capability → Capability → Prop) : Prop :=
  ∀ p c, related p c ↔ related (terms p) (terms c)

/-- The relation holds of every capability and its parent. -/
def Linked (related : Capability → Capability → Prop) (db : Database) :
    Prop :=
  ∀ p ∈ db.capabilities, ∀ c ∈ db.capabilities,
    c.parentCapabilityId = some p.id → related p c

theorem linked_of_empty {related : Capability → Capability → Prop}
    (h : db.capabilities = []) : Linked related db := by
  simp [Linked, h]

/-- What a new capability and its parent are related by stays so. -/
theorem linked_perform {related : Capability → Capability → Prop}
    (hterms : OfTerms related) {call : Call}
    (hnew : ∀ input uuid now c, call = .createCapability input uuid now →
      Created rt input uuid now c db → ∀ p ∈ db.capabilities,
        c.parentCapabilityId = some p.id → related p c)
    (hplaced : Placed db) (h : Linked related db) :
    Linked related (call.perform rt db) := by
  have hchanged : ∀ change, KeepsTerms change →
      ∀ db' : Database, db'.capabilities = db.capabilities.map change →
        Linked related db' := by
    intro change hkeep db' hrows
    unfold Linked
    rw [hrows]
    intro p' hp' c' hc' hlink
    obtain ⟨p, hp, rfl⟩ := List.mem_map.mp hp'
    obtain ⟨c, hc, rfl⟩ := List.mem_map.mp hc'
    rw [(hkeep.place c).2, (hkeep.place p).1] at hlink
    rw [hterms, hkeep p, hkeep c, ← hterms]
    exact h p hp c hc hlink
  generalize hrows : (call.perform rt db).capabilities = rows
  have heffect := capabilities_perform rt call db
  rw [hrows] at heffect
  cases heffect with
  | unchanged =>
      unfold Linked
      rw [hrows]
      exact h
  | @created input uuid now new hcall hcreated =>
      have hfresh := KeyedTable.lookup_eq_none_iff.mp hcreated.fresh
      unfold Linked
      rw [hrows]
      intro p hp c hc hlink
      -- the new row is no one's parent
      have hold : p ∈ db.capabilities := by
        rcases List.mem_append.mp hp with hold | hnew
        · exact hold
        · rw [List.mem_singleton] at hnew
          subst hnew
          rcases List.mem_append.mp hc with hc | hc
          · exact absurd (hplaced.rooted.parents c hc _ hlink) hfresh
          · rw [List.mem_singleton] at hc
            subst hc
            exact absurd (created_parent_mem hcreated hlink) hfresh
      rcases List.mem_append.mp hc with hc | hc
      · exact h p hold c hc hlink
      · rw [List.mem_singleton] at hc
        subst hc
        exact hnew input uuid now c hcall hcreated p hold hlink
  | revoked hcall htarget => exact hchanged _ (keepsTerms_cascade _ _ _) _ hrows
  | expired hcall => exact hchanged _ (keepsTerms_expire _) _ hrows

end Authority
end Orvex
