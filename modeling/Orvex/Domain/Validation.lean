import Orvex.Domain.Delegation

/-!
# Validating a capability

A validation asks by id for what the authorization paths ask for by agent.
Both give the same answers in every state of a run, and a capability that was
revoked or has expired is never accepted again.
-/

namespace Orvex
namespace Capabilities

def getCapability (companyId capabilityId : String) (db : Database) :
    Option Capability :=
  capabilityTable.find (fun c => c.id = capabilityId ∧
    c.companyId = companyId) db

/-- The instant is not before the expiry. -/
def PastExpiry (now : ℤ) (capability : Capability) : Prop :=
  ∃ expiry, capability.expiresAt = some expiry ∧ expiry ≤ now

instance (now : ℤ) (capability : Capability) :
    Decidable (PastExpiry now capability) :=
  decidable_of_iff (capability.expiresAt.any (fun e => decide (e ≤ now)) =
    true) (by simp [PastExpiry, Option.any_eq_true])

def validateCapability (rt : Runtime) (companyId capabilityId : String)
    (now : ℤ) (db : Database) : Except Failure Capability :=
  match getCapability companyId capabilityId db with
  | none =>
      .error (.of .capabilityInvalid "Capability not found."
        [("capabilityId", capabilityId)])
  | some cap =>
      if cap.status = .revoked then
        .error (.of .capabilityInvalid "Capability has been revoked."
          [("capabilityId", capabilityId)])
      else if cap.status = .expired ∨ PastExpiry now cap then
        .error (.of .capabilityExpired "Capability has expired."
          (("capabilityId", capabilityId) ::
            (cap.expiresAt.map (fun expiry =>
              ("expiresAt", rt.toISOString expiry))).toList))
      else if now < cap.validFrom then
        .error (.of .capabilityInvalid "Capability is not yet valid."
          [("capabilityId", capabilityId),
            ("validFrom", rt.toISOString cap.validFrom)])
      else .ok cap

theorem usable_iff {now : ℤ} {c : Capability} :
    Usable now c ↔ c.status ≠ .revoked ∧
      ¬ (c.status = .expired ∨ PastExpiry now c) ∧ ¬ now < c.validFrom := by
  unfold Usable PastExpiry
  cases hstatus : c.status with
  | revoked => simp
  | expired => simp
  | active =>
      cases hexpiry : c.expiresAt with
      | none => simp
      | some expiry => simp [and_comm]

theorem validateCapability_eq_ok {rt : Runtime}
    {companyId capabilityId : String} {now : ℤ} {db : Database}
    {c : Capability} :
    validateCapability rt companyId capabilityId now db = .ok c ↔
      getCapability companyId capabilityId db = some c ∧ Usable now c := by
  unfold validateCapability
  cases hfound : getCapability companyId capabilityId db with
  | none => simp
  | some cap =>
      have husable := @usable_iff now cap
      by_cases hrevoked : cap.status = .revoked
      · simp only [hrevoked, if_true]
        constructor
        · intro h
          contradiction
        · rintro ⟨hsame, h⟩
          rw [← Option.some.inj hsame, husable] at h
          exact absurd hrevoked h.1
      · by_cases hexpired : cap.status = .expired ∨ PastExpiry now cap
        · simp only [if_neg hrevoked, if_pos hexpired]
          constructor
          · intro h
            contradiction
          · rintro ⟨hsame, h⟩
            rw [← Option.some.inj hsame, husable] at h
            exact absurd hexpired h.2.1
        · by_cases hearly : now < cap.validFrom
          · simp only [if_neg hrevoked, if_neg hexpired, if_pos hearly]
            constructor
            · intro h
              contradiction
            · rintro ⟨hsame, h⟩
              rw [← Option.some.inj hsame, husable] at h
              exact absurd hearly h.2.2
          · simp only [if_neg hrevoked, if_neg hexpired, if_neg hearly,
              Except.ok.injEq, Option.some.injEq]
            constructor
            · intro hsame
              rw [← hsame]
              exact ⟨rfl, husable.mpr ⟨hrevoked, hexpired, hearly⟩⟩
            · exact fun h => h.1

end Capabilities

namespace Authority

open Capabilities (getCapability getActiveCapabilities validateCapability
  PastExpiry Usable)

/-- The id and the tenant name one row. -/
theorem getCapability_iff {db : Database} (h : Placed db)
    {companyId capabilityId : String} {c : Capability} :
    getCapability companyId capabilityId db = some c ↔
      c ∈ db.capabilities ∧ c.id = capabilityId ∧
        c.companyId = companyId := by
  have hsound : ∀ {found}, getCapability companyId capabilityId db =
      some found → found ∈ db.capabilities ∧ found.id = capabilityId ∧
        found.companyId = companyId := by
    intro found hfound
    have hmem : found ∈ db.capabilities := List.mem_of_find?_eq_some hfound
    have htest := List.find?_some hfound
    rw [decide_eq_true_eq] at htest
    exact ⟨hmem, htest⟩
  constructor
  · exact hsound
  · rintro ⟨hmem, hid, hcompany⟩
    cases hfound : getCapability companyId capabilityId db with
    | none =>
        have hnot := List.find?_eq_none.mp hfound c hmem
        simp [hid, hcompany] at hnot
    | some other =>
        obtain ⟨hother, hotherId, -⟩ := hsound hfound
        have hsame : other = c := List.inj_on_of_nodup_map
          h.rooted.unique hother hmem (hotherId.trans hid.symm)
        rw [hsame]

/-- The row is the other one later on, and closed if it was closed. -/
structure Follows (c later : Capability) : Prop where
  terms : terms later = terms c
  closed : c.status ≠ .active → later.status ≠ .active

theorem Follows.trans {a b c : Capability} (hab : Follows a b)
    (hbc : Follows b c) : Follows a c :=
  ⟨hbc.terms.trans hab.terms, fun h => hbc.closed (hab.closed h)⟩

theorem Follows.columns {c later : Capability} (h : Follows c later) :
    later.id = c.id ∧ later.companyId = c.companyId ∧
      later.expiresAt = c.expiresAt := by
  have hterms := h.terms
  simp only [Authority.terms, Capability.mk.injEq] at hterms
  simp [hterms]

theorem follows_cascade (companyId capabilityId : String) (now : ℤ)
    (c : Capability) :
    Follows c (Capabilities.cascade companyId capabilityId now c) := by
  refine ⟨keepsTerms_cascade companyId capabilityId now c, ?_⟩
  intro h
  unfold Capabilities.cascade
  split
  · simp [Capabilities.revoke]
  · exact h

theorem follows_expire (p : Capability → Prop) [DecidablePred p]
    (c : Capability) :
    Follows c (if p c then Capabilities.expire c else c) := by
  refine ⟨keepsTerms_expire p c, ?_⟩
  intro h
  split
  · simp [Capabilities.expire]
  · exact h

/-- A call keeps every row, up to closing it. -/
theorem follows_perform (rt : Runtime) (call : Call) (db : Database)
    {c : Capability} (h : c ∈ db.capabilities) :
    ∃ later ∈ (call.perform rt db).capabilities, Follows c later := by
  have heffect := capabilities_perform rt call db
  generalize (call.perform rt db).capabilities = rows at heffect
  cases heffect with
  | unchanged => exact ⟨c, h, rfl, id⟩
  | created hcall hcreated =>
      exact ⟨c, List.mem_append_left _ h, rfl, id⟩
  | revoked hcall htarget =>
      exact ⟨_, List.mem_map_of_mem h, follows_cascade _ _ _ c⟩
  | @expired companyId now hcall =>
      have hrow := follows_expire (fun c : Capability =>
        c.companyId = companyId ∧ Capabilities.Overdue now c) c
      exact ⟨_, List.mem_map_of_mem h, hrow⟩

theorem follows_run (rt : Runtime) (calls : List Call) {db : Database}
    {c : Capability} (h : c ∈ db.capabilities) :
    ∃ later ∈ (run rt calls db).capabilities, Follows c later := by
  induction calls generalizing db c with
  | nil => exact ⟨c, h, rfl, id⟩
  | cons call rest ih =>
      obtain ⟨next, hnext, hfirst⟩ := follows_perform rt call db h
      obtain ⟨later, hlater, hrest⟩ := ih hnext
      exact ⟨later, hlater, hfirst.trans hrest⟩

theorem placed_run (rt : Runtime) (calls : List Call) {db : Database}
    (h : db.capabilities = []) : Placed (run rt calls db) :=
  run_keeps (fun _ _ hplaced _ => placed_perform hplaced)
    (placed_of_empty h) (meets_true calls db)

theorem run_append (rt : Runtime) (before after : List Call)
    (db : Database) :
    run rt (before ++ after) db = run rt after (run rt before db) :=
  List.foldl_append

/-- The capability was revoked or marked as expired, or its expiry has
come. -/
def ClosedAt (companyId capabilityId : String) (now : ℤ) (db : Database) :
    Prop :=
  ∃ c, getCapability companyId capabilityId db = some c ∧
    (c.status ≠ .active ∨ PastExpiry now c)

theorem not_usable_of_closed {c later : Capability} (h : Follows c later)
    {now after : ℤ} (hle : now ≤ after)
    (hclosed : c.status ≠ .active ∨ PastExpiry now c) :
    ¬ Usable after later := by
  intro husable
  rcases hclosed with hstatus | ⟨expiry, hexpiry, hpast⟩
  · exact h.closed hstatus husable.1
  · have hahead := Capabilities.ahead_of_expiry husable.2.2 expiry
      (h.columns.2.2.trans hexpiry)
    omega

/-- In every state of a run a validation accepts just the capabilities that
are listed as active, and what was closed at an instant is neither accepted
nor listed at any later one. -/
theorem closed_stays_closed (rt : Runtime) (db : Database)
    (hempty : db.capabilities = []) (before after : List Call)
    (companyId capabilityId : String) :
    (∀ now c,
      validateCapability rt companyId capabilityId now
          (run rt before db) = .ok c ↔
        c.id = capabilityId ∧ c ∈ getActiveCapabilities companyId c.agentId
          now (run rt before db)) ∧
    ∀ now later, now ≤ later →
      ClosedAt companyId capabilityId now (run rt before db) →
        ∀ c, validateCapability rt companyId capabilityId later
            (run rt (before ++ after) db) ≠ .ok c ∧
          ∀ agentId, c ∈ getActiveCapabilities companyId agentId later
            (run rt (before ++ after) db) → c.id ≠ capabilityId := by
  have hplaced := placed_run rt before hempty
  have hlast := placed_run rt (before ++ after) hempty
  constructor
  · intro now c
    rw [Capabilities.validateCapability_eq_ok, getCapability_iff hplaced,
      Capabilities.mem_getActiveCapabilities]
    tauto
  · intro now later hle hclosed
    obtain ⟨old, hold, hwhy⟩ := hclosed
    obtain ⟨hmem, hid, hcompany⟩ := (getCapability_iff hplaced).mp hold
    obtain ⟨kept, hkept, hfollows⟩ := follows_run rt after hmem
    rw [← run_append] at hkept
    have hunusable := not_usable_of_closed hfollows hle hwhy
    have hnone : ∀ c ∈ (run rt (before ++ after) db).capabilities,
        c.id = capabilityId → ¬ Usable later c := by
      intro c hc hcid
      have hsame : c = kept := List.inj_on_of_nodup_map
        hlast.rooted.unique hc hkept
          (hcid.trans (hid.symm.trans hfollows.columns.1.symm))
      rw [hsame]
      exact hunusable
    intro c
    constructor
    · intro hvalid
      obtain ⟨hfound, husable⟩ :=
        Capabilities.validateCapability_eq_ok.mp hvalid
      obtain ⟨hc, hcid, -⟩ := (getCapability_iff hlast).mp hfound
      exact hnone c hc hcid husable
    · intro agentId hactive hcid
      obtain ⟨hc, -, -, husable⟩ :=
        Capabilities.mem_getActiveCapabilities.mp hactive
      exact hnone c hc hcid husable

theorem revokedId_ne_empty : "root" ≠ "" := by decide

/-- One capability is created and then revoked. -/
def revokedCalls : List Call :=
  [.createCapability (sampleInput none (some 1000))
      (sampleUuid "root" revokedId_ne_empty) 0,
    .revokeCapability "acme" "root" 1]

theorem sample_closed_stays_closed :
    ClosedAt "acme" "root" 1 (run .reference revokedCalls sampleDb) ∧
      ∀ c, validateCapability .reference "acme" "root" 2000
          (run .reference (revokedCalls ++ earlyCalls) sampleDb) ≠ .ok c ∧
        ∀ agentId, c ∈ getActiveCapabilities "acme" agentId 2000
          (run .reference (revokedCalls ++ earlyCalls) sampleDb) →
            c.id ≠ "root" := by
  have hclosed : ClosedAt "acme" "root" 1
      (run .reference revokedCalls sampleDb) :=
    ⟨_, rfl, .inl (by decide)⟩
  exact ⟨hclosed, (closed_stays_closed .reference sampleDb rfl revokedCalls
    earlyCalls "acme" "root").2 1 2000 (by omega) hclosed⟩

end Authority
end Orvex
