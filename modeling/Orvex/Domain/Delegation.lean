import Orvex.Domain.Authority
import Orvex.Core.Pinned
import Mathlib.Order.WithBot

/-!
# Delegation

A capability may be delegated, again and again.  What a delegated capability
admits should be admitted by everything above it, and it should count only
while everything above it does.
-/

namespace Orvex

/-- A DECIMAL column rounds: it keeps the order of values and what it has
kept already. -/
structure Runtime.ColumnRounds (rt : Runtime) : Prop where
  monotone : ∀ x y v w, x ≤ y → rt.column x = some v →
    rt.column y = some w → v ≤ w
  idempotent : ∀ x v, rt.column x = some v → rt.column v = some v

theorem Runtime.Exact.columnRounds {rt : Runtime} (h : rt.Exact) :
    rt.ColumnRounds := by
  constructor
  · intro x y v w hle hv hw
    rw [h.column, Option.some.injEq] at hv hw
    rw [← hv, ← hw]
    exact hle
  · intro x v _
    exact h.column v

namespace Authority

open Capabilities (CreateCapabilityInput Created WithinParent)
open Lineage (Above)

/-- `a` is a parent of `c`, or a parent of a parent, and so on. -/
abbrev Ancestor (rows : List Capability) (a c : Capability) : Prop :=
  Above Capability.id Capability.parentCapabilityId rows a.id c.id

/-! ## What a capability admits -/

/-- What is asked of a capability. -/
structure Use where
  action : String
  asset : String
  network : String
  category : String
  recipient : String
  amount : ℚ
  instant : ℤ

/-- A value is pinned unless the pin is absent or empty. -/
def PinAdmits (pin : Option String) (value : String) : Prop :=
  truthy pin = true → pin = some value

/-- A scope lists what it admits unless it is absent or empty. -/
def ScopeAdmits (scope : Option (List String)) (value : String) : Prop :=
  scope.getD [] = [] ∨ value ∈ scope.getD []

/-- An absent limit is no limit. -/
def bound : Option ℚ → WithTop ℚ
  | none => ⊤
  | some limit => limit

/-- From `validFrom` on, until the expiry. -/
def ValidAt (c : Capability) (instant : ℤ) : Prop :=
  c.validFrom ≤ instant ∧ ∀ expiry, c.expiresAt = some expiry →
    instant < expiry

/-- What the capability admits while it is valid. -/
def scope (c : Capability) : Set Use :=
  {use | use.action = c.action ∧ PinAdmits c.asset use.asset ∧
    PinAdmits c.network use.network ∧
    ScopeAdmits c.categoryScopeJson use.category ∧
    ScopeAdmits c.recipientScopeJson use.recipient ∧
    (use.amount : WithTop ℚ) ≤ bound c.singleTransactionLimit}

def authority (c : Capability) : Set Use :=
  {use ∈ scope c | ValidAt c use.instant}

/-- What `c` admits, `a` admits, and the limits of `c` are at most those of
`a`. -/
structure ContainedIn (a c : Capability) : Prop where
  authority : authority c ⊆ authority a
  daily : bound c.dailyLimit ≤ bound a.dailyLimit
  weekly : bound c.weeklyLimit ≤ bound a.weeklyLimit
  monthly : bound c.monthlyLimit ≤ bound a.monthlyLimit

theorem ContainedIn.trans {a b c : Capability} (hab : ContainedIn a b)
    (hbc : ContainedIn b c) : ContainedIn a c where
  authority := hbc.authority.trans hab.authority
  daily := hbc.daily.trans hab.daily
  weekly := hbc.weekly.trans hab.weekly
  monthly := hbc.monthly.trans hab.monthly

theorem pinAdmits_of_matches {child parent : Option String} {value : String}
    (hmatches : Capabilities.pinMatches child parent = true)
    (h : PinAdmits child value) : PinAdmits parent value := by
  intro hparent
  unfold Capabilities.pinMatches at hmatches
  simp only [hparent, Bool.not_true, Bool.false_or,
    decide_eq_true_eq] at hmatches
  rw [← hmatches]
  exact h (hmatches ▸ hparent)

theorem scopeAdmits_of_within {child parent : Option (List String)}
    {value : String}
    (hwithin : Capabilities.scopeWithinParent child parent = true)
    (h : ScopeAdmits child value) : ScopeAdmits parent value := by
  cases parent with
  | none => exact Or.inl rfl
  | some allowed =>
      cases allowed with
      | nil => exact Or.inl rfl
      | cons first others =>
          cases child with
          | none => simp [Capabilities.scopeWithinParent] at hwithin
          | some scope =>
              cases scope with
              | nil => simp [Capabilities.scopeWithinParent] at hwithin
              | cons head rest =>
                  have hall : ∀ c ∈ head :: rest, c ∈ first :: others := by
                    simpa [Capabilities.scopeWithinParent] using hwithin
                  rcases h with hempty | hmem
                  · exact absurd hempty (List.cons_ne_nil _ _)
                  · exact Or.inr (hall value hmem)

/-- The limits of a capability were kept by their columns. -/
def Kept (rt : Runtime) (limit : Option ℚ) : Prop :=
  ∀ l, limit = some l → rt.column l = some l

theorem kept_limitColumn {rt : Runtime} (hcolumns : rt.ColumnRounds)
    {text : Option String} {stored : Option ℚ}
    (h : Capabilities.limitColumn rt text = some stored) : Kept rt stored := by
  intro l hl
  subst hl
  cases text with
  | none => simp [Capabilities.limitColumn] at h
  | some text =>
      simp only [Capabilities.limitColumn, Option.map_eq_some_iff,
        Option.some.injEq, exists_eq_right] at h
      obtain ⟨x, _, hx⟩ := Runtime.storeText_eq_some h
      exact hcolumns.idempotent x l hx

/-- A limit that was checked is at most the limit of the parent, also after
its column has rounded it. -/
theorem bound_le_of_checked {rt : Runtime} (hcolumns : rt.ColumnRounds)
    {text : Option String} {stored parent : Option ℚ}
    (hchecked : Capabilities.LimitChecked rt text parent)
    (hstored : Capabilities.limitColumn rt text = some stored)
    (hparent : Kept rt parent) : bound stored ≤ bound parent := by
  cases parent with
  | none => exact le_top
  | some p =>
      obtain ⟨child, hchild, hwithin⟩ := hchecked
      cases text with
      | none =>
          simp only [Capabilities.optDecimal, Except.ok.injEq] at hchild
          subst hchild
          simp [Capabilities.limitWithinParent] at hwithin
      | some text =>
          simp only [Capabilities.limitColumn, Option.map_eq_some_iff]
            at hstored
          obtain ⟨v, hv, rfl⟩ := hstored
          obtain ⟨x, hx, hcolumn⟩ := Runtime.storeText_eq_some hv
          have hread : child = some (.finite x) := by
            simpa [Capabilities.optDecimal, hx, decimalOf, eq_comm]
              using hchild
          subst hread
          have hle : x ≤ p := by
            simpa [Capabilities.limitWithinParent] using hwithin
          have hstored := hcolumns.monotone x p v p hle hcolumn
            (hparent p rfl)
          exact WithTop.coe_le_coe.mpr hstored

/-- The scopes of a new capability are within those of its parent. -/
structure Narrowed (p c : Capability) : Prop where
  action : p.action = c.action
  asset : Capabilities.pinMatches c.asset p.asset = true
  network : Capabilities.pinMatches c.network p.network = true
  categories : Capabilities.scopeWithinParent c.categoryScopeJson
    p.categoryScopeJson = true
  recipients : Capabilities.scopeWithinParent c.recipientScopeJson
    p.recipientScopeJson = true
  single : bound c.singleTransactionLimit ≤ bound p.singleTransactionLimit
  daily : bound c.dailyLimit ≤ bound p.dailyLimit
  weekly : bound c.weeklyLimit ≤ bound p.weeklyLimit
  monthly : bound c.monthlyLimit ≤ bound p.monthlyLimit
  expiry : Capabilities.outlives c.expiresAt p.expiresAt = false

theorem ofTerms_narrowed : OfTerms Narrowed :=
  fun _ _ => ⟨fun ⟨h1, h2, h3, h4, h5, h6, h7, h8, h9, h10⟩ =>
      ⟨h1, h2, h3, h4, h5, h6, h7, h8, h9, h10⟩,
    fun ⟨h1, h2, h3, h4, h5, h6, h7, h8, h9, h10⟩ =>
      ⟨h1, h2, h3, h4, h5, h6, h7, h8, h9, h10⟩⟩

theorem expiry_le_of_outlives {child parent : Option ℤ}
    (h : Capabilities.outlives child parent = false) :
    ∀ last, parent = some last → ∃ expiry, child = some expiry ∧
      expiry ≤ last := by
  intro last hlast
  subst hlast
  cases child with
  | none => simp [Capabilities.outlives] at h
  | some expiry =>
      refine ⟨expiry, rfl, ?_⟩
      simpa [Capabilities.outlives] using h

/-- Only the first instant of a delegated capability can leave what its
parent admits. -/
theorem containedIn_iff {p c : Capability} (h : Narrowed p c) :
    ContainedIn p c ↔
      ((∃ instant, ValidAt c instant) → p.validFrom ≤ c.validFrom) := by
  constructor
  · rintro hcontained ⟨instant, hfrom, huntil⟩
    -- the first instant of `c` at which it admits anything is `validFrom`
    obtain ⟨amount, hamount⟩ : ∃ amount : ℚ,
        (amount : WithTop ℚ) ≤ bound c.singleTransactionLimit := by
      cases c.singleTransactionLimit with
      | none => exact ⟨0, le_top⟩
      | some limit => exact ⟨limit, le_refl _⟩
    have hpin : ∀ pin : Option String, PinAdmits pin (pin.getD "") := by
      intro pin htruthy
      cases pin with
      | none => simp at htruthy
      | some value => rfl
    have hscope : ∀ scope : Option (List String),
        ScopeAdmits scope ((scope.getD []).headD "") := by
      intro scope
      cases hlist : scope.getD [] with
      | nil => exact Or.inl hlist
      | cons head rest =>
          refine Or.inr ?_
          rw [hlist]
          exact List.mem_cons_self
    have hfirst : (⟨c.action, c.asset.getD "", c.network.getD "",
        (c.categoryScopeJson.getD []).headD "",
        (c.recipientScopeJson.getD []).headD "", amount, c.validFrom⟩ : Use) ∈
          authority c := by
      refine ⟨⟨rfl, hpin _, hpin _, hscope _, hscope _, hamount⟩, le_refl _,
        ?_⟩
      intro expiry hexpiry
      exact lt_of_le_of_lt hfrom (huntil expiry hexpiry)
    obtain ⟨_, hvalid⟩ := hcontained.authority hfirst
    exact hvalid.1
  · intro hstart
    refine ⟨?_, h.daily, h.weekly, h.monthly⟩
    rintro use ⟨⟨haction, hasset, hnetwork, hcategory, hrecipient, hamount⟩,
      hvalid⟩
    have hfrom := hstart ⟨use.instant, hvalid⟩
    refine ⟨⟨haction.trans h.action.symm, pinAdmits_of_matches h.asset hasset,
      pinAdmits_of_matches h.network hnetwork,
      scopeAdmits_of_within h.categories hcategory,
      scopeAdmits_of_within h.recipients hrecipient,
      hamount.trans h.single⟩, hfrom.trans hvalid.1, ?_⟩
    intro last hlast
    obtain ⟨expiry, hexpiry, hle⟩ := expiry_le_of_outlives h.expiry last hlast
    exact lt_of_lt_of_le (hvalid.2 expiry hexpiry) hle

/-! ## Every chain of delegations -/

/-- What the calls keep: parents are there, limits were kept by their
columns, and every delegated capability was narrowed. -/
structure Delegating (rt : Runtime) (db : Database) : Prop where
  placed : Placed db
  kept : ∀ c ∈ db.capabilities, Kept rt c.singleTransactionLimit ∧
    Kept rt c.dailyLimit ∧ Kept rt c.weeklyLimit ∧ Kept rt c.monthlyLimit
  narrowed : Linked Narrowed db

theorem narrowed_of_created {rt : Runtime} (hcolumns : rt.ColumnRounds)
    {input : CreateCapabilityInput} {uuid : Uuid} {now : ℤ}
    {c p : Capability} {db : Database} (h : Delegating rt db)
    (hcreated : Created rt input uuid now c db) (hp : p ∈ db.capabilities)
    (hlink : c.parentCapabilityId = some p.id) : Narrowed p c := by
  obtain ⟨_, _, hwithin⟩ := created_parent h.placed hcreated hp hlink
  obtain ⟨hsingle, hdaily, hweekly, hmonthly⟩ := h.kept p hp
  have hrow := hcreated.row
  exact
    { action := by rw [hrow]; exact hwithin.action
      asset := by rw [hrow]; exact hwithin.asset
      network := by rw [hrow]; exact hwithin.network
      categories := by rw [hrow]; exact hwithin.categories
      recipients := by rw [hrow]; exact hwithin.recipients
      single := bound_le_of_checked hcolumns hwithin.single hcreated.single
        hsingle
      daily := bound_le_of_checked hcolumns hwithin.daily hcreated.daily
        hdaily
      weekly := bound_le_of_checked hcolumns hwithin.weekly hcreated.weekly
        hweekly
      monthly := bound_le_of_checked hcolumns hwithin.monthly
        hcreated.monthly hmonthly
      expiry := by rw [hrow]; exact hwithin.expiry }

theorem kept_perform {rt : Runtime} (hcolumns : rt.ColumnRounds)
    {call : Call} {db : Database} (h : Delegating rt db) :
    ∀ c ∈ (call.perform rt db).capabilities,
      Kept rt c.singleTransactionLimit ∧ Kept rt c.dailyLimit ∧
        Kept rt c.weeklyLimit ∧ Kept rt c.monthlyLimit := by
  have hchanged : ∀ change, KeepsTerms change →
      ∀ c ∈ db.capabilities.map change, Kept rt c.singleTransactionLimit ∧
        Kept rt c.dailyLimit ∧ Kept rt c.weeklyLimit ∧
          Kept rt c.monthlyLimit := by
    intro change hkeep c hc
    obtain ⟨old, hold, rfl⟩ := List.mem_map.mp hc
    have hterms := hkeep old
    have hlimits := h.kept old hold
    change Kept rt (terms (change old)).singleTransactionLimit ∧
      Kept rt (terms (change old)).dailyLimit ∧
      Kept rt (terms (change old)).weeklyLimit ∧
      Kept rt (terms (change old)).monthlyLimit
    rw [hterms]
    exact hlimits
  have heffect := capabilities_perform rt call db
  generalize (call.perform rt db).capabilities = rows at heffect
  cases heffect with
  | unchanged => exact h.kept
  | @created input uuid now new hcall hcreated =>
      intro c hc
      rcases List.mem_append.mp hc with hold | hnew
      · exact h.kept c hold
      · rw [List.mem_singleton.mp hnew]
        exact ⟨kept_limitColumn hcolumns hcreated.single,
          kept_limitColumn hcolumns hcreated.daily,
          kept_limitColumn hcolumns hcreated.weekly,
          kept_limitColumn hcolumns hcreated.monthly⟩
  | revoked hcall htarget => exact hchanged _ (keepsTerms_cascade _ _ _)
  | expired hcall => exact hchanged _ (keepsTerms_expire _)

theorem delegating_perform {rt : Runtime} (hcolumns : rt.ColumnRounds)
    {call : Call} {db : Database} (h : Delegating rt db) :
    Delegating rt (call.perform rt db) where
  placed := placed_perform h.placed
  kept := kept_perform hcolumns h
  narrowed := linked_perform ofTerms_narrowed
    (fun _ _ _ _ _ hcreated _ hp hlink =>
      narrowed_of_created hcolumns h hcreated hp hlink)
    h.placed h.narrowed

theorem delegating_of_run {rt : Runtime} (hcolumns : rt.ColumnRounds)
    (calls : List Call) {db : Database} (hempty : db.capabilities = []) :
    Delegating rt (run rt calls db) := by
  have hstart : Delegating rt db :=
    ⟨placed_of_empty hempty, by simp [hempty], linked_of_empty hempty⟩
  exact run_keeps (fun _ _ h _ => delegating_perform hcolumns h) hstart
    (meets_true calls db)

/-- Along every chain of delegations that the calls can make, authority is
contained exactly when no delegated capability starts before its parent,
unless it is never valid. -/
theorem chain_contained_iff (rt : Runtime) (hcolumns : rt.ColumnRounds)
    (calls : List Call) (db : Database) (hempty : db.capabilities = []) :
    (∀ a ∈ (run rt calls db).capabilities,
      ∀ c ∈ (run rt calls db).capabilities,
        Ancestor (run rt calls db).capabilities a c → ContainedIn a c) ↔
    ∀ p ∈ (run rt calls db).capabilities,
      ∀ c ∈ (run rt calls db).capabilities,
        c.parentCapabilityId = some p.id → (∃ instant, ValidAt c instant) →
          p.validFrom ≤ c.validFrom := by
  have hrun := delegating_of_run hcolumns calls hempty
  constructor
  · intro hcontained p hp c hc hlink
    have habove : Ancestor (run rt calls db).capabilities p c :=
      Relation.TransGen.single ⟨c, hc, rfl, hlink⟩
    exact (containedIn_iff (hrun.narrowed p hp c hc hlink)).mp
      (hcontained p hp c hc habove)
  · intro hstart a ha c hc habove
    refine @Lineage.related_of_above Capability String Capability.id
      Capability.parentCapabilityId _ hrun.placed.rooted ContainedIn
      (fun a b c => ContainedIn.trans) ?_ a c ha hc habove
    intro p hp c hc hlink
    exact (containedIn_iff (hrun.narrowed p hp c hc hlink)).mpr
      (hstart p hp c hc hlink)

/-! ### A delegation that starts early -/

def sampleAgent : Agent where
  id := "agent-1"
  companyId := "acme"
  name := "payer"
  purpose := ""
  status := .active
  executionMode := .simulate
  activeConstitutionId := none
  activePolicyId := none

def sampleDb : Database :=
  { Database.empty with companies := ["acme"], agents := [sampleAgent] }

/-- A transfer capability without limits. -/
def sampleInput (parentId : Option String) (validFrom : Option ℤ) :
    CreateCapabilityInput where
  companyId := "acme"
  agentId := "agent-1"
  action := "transfer"
  asset := none
  network := none
  categoryScope := none
  recipientScope := none
  singleTransactionLimit := none
  dailyLimit := none
  weeklyLimit := none
  monthlyLimit := none
  validFrom := validFrom
  expiresAt := none
  parentCapabilityId := parentId
  createdBy := none

def sampleUuid (text : String) (h : text ≠ "" := by decide) : Uuid := ⟨text, h⟩

/-- The parent starts at 1000, and its child when it is made. -/
def earlyCalls : List Call :=
  [.createCapability (sampleInput none (some 1000)) (sampleUuid "root") 0,
    .createCapability (sampleInput (some "root") none) (sampleUuid "child") 0]

theorem sample_chain_contained :
    (∀ a ∈ (run Runtime.reference earlyCalls sampleDb).capabilities,
      ∀ c ∈ (run Runtime.reference earlyCalls sampleDb).capabilities,
        Ancestor (run Runtime.reference earlyCalls sampleDb).capabilities a c →
          ContainedIn a c) ↔
    ∀ p ∈ (run Runtime.reference earlyCalls sampleDb).capabilities,
      ∀ c ∈ (run Runtime.reference earlyCalls sampleDb).capabilities,
        c.parentCapabilityId = some p.id → (∃ instant, ValidAt c instant) →
          p.validFrom ≤ c.validFrom :=
  chain_contained_iff Runtime.reference
    Runtime.reference_exact.columnRounds earlyCalls sampleDb rfl

theorem early_child_exceeds_parent :
    ∃ a ∈ (run Runtime.reference earlyCalls sampleDb).capabilities,
      ∃ c ∈ (run Runtime.reference earlyCalls sampleDb).capabilities,
        Ancestor (run Runtime.reference earlyCalls sampleDb).capabilities a c ∧
          ¬ ContainedIn a c := by
  have hrows : (run Runtime.reference earlyCalls sampleDb).capabilities =
      [Capabilities.newCapability (sampleInput none (some 1000)) "root" 0 none
          none none none,
        Capabilities.newCapability (sampleInput (some "root") none) "child" 0
          none none none none] := by
    decide
  rw [hrows]
  refine ⟨_, List.mem_cons_self, _, List.mem_cons_of_mem _ List.mem_cons_self,
    Relation.TransGen.single ⟨_, List.mem_cons_of_mem _ List.mem_cons_self,
      rfl, rfl⟩, ?_⟩
  intro hcontained
  let use : Use := ⟨"transfer", "USDC", "base", "food", "bob", 1, 0⟩
  have hchild : use ∈ authority (Capabilities.newCapability
      (sampleInput (some "root") none) "child" 0 none none none none) := by
    simp [use, authority, scope, Capabilities.newCapability, sampleInput,
      PinAdmits, ScopeAdmits, bound, ValidAt]
  obtain ⟨_, hfrom, _⟩ := hcontained.authority hchild
  simp [use, Capabilities.newCapability, sampleInput] at hfrom

/-! ## Revocation along a chain -/

/-- What counts for an agent at any time has only ancestors that are active
and not expired. -/
def RevocationCloses (db : Database) : Prop :=
  ∀ companyId agentId now,
    ∀ c ∈ Capabilities.getActiveCapabilities companyId agentId now db,
      ∀ a ∈ db.capabilities, Ancestor db.capabilities a c →
        a.status = .active ∧ ∀ expiry, a.expiresAt = some expiry →
          now < expiry

/-- A revocation does not reach further than the children: none of them has
an active child of its own. -/
def Shallow : Call → Database → Prop
  | .revokeCapability companyId capabilityId _, db =>
      (∃ target ∈ db.capabilities, target.id = capabilityId ∧
        target.companyId = companyId) →
      ∀ c ∈ db.capabilities, c.parentCapabilityId = some capabilityId →
        ∀ g ∈ db.capabilities, g.parentCapabilityId = some c.id →
          g.status ≠ .active
  | _, _ => True

/-- A delegated capability is of the company of its parent and does not
outlive it. -/
structure Outlived (p c : Capability) : Prop where
  company : c.companyId = p.companyId
  expiry : ∀ last, p.expiresAt = some last →
    ∃ expiry, c.expiresAt = some expiry ∧ expiry ≤ last

theorem Outlived.trans {a b c : Capability} (hab : Outlived a b)
    (hbc : Outlived b c) : Outlived a c := by
  refine ⟨hbc.company.trans hab.company, ?_⟩
  intro last hlast
  obtain ⟨middle, hmiddle, hle⟩ := hab.expiry last hlast
  obtain ⟨expiry, hexpiry, hle'⟩ := hbc.expiry middle hmiddle
  exact ⟨expiry, hexpiry, hle'.trans hle⟩

theorem ofTerms_outlived : OfTerms Outlived :=
  fun _ _ => ⟨fun h => ⟨h.company, h.expiry⟩, fun h => ⟨h.company, h.expiry⟩⟩

/-- What is above an active capability is active. -/
structure Upright (db : Database) : Prop where
  placed : Placed db
  outlived : Linked Outlived db
  active : ∀ a ∈ db.capabilities, ∀ c ∈ db.capabilities,
    Ancestor db.capabilities a c → c.status = .active → a.status = .active

theorem Upright.outlived_of_ancestor {db : Database} (h : Upright db)
    {a c : Capability} (ha : a ∈ db.capabilities) (hc : c ∈ db.capabilities)
    (habove : Ancestor db.capabilities a c) : Outlived a c :=
  @Lineage.related_of_above Capability String Capability.id
    Capability.parentCapabilityId _ h.placed.rooted Outlived
    (fun _ _ _ => Outlived.trans) h.outlived a c ha hc habove

theorem Upright.closes {db : Database} (h : Upright db) :
    RevocationCloses db := by
  intro companyId agentId now c hc a ha habove
  obtain ⟨hmem, _, _, hactive, _, hopen⟩ :=
    Capabilities.mem_getActiveCapabilities.mp hc
  refine ⟨h.active a ha c hmem habove hactive, ?_⟩
  intro last hlast
  obtain ⟨expiry, hexpiry, hle⟩ :=
    (h.outlived_of_ancestor ha hmem habove).expiry last hlast
  have hahead := Capabilities.ahead_of_expiry hopen expiry hexpiry
  omega

theorem outlived_of_created {rt : Runtime} {input : CreateCapabilityInput}
    {uuid : Uuid} {now : ℤ} {c p : Capability} {db : Database}
    (hplaced : Placed db) (hcreated : Created rt input uuid now c db)
    (hp : p ∈ db.capabilities)
    (hlink : c.parentCapabilityId = some p.id) : Outlived p c := by
  obtain ⟨hcompany, _, hwithin⟩ := created_parent hplaced hcreated hp hlink
  refine ⟨hcompany.symm, ?_⟩
  rw [(created_terms hcreated).2.2.2.2.2]
  exact expiry_le_of_outlives hwithin.expiry

/-- A new capability has an active parent, and everything above that is
active. -/
theorem active_created {rt : Runtime} {input : CreateCapabilityInput}
    {uuid : Uuid} {now : ℤ} {new : Capability} {db : Database}
    (h : Upright db) (hcreated : Created rt input uuid now new db)
    {a c : Capability} (ha : a ∈ db.capabilities ++ [new])
    (hc : c ∈ db.capabilities ++ [new])
    (habove : Ancestor (db.capabilities ++ [new]) a c)
    (hactive : c.status = .active) : a.status = .active := by
  have hfresh := KeyedTable.lookup_eq_none_iff.mp hcreated.fresh
  have hold : ∀ x ∈ db.capabilities ++ [new],
      x.id ∈ db.capabilities.map Capability.id → x ∈ db.capabilities := by
    intro x hx hid
    rcases List.mem_append.mp hx with hmem | hnew
    · exact hmem
    · exact absurd (List.mem_singleton.mp hnew ▸ hid) hfresh
  rcases Lineage.above_append h.placed.rooted hcreated.fresh habove with
    hbefore | ⟨_, p, hparent, hup⟩
  · obtain ⟨haId, hcId⟩ := Lineage.above_mem h.placed.rooted hbefore
    exact h.active a (hold a ha haId) c (hold c hc hcId) hbefore hactive
  · -- the parent was active when it was compared
    obtain ⟨parent, hmem, rfl⟩ :=
      List.mem_map.mp (created_parent_mem hcreated hparent)
    obtain ⟨_, _, hwithin⟩ :=
      created_parent h.placed hcreated hmem hparent
    rcases hup with hsame | hup
    · have haMem := hold a ha (hsame ▸ List.mem_map_of_mem hmem)
      have heq : a = parent :=
        List.inj_on_of_nodup_map h.placed.rooted.unique haMem hmem hsame
      rw [heq]
      exact hwithin.active
    · obtain ⟨haId, _⟩ := Lineage.above_mem h.placed.rooted hup
      exact h.active a (hold a ha haId) parent hmem hup hwithin.active

/-- A revocation without active grandchildren leaves no active capability
below what it revokes. -/
theorem active_cascade {companyId capabilityId : String} {now : ℤ}
    {db : Database} (h : Upright db)
    (htarget : ∃ target ∈ db.capabilities, target.id = capabilityId ∧
      target.companyId = companyId)
    (hshallow : ∀ c ∈ db.capabilities,
      c.parentCapabilityId = some capabilityId → ∀ g ∈ db.capabilities,
        g.parentCapabilityId = some c.id → g.status ≠ .active)
    {a c : Capability} (ha : a ∈ db.capabilities) (hc : c ∈ db.capabilities)
    (habove : Ancestor db.capabilities a c)
    (hactive : (Capabilities.cascade companyId capabilityId now c).status =
      .active) :
    (Capabilities.cascade companyId capabilityId now a).status =
      .active := by
  obtain ⟨target, htargetMem, rfl, hcompany⟩ := htarget
  have hunique := h.placed.rooted.unique
  have hkeptC : c.id ≠ target.id ∧ ¬ (c.companyId = companyId ∧
      c.parentCapabilityId = some target.id ∧ c.status = .active) := by
    rw [← not_or]
    intro hrevoked
    rw [Capabilities.cascade, if_pos hrevoked] at hactive
    simp [Capabilities.revoke] at hactive
  have hactiveC : c.status = .active := by
    rw [Capabilities.cascade, if_neg (not_or.mpr hkeptC)] at hactive
    exact hactive
  have hactiveA := h.active a ha c hc habove hactiveC
  -- an active capability is not below the target
  have hbelow : ¬ Ancestor db.capabilities target c := by
    intro hpath
    obtain ⟨k, ⟨child, hchild, hchildId, hchildParent⟩, hrest⟩ :=
      Relation.TransGen.head'_iff.mp hpath
    rcases Relation.reflTransGen_iff_eq_or_transGen.mp hrest with heq | hrest
    · have hsame : child = c :=
        List.inj_on_of_nodup_map hunique hchild hc
          (hchildId.trans heq.symm)
      subst hsame
      have hplace := h.outlived target htargetMem child hchild hchildParent
      exact hkeptC.2 ⟨hplace.company.trans hcompany, hchildParent, hactiveC⟩
    · obtain ⟨k', ⟨grandchild, hgrand, hgrandId, hgrandParent⟩, hdown⟩ :=
        Relation.TransGen.head'_iff.mp hrest
      have hstatus : grandchild.status = .active := by
        rcases Relation.reflTransGen_iff_eq_or_transGen.mp hdown with
          heq | hdown
        · have hsame : grandchild = c :=
            List.inj_on_of_nodup_map hunique hgrand hc
              (hgrandId.trans heq.symm)
          rw [hsame]
          exact hactiveC
        · have hup : Ancestor db.capabilities grandchild c := by
            unfold Ancestor
            rw [hgrandId]
            exact hdown
          exact h.active grandchild hgrand c hc hup hactiveC
      exact hshallow child hchild hchildParent grandchild hgrand
        (hchildId ▸ hgrandParent) hstatus
  have hkeptA : ¬ (a.id = target.id ∨ a.companyId = companyId ∧
      a.parentCapabilityId = some target.id ∧ a.status = .active) := by
    rintro (hid | ⟨_, hparent, _⟩)
    · unfold Ancestor at habove
      rw [hid] at habove
      exact hbelow habove
    · exact hbelow (Relation.TransGen.head ⟨a, ha, rfl, hparent⟩ habove)
  rw [Capabilities.cascade, if_neg hkeptA]
  exact hactiveA

/-- Whatever is past its expiry had its descendants expire with it. -/
theorem active_expire {companyId : String} {now : ℤ} {db : Database}
    (h : Upright db) {a c : Capability} (ha : a ∈ db.capabilities)
    (hc : c ∈ db.capabilities) (habove : Ancestor db.capabilities a c)
    (hactive : (if c.companyId = companyId ∧ Capabilities.Overdue now c then
      Capabilities.expire c else c).status = .active) :
    (if a.companyId = companyId ∧ Capabilities.Overdue now a then
      Capabilities.expire a else a).status = .active := by
  have hplace := h.outlived_of_ancestor ha hc habove
  by_cases hexpired : c.companyId = companyId ∧ Capabilities.Overdue now c
  · rw [if_pos hexpired] at hactive
    simp [Capabilities.expire] at hactive
  · rw [if_neg hexpired] at hactive
    have hactiveA := h.active a ha c hc habove hactive
    have hkept : ¬ (a.companyId = companyId ∧ Capabilities.Overdue now a) := by
      rintro ⟨hcompany, hoverdue⟩
      apply hexpired
      refine ⟨hplace.company.trans hcompany, ?_⟩
      unfold Capabilities.Overdue at hoverdue ⊢
      rw [Bool.and_eq_true] at hoverdue ⊢
      refine ⟨decide_eq_true hactive, ?_⟩
      cases hlast : a.expiresAt with
      | none => simp [hlast] at hoverdue
      | some last =>
          obtain ⟨expiry, hexpiry, hle⟩ := hplace.expiry last hlast
          have hpast : last ≤ now := by simpa [hlast] using hoverdue.2
          simp only [hexpiry, Option.any_some, decide_eq_true_eq]
          omega
    rw [if_neg hkept]
    exact hactiveA

theorem upright_perform {rt : Runtime} {call : Call} {db : Database}
    (h : Upright db) (hshallow : Shallow call db) :
    Upright (call.perform rt db) := by
  refine ⟨placed_perform h.placed, ?_, ?_⟩
  · exact linked_perform ofTerms_outlived
      (fun _ _ _ _ _ hcreated _ hp hlink =>
        outlived_of_created h.placed hcreated hp hlink) h.placed h.outlived
  · have hchanged : ∀ change, KeepsTerms change →
        (∀ a ∈ db.capabilities, ∀ c ∈ db.capabilities,
          Ancestor db.capabilities a c → (change c).status = .active →
            (change a).status = .active) →
        ∀ a ∈ db.capabilities.map change,
          ∀ c ∈ db.capabilities.map change,
            Ancestor (db.capabilities.map change) a c →
              c.status = .active → a.status = .active := by
      intro change hkeep hkept a' ha' c' hc' habove hactive
      obtain ⟨a, ha, rfl⟩ := List.mem_map.mp ha'
      obtain ⟨c, hc, rfl⟩ := List.mem_map.mp hc'
      unfold Ancestor at habove
      rw [Lineage.above_map hkeep.place, (hkeep.place a).1,
        (hkeep.place c).1] at habove
      exact hkept a ha c hc habove hactive
    have heffect := capabilities_perform rt call db
    generalize (call.perform rt db).capabilities = rows at heffect
    cases heffect with
    | unchanged => exact h.active
    | created hcall hcreated =>
        intro a ha c hc habove hactive
        exact active_created h hcreated ha hc habove hactive
    | revoked hcall htarget =>
        subst hcall
        refine hchanged _ (keepsTerms_cascade _ _ _) ?_
        intro a ha c hc habove hactive
        exact active_cascade h htarget (hshallow htarget) ha hc habove hactive
    | expired hcall =>
        refine hchanged _ (keepsTerms_expire _) ?_
        intro a ha c hc habove hactive
        exact active_expire h ha hc habove hactive

/-- While no revocation has to reach further than the children, nothing
counts below a capability that was revoked or has expired. -/
theorem revocation_closes (rt : Runtime) (calls : List Call) (db : Database)
    (hempty : db.capabilities = []) (hshallow : Meets rt Shallow calls db) :
    ∀ first, first <+: calls → RevocationCloses (run rt first db) := by
  intro first hfirst
  have hstart : Upright db :=
    ⟨placed_of_empty hempty, linked_of_empty hempty, by simp [hempty]⟩
  have hrun : Upright (run rt first db) :=
    run_keeps (fun _ _ h hcall => upright_perform h hcall) hstart
      (hshallow.of_prefix hfirst)
  exact hrun.closes

/-- A revoked capability, its child and the child's child. -/
def deepCalls : List Call :=
  [.createCapability (sampleInput none none) (sampleUuid "root") 0,
    .createCapability (sampleInput (some "root") none) (sampleUuid "child") 0,
    .createCapability (sampleInput (some "child") none) (sampleUuid "leaf") 0,
    .revokeCapability "acme" "root" 1]

/-- Of two delegations below one root, one is revoked with its child, and
the other one stays. -/
def branchCalls : List Call :=
  [.createCapability (sampleInput none none) (sampleUuid "root") 0,
    .createCapability (sampleInput (some "root") none) (sampleUuid "child") 0,
    .createCapability (sampleInput (some "child") none) (sampleUuid "leaf") 0,
    .createCapability (sampleInput (some "root") none) (sampleUuid "twin") 0,
    .createCapability (sampleInput (some "twin") none) (sampleUuid "twig") 0,
    .revokeCapability "acme" "twin" 1]

theorem sample_revocation_closes :
    (Capabilities.getActiveCapabilities "acme" "agent-1" 2
        (run Runtime.reference branchCalls sampleDb)).map Capability.id =
      ["root", "child", "leaf"] ∧
    RevocationCloses (run Runtime.reference branchCalls sampleDb) := by
  constructor
  · decide
  apply revocation_closes Runtime.reference branchCalls sampleDb rfl _ _
    List.prefix_rfl
  refine ⟨trivial, trivial, trivial, trivial, trivial, ?_, trivial⟩
  intro _
  decide

theorem leaf_outlives_revocation :
    ¬ RevocationCloses (run Runtime.reference deepCalls sampleDb) := by
  intro hcloses
  let root := Capabilities.revoke 1 (Capabilities.newCapability
    (sampleInput none none) "root" 0 none none none none)
  let child := Capabilities.revoke 1 (Capabilities.newCapability
    (sampleInput (some "root") none) "child" 0 none none none none)
  let leaf := Capabilities.newCapability (sampleInput (some "child") none)
    "leaf" 0 none none none none
  have hrows : (run Runtime.reference deepCalls sampleDb).capabilities =
      [root, child, leaf] := by
    decide
  have husable : leaf ∈ Capabilities.getActiveCapabilities "acme" "agent-1" 2
      (run Runtime.reference deepCalls sampleDb) := by
    rw [Capabilities.mem_getActiveCapabilities, hrows]
    exact ⟨by simp, rfl, rfl, rfl, by decide, Or.inl rfl⟩
  have habove : Ancestor
      (run Runtime.reference deepCalls sampleDb).capabilities root leaf := by
    rw [hrows]
    exact Relation.TransGen.tail
      (Relation.TransGen.single ⟨child, by simp, rfl, rfl⟩)
      ⟨leaf, by simp, rfl, rfl⟩
  have hroot := hcloses "acme" "agent-1" 2 leaf husable root
    (by rw [hrows]; simp) habove
  exact absurd hroot.1 (by decide)

end Authority
end Orvex
