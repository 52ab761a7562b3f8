import Orvex.Domain.Delegation

/-!
# Capabilities and the constitution

A capability is compared with the constitution that is active when it is
made, dimension by dimension.  What holds of the capability afterwards
depends on the dimensions that were left open and on the constitutions that
are activated later.
-/

namespace Orvex
namespace Authority

open Capabilities (CreateCapabilityInput Created)
open Constitutions (CreateConstitutionInput validateConstitution)

/-! ## What a constitution permits -/

/-- The list under a name of the configuration. -/
def listOf (key : String) (config : Json) : List Json :=
  match fieldOf key config with
  | some (.array items) => items
  | _ => []

/-- A list of allowed values restricts nothing while it is empty. -/
def Allows (key : String) (config : Json) (value : String) : Prop :=
  listOf key config = [] ∨ (.string value : Json) ∈ listOf key config

def Blocks (key : String) (config : Json) (value : String) : Prop :=
  (.string value : Json) ∈ listOf key config

/-- The spending limit under a name; an absent one is no limit. -/
def limitOf (rt : Runtime) (key : String) (config : Json) : WithTop ℚ :=
  match Capabilities.spendingLimit key config with
  | some (.string text) =>
      match rt.toDecimal text with
      | some (.finite limit) => limit
      | _ => ⊤
  | _ => ⊤

structure Permits (rt : Runtime) (config : Json) (use : Use) : Prop where
  action : (.string use.action : Json) ∈ listOf "allowed_actions" config
  action_open : ¬ Blocks "blocked_actions" config use.action
  asset : Allows "allowed_assets" config use.asset
  network : Allows "allowed_networks" config use.network
  category : Allows "allowed_categories" config use.category
  category_open : ¬ Blocks "blocked_categories" config use.category
  amount : (use.amount : WithTop ℚ) ≤
    limitOf rt "single_transaction" config

/-- The capability admits only what the constitution permits. -/
structure Confined (rt : Runtime) (config : Json) (c : Capability) :
    Prop where
  scope : ∀ use ∈ scope c, Permits rt config use
  daily : bound c.dailyLimit ≤ limitOf rt "daily" config
  weekly : bound c.weeklyLimit ≤ limitOf rt "weekly" config
  monthly : bound c.monthlyLimit ≤ limitOf rt "monthly" config

/-- Every active capability is confined by the active constitution of its
agent. -/
def Obeys (rt : Runtime) (db : Database) : Prop :=
  ∀ k ∈ db.constitutions, k.status = .active →
    ∀ c ∈ db.capabilities, c.companyId = k.companyId →
      c.agentId = k.agentId → c.status = .active →
        Confined rt k.configurationJson c

/-! ## What the comparison leaves open -/

/-- The request leaves no dimension open that the constitution restricts,
and stays within the restrictions that are not compared. -/
structure Specified (rt : Runtime) (config : Json)
    (input : CreateCapabilityInput) : Prop where
  asset : listOf "allowed_assets" config ≠ [] → truthy input.asset = true
  network : listOf "allowed_networks" config ≠ [] →
    truthy input.network = true
  category : listOf "allowed_categories" config ≠ [] →
    input.categoryScope.getD [] ≠ []
  category_open : ∀ category, ScopeAdmits input.categoryScope category →
    ¬ Blocks "blocked_categories" config category
  single : limitOf rt "single_transaction" config ≠ ⊤ →
    ∃ text x, input.singleTransactionLimit = some text ∧ text ≠ "" ∧
      rt.toDecimal text = some (.finite x) ∧ rt.column x = some x
  daily : bound (input.dailyLimit.bind rt.storeText) ≤
    limitOf rt "daily" config
  weekly : bound (input.weeklyLimit.bind rt.storeText) ≤
    limitOf rt "weekly" config
  monthly : bound (input.monthlyLimit.bind rt.storeText) ≤
    limitOf rt "monthly" config

/-- A new capability is specified where a constitution is active, and a
constitution is only activated over capabilities that it confines. -/
def Careful (rt : Runtime) : Call → Database → Prop
  | .createCapability input _ _, db =>
      ∀ k, Constitutions.getActiveConstitution input.companyId input.agentId
        db = some k → Specified rt k.configurationJson input
  | .activateConstitution companyId constitutionId _, db =>
      ∀ k ∈ db.constitutions, k.id = constitutionId →
        k.companyId = companyId → ∀ c ∈ db.capabilities,
          c.companyId = k.companyId → c.agentId = k.agentId →
            c.status = .active → Confined rt k.configurationJson c
  | _, _ => True

/-! ## What the comparison establishes -/

theorem isText_iff {text : String} {value : Json} :
    Capabilities.isText text value = true ↔ value = .string text := by
  cases value <;> simp [Capabilities.isText]

theorem any_isText_iff {text : String} {items : List Json} :
    items.any (Capabilities.isText text) = true ↔
      (.string text : Json) ∈ items := by
  rw [List.any_eq_true]
  constructor
  · rintro ⟨value, hmem, htext⟩
    exact isText_iff.mp htext ▸ hmem
  · intro hmem
    exact ⟨_, hmem, isText_iff.mpr rfl⟩

theorem fieldOf_of_listOf {key : String} {config : Json} {head : Json}
    {rest : List Json} (h : listOf key config = head :: rest) :
    fieldOf key config = some (.array (head :: rest)) := by
  unfold listOf at h
  split at h
  next items hfield => rw [hfield, h]
  next => simp at h

/-- A pinned value that passed is one that the list allows. -/
theorem allows_of_listed {rt : Runtime} {failure : String → Failure}
    {key : String} {config : Json} {pinned : Option String}
    (h : Capabilities.assertListed rt failure pinned (fieldOf key config) =
      .ok ())
    (hpinned : listOf key config ≠ [] → truthy pinned = true)
    {value : String} (hvalue : PinAdmits pinned value) :
    Allows key config value := by
  cases hlist : listOf key config with
  | nil => exact Or.inl hlist
  | cons head rest =>
      right
      have htruthy := hpinned (by simp [hlist])
      have hpin := hvalue htruthy
      subst hpin
      rw [fieldOf_of_listOf hlist] at h
      unfold Capabilities.assertListed at h
      simp only [htruthy, Capabilities.hasItems, List.isEmpty_cons,
        Bool.not_false, Bool.and_self, if_true, Capabilities.jsIncludes,
        Fallible.result_ok_bind] at h
      rw [hlist, ← any_isText_iff]
      split at h
      next hlisted => exact hlisted
      next => simp at h

theorem action_of_assert {rt : Runtime} {input : CreateCapabilityInput}
    {config : Json} (hvalid : validateConstitution rt config = .ok ())
    (h : Capabilities.assertAction input config = .ok ()) :
    (.string input.action : Json) ∈ listOf "allowed_actions" config ∧
      ¬ Blocks "blocked_actions" config input.action := by
  obtain ⟨items, hitems⟩ : ∃ items,
      fieldOf "allowed_actions" config = some (.array items) := by
    unfold validateConstitution at hvalid
    split at hvalid
    · split at hvalid
      next items hfield => exact ⟨_, hfield⟩
      next => simp at hvalid
    · simp at hvalid
  unfold Capabilities.assertAction at h
  simp only [hitems, Constitutions.orElse, Capabilities.jsIncludes,
    Fallible.result_ok_bind] at h
  split at h
  next hallowed =>
    constructor
    · unfold listOf
      rw [hitems]
      exact any_isText_iff.mp hallowed
    · unfold Blocks listOf
      intro hblocked
      split at hblocked
      next blocked hfield =>
        rw [hfield] at h
        simp only [any_isText_iff.mpr hblocked, Fallible.result_ok_bind,
          if_true] at h
        simp at h
      next => simp at hblocked
  next => simp at h

theorem category_of_assert {rt : Runtime} {input : CreateCapabilityInput}
    {config : Json}
    (h : Capabilities.assertCategories rt input config = .ok ())
    (hscope : listOf "allowed_categories" config ≠ [] →
      input.categoryScope.getD [] ≠ [])
    {category : String} (hcategory : ScopeAdmits input.categoryScope category) :
    Allows "allowed_categories" config category := by
  cases hlist : listOf "allowed_categories" config with
  | nil => exact Or.inl hlist
  | cons head rest =>
      right
      have hnonempty := hscope (by simp [hlist])
      cases hinput : input.categoryScope with
      | none => simp [hinput] at hnonempty
      | some listed =>
          have hmem : category ∈ listed := by
            rcases hcategory with hempty | hmem
            · exact absurd hempty hnonempty
            · rw [hinput] at hmem
              exact hmem
          unfold Capabilities.assertCategories at h
          simp only [hinput, fieldOf_of_listOf hlist, Capabilities.hasItems,
            List.isEmpty_cons, Bool.not_false, if_true, Capabilities.setHas,
            Fallible.result_ok_bind] at h
          rw [hlist, ← any_isText_iff]
          split at h
          next houtside =>
            rw [List.isEmpty_iff, List.filter_eq_nil_iff] at houtside
            by_contra hnot
            apply houtside category hmem
            rw [Bool.not_eq_true', ← Bool.not_eq_true]
            exact hnot
          next => simp at h

theorem mem_of_lookup {key : String} {value : Json}
    {fields : List (String × Json)} (h : fields.lookup key = some value) :
    (key, value) ∈ fields := by
  obtain ⟨before, after, rfl, _⟩ := List.lookup_eq_some_iff.mp h
  simp

theorem isDecimalText_ne_empty {text : String}
    (h : Constitutions.isDecimalText text = true) : text ≠ "" := by
  rintro rfl
  revert h
  decide

/-- The spending limits of a configuration that was validated are texts. -/
theorem validLimits {rt : Runtime} {entries : List (String × Json)}
    (h : Constitutions.validateLimits rt entries = .ok ()) :
    ∀ entry ∈ entries, Constitutions.limitAllowed entry.2 = true := by
  induction entries with
  | nil => simp
  | cons head rest ih =>
      unfold Constitutions.validateLimits at h
      split at h
      next hallowed =>
        intro entry hentry
        rcases List.mem_cons.mp hentry with rfl | hrest
        · exact hallowed
        · exact ih h entry hrest
      next => simp at h

theorem spendingLimit_ne_empty {rt : Runtime} {config : Json}
    (hvalid : validateConstitution rt config = .ok ()) {key text : String}
    (h : Capabilities.spendingLimit key config = some (.string text)) :
    text ≠ "" := by
  unfold Capabilities.spendingLimit at h
  obtain ⟨limits, hlimits, hfield⟩ := Option.bind_eq_some_iff.mp h
  cases limits with
  | object fields =>
      have hentry : (key, (.string text : Json)) ∈ fields :=
        mem_of_lookup hfield
      unfold validateConstitution at hvalid
      split at hvalid
      · split at hvalid
        · rw [hlimits] at hvalid
          have hallowed := validLimits hvalid (key, .string text) hentry
          exact isDecimalText_ne_empty hallowed
        · simp at hvalid
      · simp at hvalid
  | _ => simp [fieldOf] at hfield

theorem limitColumn_eq {rt : Runtime} {text : Option String}
    {stored : Option ℚ}
    (h : Capabilities.limitColumn rt text = some stored) :
    stored = text.bind rt.storeText := by
  cases text with
  | none => simpa [Capabilities.limitColumn, eq_comm] using h
  | some text =>
      simp only [Capabilities.limitColumn, Option.map_eq_some_iff] at h
      obtain ⟨v, hv, rfl⟩ := h
      simp [hv]

/-- The single limit that passed is at most the limit of the constitution,
unless its column rounds it. -/
theorem single_of_assert {rt : Runtime} {input : CreateCapabilityInput}
    {config : Json} {stored : Option ℚ}
    (hvalid : validateConstitution rt config = .ok ())
    (h : Capabilities.assertSingleLimit rt input config = .ok ())
    (hstored : Capabilities.limitColumn rt input.singleTransactionLimit =
      some stored)
    (hgiven : limitOf rt "single_transaction" config ≠ ⊤ →
      ∃ text x, input.singleTransactionLimit = some text ∧ text ≠ "" ∧
        rt.toDecimal text = some (.finite x) ∧ rt.column x = some x) :
    bound stored ≤ limitOf rt "single_transaction" config := by
  by_cases htop : limitOf rt "single_transaction" config = ⊤
  · rw [htop]
    exact le_top
  · obtain ⟨text, x, hinput, htext, hread, hcolumn⟩ := hgiven htop
    have hvalue : stored = some x := by
      rw [limitColumn_eq hstored, hinput]
      simp [Runtime.storeText, hread, Runtime.store, hcolumn]
    rw [hvalue]
    unfold limitOf at htop ⊢
    split at htop
    next limit hspending =>
      split at htop
      next cap hcap =>
        have hne : (limit != "") = true :=
          bne_iff_ne.mpr (spendingLimit_ne_empty hvalid hspending)
        unfold Capabilities.assertSingleLimit at h
        simp only [hspending, hinput, jsTruthy, hne,
          truthy_some.mpr htext, hread, jsonDecimal, hcap, decimalOf,
          Fallible.result_ok_bind, Decimal.gt_finite] at h
        have hle : x ≤ cap := by
          by_contra hlt
          simp [not_le.mp hlt] at h
        exact WithTop.coe_le_coe.mpr hle
      next => exact absurd rfl htop
    next => exact absurd rfl htop

/-- A specified request that passed makes a confined capability. -/
theorem confined_of_created {rt : Runtime} {input : CreateCapabilityInput}
    {uuid : Uuid} {now : ℤ} {c : Capability} {db : Database}
    (hcreated : Created rt input uuid now c db) {k : Constitution}
    (hactive : Constitutions.getActiveConstitution input.companyId
      input.agentId db = some k)
    (hvalid : validateConstitution rt k.configurationJson = .ok ())
    (hspecified : Specified rt k.configurationJson input) :
    Confined rt k.configurationJson c := by
  have hchecked :=
    (Capabilities.assertContained_eq_ok hcreated.contained).1 k hactive
  unfold Capabilities.assertWithinConstitution at hchecked
  rw [Fallible.result_bind_eq_ok] at hchecked
  obtain ⟨⟨⟩, haction, hchecked⟩ := hchecked
  rw [Fallible.result_bind_eq_ok] at hchecked
  obtain ⟨⟨⟩, hasset, hchecked⟩ := hchecked
  rw [Fallible.result_bind_eq_ok] at hchecked
  obtain ⟨⟨⟩, hnetwork, hchecked⟩ := hchecked
  rw [Fallible.result_bind_eq_ok] at hchecked
  obtain ⟨⟨⟩, hcategory, hsingle⟩ := hchecked
  obtain ⟨hallowed, hopen⟩ := action_of_assert hvalid haction
  have hlimit := single_of_assert hvalid hsingle hcreated.single
    hspecified.single
  have hrow := hcreated.row
  refine ⟨?_, ?_, ?_, ?_⟩
  · rintro use ⟨huse, huseAsset, huseNetwork, huseCategory, _, huseAmount⟩
    rw [hrow] at huse huseAsset huseNetwork huseCategory
    exact
      { action := huse ▸ hallowed
        action_open := huse ▸ hopen
        asset := allows_of_listed hasset hspecified.asset huseAsset
        network := allows_of_listed hnetwork hspecified.network huseNetwork
        category := category_of_assert hcategory hspecified.category
          huseCategory
        category_open := hspecified.category_open _ huseCategory
        amount := huseAmount.trans hlimit }
  · rw [limitColumn_eq hcreated.daily]
    exact hspecified.daily
  · rw [limitColumn_eq hcreated.weekly]
    exact hspecified.weekly
  · rw [limitColumn_eq hcreated.monthly]
    exact hspecified.monthly

/-! ## What a call does to the constitutions -/

theorem createConstitution_eq_ok {rt : Runtime}
    {input : CreateConstitutionInput} {uuid : String} {db db' : Database}
    {k : Constitution}
    (h : Constitutions.createConstitution rt input uuid db = (.ok k, db')) :
    validateConstitution rt k.configurationJson = .ok () ∧
      k.status = .draft ∧ constitutionTable.lookup k.id db = none ∧
      db' = constitutionTable.insert k db := by
  unfold Constitutions.createConstitution at h
  rw [Fallible.bind_eq_ok] at h
  obtain ⟨_, start, hread, h⟩ := h
  obtain ⟨hvalid, hstart⟩ := reading_eq_ok.mp hread
  rw [hstart, Fallible.query_bind] at h
  cases hagent : Agents.getAgent input.companyId input.agentId db with
  | none =>
      simp only [hagent] at h
      simp at h
  | some agent =>
      simp only [hagent] at h
      rw [Fallible.query_bind, Fallible.bind_eq_ok] at h
      obtain ⟨purpose, middle, hpurpose, h⟩ := h
      obtain ⟨_, hmiddle⟩ := Fallible.ofOption_eq_ok.mp hpurpose
      subst hmiddle
      obtain ⟨hfresh, _, rfl, rfl⟩ := Table.create_eq_ok.mp h
      exact ⟨hvalid, rfl, hfresh, rfl⟩

theorem allOrNothing_createConstitution (rt : Runtime)
    (input : CreateConstitutionInput) (uuid : String) :
    Fallible.AllOrNothing
      (Constitutions.createConstitution rt input uuid) := by
  refine Fallible.AllOrNothing.bind (preserves_reading _) (fun _ => ?_)
  refine Fallible.AllOrNothing.bind (Fallible.preserves_query _) (fun agent => ?_)
  cases agent with
  | none => exact fun s => Or.inl ⟨_, rfl⟩
  | some row =>
      refine Fallible.AllOrNothing.bind (Fallible.preserves_query _)
        (fun latest => ?_)
      refine Fallible.AllOrNothing.bind (Fallible.preserves_ofOption _ _)
        (fun purpose => ?_)
      exact Table.allOrNothing_create _ _ _

/-- What an activation does to a row. -/
def enact (companyId : String) (target : Constitution) (now : ℤ)
    (k : Constitution) : Constitution :=
  let superseded :=
    if k.companyId = companyId ∧ k.agentId = target.agentId ∧
        k.status = .active then
      { k with status := .superseded, deactivatedAt := some now }
    else k
  if k.id = target.id then
    { superseded with status := .active, activatedAt := some now }
  else superseded

theorem activateConstitution_rows (companyId constitutionId : String)
    (now : ℤ) (db : Database) :
    (Constitutions.activateConstitution companyId constitutionId now
        db).2.constitutions = db.constitutions ∨
      ∃ target ∈ db.constitutions, target.id = constitutionId ∧
        target.companyId = companyId ∧
        (Constitutions.activateConstitution companyId constitutionId now
          db).2.constitutions =
            db.constitutions.map (enact companyId target now) := by
  rcases Fallible.allOrNothing_transaction _ db with
    ⟨failure, hrun⟩ | ⟨result, db', hrun⟩
  · exact Or.inl (by rw [Constitutions.activateConstitution, hrun])
  · right
    rw [Constitutions.activateConstitution, hrun]
    rw [Fallible.transaction_eq_ok, Fallible.query_bind] at hrun
    cases hfound : constitutionTable.find (fun c =>
        c.id = constitutionId ∧ c.companyId = companyId) db with
    | none =>
        simp only [hfound] at hrun
        simp at hrun
    | some target =>
        simp only [hfound] at hrun
        have hmem := List.mem_of_find?_eq_some hfound
        have hkeys := List.find?_some hfound
        rw [decide_eq_true_eq] at hkeys
        refine ⟨target, hmem, hkeys.1, hkeys.2, ?_⟩
        split at hrun
        · simp at hrun
        · unfold Table.updateMany at hrun
          rw [Fallible.change_bind, Fallible.bind_eq_ok] at hrun
          obtain ⟨activated, middle, hupdate, hrun⟩ := hrun
          obtain ⟨row, _, _, rfl⟩ := Table.update_eq_ok.mp hupdate
          rw [Fallible.bind_eq_ok] at hrun
          obtain ⟨agent, last, hagent, hrun⟩ := hrun
          obtain ⟨agentRow, _, _, rfl⟩ := Table.update_eq_ok.mp hagent
          simp only [Fallible.pure_apply, Prod.mk.injEq] at hrun
          rw [← hrun.2]
          change KeyedTable.modify Constitution.id target.id _
            (constitutionTable.rows (constitutionTable.modifyAll _ _ db)) = _
          rw [Table.rows_modifyAll, KeyedTable.modify, List.map_map]
          apply List.map_congr_left
          intro k _
          unfold enact
          simp only [Function.comp_apply, decide_eq_true_eq]
          by_cases hactive : k.companyId = companyId ∧
              k.agentId = target.agentId ∧ k.status = .active
          · by_cases hid : k.id = target.id <;> simp [hactive, hid]
          · by_cases hid : k.id = target.id <;> simp [hactive, hid]

theorem preserves_revokeCapability {γ : Type} {f : Database → γ}
    (h : capabilityTable.Apart f) (companyId capabilityId : String)
    (now : ℤ) : Fallible.Preserves f
      (Capabilities.revokeCapability companyId capabilityId now) := by
  refine Fallible.Preserves.transaction ?_
  refine (Fallible.preserves_query _).bind (fun found => ?_)
  cases found with
  | none => exact Fallible.preserves_fail _
  | some target =>
      exact (h.updateMany _ _).bind (fun _ => h.update _ _ _)

/-- What a call does to the constitutions: nothing, one more draft, or an
activation. -/
inductive Enactment (rt : Runtime) (call : Call) (db : Database) :
    List Constitution → Prop
  | unchanged : Enactment rt call db db.constitutions
  | drafted {input : CreateConstitutionInput} {uuid : Uuid}
      {k : Constitution} (hcall : call = .createConstitution input uuid)
      (hvalid : validateConstitution rt k.configurationJson = .ok ())
      (hdraft : k.status = .draft)
      (hfresh : constitutionTable.lookup k.id db = none) :
      Enactment rt call db (db.constitutions ++ [k])
  | activated {companyId constitutionId : String} {now : ℤ}
      {target : Constitution}
      (hcall : call = .activateConstitution companyId constitutionId now)
      (hmem : target ∈ db.constitutions) (hid : target.id = constitutionId)
      (hcompany : target.companyId = companyId) :
      Enactment rt call db
        (db.constitutions.map (enact companyId target now))

theorem constitutions_perform (rt : Runtime) (call : Call) (db : Database) :
    Enactment rt call db (call.perform rt db).constitutions := by
  cases call with
  | createConstitution input uuid =>
      rw [Call.perform]
      rcases allOrNothing_createConstitution rt input uuid db with
        ⟨failure, hrun⟩ | ⟨k, db', hrun⟩
      · rw [hrun]
        exact .unchanged
      · obtain ⟨hvalid, hdraft, hfresh, hstate⟩ :=
          createConstitution_eq_ok hrun
        rw [hrun, hstate]
        exact .drafted rfl hvalid hdraft hfresh
  | activateConstitution companyId constitutionId now =>
      rw [Call.perform]
      rcases activateConstitution_rows companyId constitutionId now db with
        hsame | ⟨target, hmem, hid, hcompany, hrows⟩
      · rw [hsame]
        exact .unchanged
      · rw [hrows]
        exact .activated rfl hmem hid hcompany
  | createCapability input uuid now =>
      rw [Call.perform]
      rcases Capabilities.allOrNothing_createCapability rt input uuid now db
        with ⟨failure, hrun⟩ | ⟨c, db', hrun⟩
      · rw [hrun]
        exact .unchanged
      · rw [hrun, (Capabilities.createCapability_eq_ok hrun).2]
        exact .unchanged
  | revokeCapability companyId capabilityId now =>
      have happart : capabilityTable.Apart Database.constitutions :=
        fun _ _ => rfl
      have hsame := (preserves_revokeCapability happart companyId
        capabilityId now).apply db
      rw [Call.perform, hsame]
      exact .unchanged
  | expireCapabilities companyId now => exact .unchanged

/-! ## Every order of the calls -/

/-- What careful calls keep. -/
structure Governed (rt : Runtime) (db : Database) : Prop where
  valid : ∀ k ∈ db.constitutions,
    validateConstitution rt k.configurationJson = .ok ()
  unique : KeyedTable.UniqueKeys Constitution.id db.constitutions
  single : ∀ k ∈ db.constitutions, ∀ k' ∈ db.constitutions,
    k.status = .active → k'.status = .active →
      k.companyId = k'.companyId → k.agentId = k'.agentId → k = k'
  obeys : Obeys rt db

theorem enact_terms (companyId : String) (target : Constitution) (now : ℤ)
    (k : Constitution) :
    (enact companyId target now k).id = k.id ∧
      (enact companyId target now k).companyId = k.companyId ∧
      (enact companyId target now k).agentId = k.agentId ∧
      (enact companyId target now k).configurationJson =
        k.configurationJson := by
  unfold enact
  simp only
  split <;> split <;> exact ⟨rfl, rfl, rfl, rfl⟩

/-- Of the company and the agent of the target only the target is active. -/
theorem enact_active {companyId : String} {target : Constitution} {now : ℤ}
    {k : Constitution} (hcompany : target.companyId = companyId)
    (h : (enact companyId target now k).status = .active) :
    k.id = target.id ∨ k.status = .active ∧
      ¬ (k.companyId = target.companyId ∧ k.agentId = target.agentId) := by
  by_cases hid : k.id = target.id
  · exact Or.inl hid
  · right
    unfold enact at h
    simp only [hid, if_false] at h
    split at h
    next => simp at h
    next hkept =>
      refine ⟨h, fun hsame => hkept ?_⟩
      exact ⟨hsame.1.trans hcompany, hsame.2, h⟩

theorem governed_activate {rt : Runtime} {db db' : Database}
    {companyId : String} {target : Constitution} {now : ℤ}
    (h : Governed rt db) (hmem : target ∈ db.constitutions)
    (hcompany : target.companyId = companyId)
    (hrows : db'.constitutions =
      db.constitutions.map (enact companyId target now))
    (hcapabilities : db'.capabilities = db.capabilities)
    (hconfined : ∀ c ∈ db.capabilities, c.companyId = target.companyId →
      c.agentId = target.agentId → c.status = .active →
        Confined rt target.configurationJson c) : Governed rt db' := by
  have hsame : ∀ k ∈ db.constitutions, k.id = target.id → k = target :=
    fun k hk hid => List.inj_on_of_nodup_map h.unique hk hmem hid
  constructor
  · rw [hrows]
    intro k' hk'
    obtain ⟨k, hk, rfl⟩ := List.mem_map.mp hk'
    rw [(enact_terms companyId target now k).2.2.2]
    exact h.valid k hk
  · rw [hrows]
    unfold KeyedTable.UniqueKeys
    rw [List.map_map]
    have hkeys : db.constitutions.map
        (Constitution.id ∘ enact companyId target now) =
          db.constitutions.map Constitution.id :=
      List.map_congr_left
        (fun k _ => (enact_terms companyId target now k).1)
    rw [hkeys]
    exact h.unique
  · rw [hrows]
    intro k₁ hk₁ k₂ hk₂ hactive₁ hactive₂ hcompanies hagents
    obtain ⟨k, hk, rfl⟩ := List.mem_map.mp hk₁
    obtain ⟨k', hk', rfl⟩ := List.mem_map.mp hk₂
    obtain ⟨_, hc, ha, _⟩ := enact_terms companyId target now k
    obtain ⟨_, hc', ha', _⟩ := enact_terms companyId target now k'
    rw [hc, hc'] at hcompanies
    rw [ha, ha'] at hagents
    rcases enact_active hcompany hactive₁ with hid | ⟨hwas, hother⟩
    · have hk := hsame k hk hid
      rcases enact_active hcompany hactive₂ with hid' | ⟨_, hother'⟩
      · rw [hk, hsame k' hk' hid']
      · subst hk
        exact absurd ⟨hcompanies.symm, hagents.symm⟩ hother'
    · rcases enact_active hcompany hactive₂ with hid' | ⟨hwas', _⟩
      · have hk' := hsame k' hk' hid'
        subst hk'
        exact absurd ⟨hcompanies, hagents⟩ hother
      · rw [h.single k hk k' hk' hwas hwas' hcompanies hagents]
  · unfold Obeys
    rw [hrows, hcapabilities]
    intro k' hk' hactive c hc hcompanies hagents hcapability
    obtain ⟨k, hk, rfl⟩ := List.mem_map.mp hk'
    obtain ⟨_, hkc, hka, hconfig⟩ := enact_terms companyId target now k
    rw [hkc] at hcompanies
    rw [hka] at hagents
    rw [hconfig]
    rcases enact_active hcompany hactive with hid | ⟨hwas, _⟩
    · rw [hsame k hk hid] at hcompanies hagents ⊢
      exact hconfined c hc hcompanies hagents hcapability
    · exact h.obeys k hk hwas c hc hcompanies hagents hcapability

/-- The active constitution of an agent is the one that is found. -/
theorem Governed.found {rt : Runtime} {db : Database} (h : Governed rt db)
    {k : Constitution} (hk : k ∈ db.constitutions)
    (hactive : k.status = .active) :
    Constitutions.getActiveConstitution k.companyId k.agentId db =
      some k := by
  cases hfound : Constitutions.getActiveConstitution k.companyId k.agentId
      db with
  | none =>
      have hnone := List.find?_eq_none.mp hfound k hk
      simp [hactive] at hnone
  | some found =>
      obtain ⟨hmem, hcompany, hagent, hstatus⟩ :=
        Constitutions.getActiveConstitution_eq_some hfound
      rw [h.single found hmem k hk hstatus hactive hcompany hagent]

theorem obeys_perform {rt : Runtime} {call : Call} {db : Database}
    (h : Governed rt db) (hcareful : Careful rt call db)
    (hsame : (call.perform rt db).constitutions = db.constitutions) :
    Obeys rt (call.perform rt db) := by
  -- a capability that is active after a change was active, and the same
  have hchanged : ∀ change : Capability → Capability,
      (∀ c, (change c).status = .active → change c = c) →
      ∀ rows, rows = db.capabilities.map change →
        ∀ k ∈ db.constitutions, k.status = .active →
          ∀ c ∈ rows, c.companyId = k.companyId → c.agentId = k.agentId →
            c.status = .active → Confined rt k.configurationJson c := by
    rintro change hkeep rows rfl k hk hactive c' hc' hcompany hagent hstatus
    obtain ⟨c, hc, rfl⟩ := List.mem_map.mp hc'
    have hsame := hkeep c hstatus
    rw [hsame] at hcompany hagent hstatus ⊢
    exact h.obeys k hk hactive c hc hcompany hagent hstatus
  unfold Obeys
  rw [hsame]
  have heffect := capabilities_perform rt call db
  generalize hrows : (call.perform rt db).capabilities = rows at heffect
  cases heffect with
  | unchanged => exact h.obeys
  | @created input uuid now new hcall hcreated =>
      subst hcall
      intro k hk hactive c hc hcompany hagent hstatus
      rcases List.mem_append.mp hc with hold | hnew
      · exact h.obeys k hk hactive c hold hcompany hagent hstatus
      · rw [List.mem_singleton] at hnew
        subst hnew
        obtain ⟨_, hinputCompany, hinputAgent, _⟩ := created_terms hcreated
        have hfound := h.found hk hactive
        rw [← hcompany, ← hagent, hinputCompany, hinputAgent] at hfound
        exact confined_of_created hcreated hfound (h.valid k hk)
          (hcareful k hfound)
  | revoked hcall htarget =>
      refine hchanged _ ?_ _ rfl
      intro c hstatus
      unfold Capabilities.cascade at hstatus ⊢
      split at hstatus
      next => simp [Capabilities.revoke] at hstatus
      next hkept => rw [if_neg hkept]
  | expired hcall =>
      refine hchanged _ ?_ _ rfl
      intro c hstatus
      split at hstatus
      next => simp [Capabilities.expire] at hstatus
      next hkept => rw [if_neg hkept]

theorem governed_draft {rt : Runtime} {db db' : Database}
    {new : Constitution} (h : Governed rt db)
    (hvalid : validateConstitution rt new.configurationJson = .ok ())
    (hdraft : new.status = .draft)
    (hfresh : constitutionTable.lookup new.id db = none)
    (hrows : db'.constitutions = db.constitutions ++ [new])
    (hcapabilities : db'.capabilities = db.capabilities) :
    Governed rt db' := by
  have hold : ∀ k ∈ db.constitutions ++ [new], k.status = .active →
      k ∈ db.constitutions := by
    intro k hk hactive
    rcases List.mem_append.mp hk with hk | hk
    · exact hk
    · rw [List.mem_singleton.mp hk, hdraft] at hactive
      exact absurd hactive (by decide)
  constructor
  · rw [hrows]
    intro k hk
    rcases List.mem_append.mp hk with hk | hk
    · exact h.valid k hk
    · rw [List.mem_singleton.mp hk]
      exact hvalid
  · rw [hrows]
    exact h.unique.append_singleton hfresh
  · rw [hrows]
    intro k hk k' hk' hactive hactive'
    exact h.single k (hold k hk hactive) k' (hold k' hk' hactive') hactive
      hactive'
  · unfold Obeys
    rw [hrows, hcapabilities]
    intro k hk hactive
    exact h.obeys k (hold k hk hactive) hactive

theorem governed_perform {rt : Runtime} {call : Call} {db : Database}
    (h : Governed rt db) (hcareful : Careful rt call db) :
    Governed rt (call.perform rt db) := by
  have happart : constitutionTable.Apart Database.capabilities :=
    fun _ _ => rfl
  have hagents : agentTable.Apart Database.capabilities := fun _ _ => rfl
  have hobeys := @obeys_perform rt call db h hcareful
  have henactment := constitutions_perform rt call db
  generalize hrows : (call.perform rt db).constitutions = rows at henactment
  cases henactment with
  | unchanged =>
      exact ⟨hrows ▸ h.valid, hrows ▸ h.unique, hrows ▸ h.single,
        hobeys hrows⟩
  | @drafted input uuid new hcall hvalid hdraft hfresh =>
      subst hcall
      exact governed_draft h hvalid hdraft hfresh hrows
        ((Constitutions.preserves_createConstitution happart rt input
          uuid).apply db)
  | @activated companyId constitutionId now target hcall hmem hid hcompany =>
      subst hcall
      exact governed_activate h hmem hcompany hrows
        ((Constitutions.preserves_activateConstitution happart hagents
          companyId constitutionId now).apply db)
        (hcareful target hmem hid hcompany)

/-- While the calls are careful, every active capability is confined by the
active constitution of its agent. -/
theorem capabilities_confined (rt : Runtime) (calls : List Call)
    (db : Database) (hconstitutions : db.constitutions = [])
    (hcareful : Meets rt (Careful rt) calls db) :
    ∀ first, first <+: calls → Obeys rt (run rt first db) := by
  intro first hfirst
  have hstart : Governed rt db := by
    refine ⟨by simp [hconstitutions], ?_, by simp [hconstitutions], ?_⟩
    · rw [hconstitutions]
      exact List.nodup_nil
    · unfold Obeys
      simp [hconstitutions]
  have hrun : Governed rt (run rt first db) :=
    run_keeps (fun _ _ h hcall => governed_perform h hcall) hstart
      (hcareful.of_prefix hfirst)
  exact hrun.obeys

/-! ### A dimension that is left open -/

def sampleConfig : Json :=
  .object [("allowed_actions", .array [.string "transfer"]),
    ("allowed_assets", .array [.string "USDC"])]

def enactingCalls : List Call :=
  [.createConstitution ⟨"acme", "agent-1", sampleConfig, none⟩
      (sampleUuid "law"),
    .activateConstitution "acme" "law" 0]

/-- The row is the active sample constitution. -/
def isSampleLaw (k : Constitution) : Bool :=
  k.companyId == "acme" && k.agentId == "agent-1" &&
    decide (k.status = .active) &&
    (listOf "allowed_assets" k.configurationJson).map
      (Capabilities.isText "ETH") == [false] &&
    (["allowed_networks", "allowed_categories", "blocked_categories"].all
      (fun key => (listOf key k.configurationJson).isEmpty)) &&
    (["single_transaction", "daily", "weekly", "monthly"].all (fun key =>
      (Capabilities.spendingLimit key k.configurationJson).isNone))

theorem sample_enacted :
    ((run Runtime.reference enactingCalls sampleDb).constitutions.map
      isSampleLaw) = [true] := by
  decide

/-- What a sample constitution restricts. -/
theorem sampleLaw_restricts {k : Constitution} (h : isSampleLaw k = true) :
    k.companyId = "acme" ∧ k.agentId = "agent-1" ∧ k.status = .active ∧
      (listOf "allowed_assets" k.configurationJson).map
        (Capabilities.isText "ETH") = [false] ∧
      (listOf "allowed_networks" k.configurationJson = [] ∧
        listOf "allowed_categories" k.configurationJson = [] ∧
        listOf "blocked_categories" k.configurationJson = []) ∧
      ∀ key ∈ ["single_transaction", "daily", "weekly", "monthly"],
        Capabilities.spendingLimit key k.configurationJson = none := by
  unfold isSampleLaw at h
  simp only [Bool.and_eq_true, beq_iff_eq, decide_eq_true_eq,
    List.all_eq_true, List.isEmpty_iff, Option.isNone_iff_eq_none] at h
  obtain ⟨⟨⟨⟨⟨hcompany, hagent⟩, hactive⟩, hassets⟩, hlists⟩, hlimits⟩ := h
  exact ⟨hcompany, hagent, hactive, hassets,
    ⟨hlists _ (by simp), hlists _ (by simp), hlists _ (by simp)⟩, hlimits⟩

theorem limitOf_eq_top {rt : Runtime} {key : String} {config : Json}
    (h : Capabilities.spendingLimit key config = none) :
    limitOf rt key config = ⊤ := by
  unfold limitOf
  rw [h]

theorem root_ne_empty : "root" ≠ "" := by decide

/-- The capability names the asset. -/
def specifiedCall : Call :=
  .createCapability { sampleInput none none with asset := some "USDC" }
    (sampleUuid "root" root_ne_empty) 0

theorem sample_capabilities_confined :
    Obeys Runtime.reference
      (run Runtime.reference (enactingCalls ++ [specifiedCall]) sampleDb) := by
  apply capabilities_confined Runtime.reference _ sampleDb rfl _ _
    List.prefix_rfl
  refine ⟨trivial, ?_, ?_, trivial⟩
  · -- no capability is there yet
    intro k _ _ _ c hc
    have hnone : ((Call.createConstitution
        ⟨"acme", "agent-1", sampleConfig, none⟩ (sampleUuid "law")).perform
          Runtime.reference sampleDb).capabilities = [] := by
      decide
    rw [hnone] at hc
    exact absurd hc List.not_mem_nil
  · intro k hk
    have hmem := (Constitutions.getActiveConstitution_eq_some hk).1
    have hlaw : isSampleLaw k = true := by
      have himage := @List.mem_map_of_mem _ _ _ _ isSampleLaw hmem
      rw [show ((Call.activateConstitution "acme" "law" 0).perform
        Runtime.reference _).constitutions.map isSampleLaw = [true] from
          sample_enacted, List.mem_singleton] at himage
      exact himage
    obtain ⟨_, _, _, _, ⟨hnetworks, hcategories, hblocked⟩, hlimits⟩ :=
      sampleLaw_restricts hlaw
    have hfree : ∀ key ∈ ["single_transaction", "daily", "weekly", "monthly"],
        limitOf Runtime.reference key k.configurationJson = ⊤ :=
      fun key hkey => limitOf_eq_top (hlimits key hkey)
    exact
      { asset := fun _ => rfl
        network := fun hne => absurd hnetworks hne
        category := fun hne => absurd hcategories hne
        category_open := by
          intro category _
          unfold Blocks
          rw [hblocked]
          exact List.not_mem_nil
        single := fun hne => absurd (hfree _ (by simp)) hne
        daily := (hfree "daily" (by simp)) ▸ le_top
        weekly := (hfree "weekly" (by simp)) ▸ le_top
        monthly := (hfree "monthly" (by simp)) ▸ le_top }

/-- The capability names no asset. -/
def openCalls : List Call :=
  enactingCalls ++
    [.createCapability (sampleInput none none)
      (sampleUuid "root" root_ne_empty) 0]

theorem open_asset_exceeds_constitution :
    ¬ Obeys Runtime.reference (run Runtime.reference openCalls sampleDb) := by
  intro hobeys
  have hlaws : (run Runtime.reference openCalls sampleDb).constitutions.map
      isSampleLaw = [true] := by
    decide
  have hrows : (run Runtime.reference openCalls sampleDb).capabilities =
      [Capabilities.newCapability (sampleInput none none) "root" 0 none none
        none none] := by
    decide
  obtain ⟨k, hk, hlaw⟩ : ∃ k ∈ (run Runtime.reference openCalls
      sampleDb).constitutions, isSampleLaw k = true := by
    apply List.mem_map.mp
    rw [hlaws]
    exact List.mem_cons_self
  obtain ⟨hcompany, hagent, hactive, hassets, _⟩ := sampleLaw_restricts hlaw
  have hconfined := hobeys k hk hactive _
    (by rw [hrows]; exact List.mem_cons_self) hcompany.symm hagent.symm rfl
  let use : Use := ⟨"transfer", "ETH", "base", "food", "bob", 1, 0⟩
  have huse : use ∈ scope (Capabilities.newCapability (sampleInput none none)
      "root" 0 none none none none) := by
    simp [use, scope, Capabilities.newCapability, sampleInput, PinAdmits,
      ScopeAdmits, bound]
  rcases (hconfined.scope use huse).asset with hempty | hmem
  · simp [hempty] at hassets
  · have hlisted :=
      @List.mem_map_of_mem _ _ _ _ (Capabilities.isText "ETH") hmem
    rw [hassets] at hlisted
    simp [use, Capabilities.isText] at hlisted

end Authority
end Orvex
