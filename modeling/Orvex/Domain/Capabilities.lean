import Orvex.Domain.Constitutions
import Mathlib.Data.List.Sort

/-!
# Capabilities

A capability is a scoped envelope of authority.  A new one is compared with
the active constitution of its agent and, where it is delegated, with its
parent.  The authorization paths ask for the active capabilities of an agent
and use the oldest one.
-/

namespace Orvex
namespace Capabilities

structure CreateCapabilityInput where
  companyId : String
  agentId : String
  action : String
  asset : Option String
  network : Option String
  categoryScope : Option (List String)
  recipientScope : Option (List String)
  singleTransactionLimit : Option String
  dailyLimit : Option String
  weeklyLimit : Option String
  monthlyLimit : Option String
  validFrom : Option ℤ
  expiresAt : Option ℤ
  parentCapabilityId : Option String
  createdBy : Option String
  deriving DecidableEq

def refused (message : String) (details : List (String × String)) : Failure :=
  .of .authorizationError message details

/-! ## Containment in the constitution -/

/-- `text === value`. -/
def isText (text : String) : Json → Bool
  | .string other => other == text
  | _ => false

/-- `value.includes(text)`, which arrays and texts have. -/
def jsIncludes (text : String) : Json → Except Failure Bool
  | .array items => .ok (items.any (isText text))
  | .string whole => .ok (decide (text.toList <:+: whole.toList))
  | _ => .error .language

/-- `value && value.length > 0`. -/
def hasItems (rt : Runtime) : Option Json → Bool
  | some (.array items) => !items.isEmpty
  | some (.string text) => text != ""
  | some (.object fields) =>
      match fields.lookup "length" with
      | some length => (jsNumber rt length).gt (.finite 0)
      | none => false
  | _ => false

/-- `new Set(value)`, asked for a text. -/
def setHas : Option Json → Except Failure (String → Bool)
  | some (.array items) => .ok (fun text => items.any (isText text))
  | some (.string whole) =>
      .ok (fun text => whole.toList.any (fun c => String.singleton c == text))
  | _ => .error .language

/-- A pinned value must be listed where the constitution lists values. -/
def assertListed (rt : Runtime) (failure : String → Failure)
    (pinned : Option String) (listed : Option Json) : Except Failure Unit :=
  match pinned, listed with
  | some value, some list =>
      if truthy (some value) && hasItems rt (some list) then do
        if ← jsIncludes value list then .ok ()
        else .error (failure value)
      else .ok ()
  | _, _ => .ok ()

def assertAction (input : CreateCapabilityInput) (constitution : Json) :
    Except Failure Unit := do
  let allowedActions := Constitutions.orElse (.array [])
    (fieldOf "allowed_actions" constitution)
  if ← jsIncludes input.action allowedActions then
    let blockedActions := Constitutions.orElse (.array [])
      (fieldOf "blocked_actions" constitution)
    if ← jsIncludes input.action blockedActions then
      .error (refused "Capability action is blocked by constitution."
        [("action", input.action)])
    else .ok ()
  else
    .error (refused "Capability action not allowed by constitution."
      [("action", input.action)])

def assertCategories (rt : Runtime) (input : CreateCapabilityInput)
    (constitution : Json) : Except Failure Unit :=
  match input.categoryScope with
  | none => .ok ()
  | some scope =>
      if hasItems rt (fieldOf "allowed_categories" constitution) then do
        let allowed ← setHas (fieldOf "allowed_categories" constitution)
        let outside := scope.filter (fun category => !allowed category)
        if outside.isEmpty then .ok ()
        else
          .error (refused "Capability category outside constitution."
            [("categories", ",".intercalate outside)])
      else .ok ()

def spendingLimit (key : String) (constitution : Json) : Option Json :=
  (fieldOf "spending_limits" constitution).bind (fieldOf key)

def assertSingleLimit (rt : Runtime) (input : CreateCapabilityInput)
    (constitution : Json) : Except Failure Unit :=
  match spendingLimit "single_transaction" constitution,
    input.singleTransactionLimit with
  | some constLimit, some limit =>
      if jsTruthy constLimit && truthy (some limit) then do
        let single ← decimalOf (rt.toDecimal limit)
        let cap ← decimalOf (jsonDecimal rt constLimit)
        if single.gt cap then
          .error (refused "Capability single-tx limit exceeds constitution."
            [("capability", limit), ("constitution", jsString rt constLimit)])
        else .ok ()
      else .ok ()
  | _, _ => .ok ()

def assertWithinConstitution (rt : Runtime) (input : CreateCapabilityInput)
    (constitution : Json) : Except Failure Unit := do
  assertAction input constitution
  assertListed rt
    (fun asset => refused "Capability asset not allowed by constitution."
      [("asset", asset)])
    input.asset (fieldOf "allowed_assets" constitution)
  assertListed rt
    (fun network => refused "Capability network not allowed by constitution."
      [("network", network)])
    input.network (fieldOf "allowed_networks" constitution)
  assertCategories rt input constitution
  assertSingleLimit rt input constitution

/-! ## Containment in the parent -/

def optDecimal (rt : Runtime) :
    Option String → Except Failure (Option Decimal)
  | none => .ok none
  | some text => do
      let d ← decimalOf (rt.toDecimal text)
      .ok (some d)

def limitWithinParent : Option Decimal → Option ℚ → Bool
  | _, none => true
  | none, some _ => false
  | some child, some parent => !child.gt (.finite parent)

def scopeWithinParent (child parent : Option (List String)) : Bool :=
  match parent with
  | none => true
  | some [] => true
  | some allowed =>
      match child with
      | none => false
      | some [] => false
      | some scope => scope.all (fun c => allowed.contains c)

def capabilityStatusText : CapabilityStatus → String
  | .active => "ACTIVE"
  | .expired => "EXPIRED"
  | .revoked => "REVOKED"

/-- Where the parent pins a value the child must pin the same. -/
def pinMatches (child parent : Option String) : Bool :=
  !truthy parent || decide (child = parent)

def assertLimits : List (Option Decimal × Option ℚ × String) →
    Except Failure Unit
  | [] => .ok ()
  | (child, parentLimit, label) :: rest =>
      if limitWithinParent child parentLimit then assertLimits rest
      else
        .error (refused ("Child " ++ label ++ " limit exceeds parent.")
          [("dimension", label)])

/-- `parent.expiresAt && (!input.expiresAt || input.expiresAt >
parent.expiresAt)`. -/
def outlives (child parent : Option ℤ) : Bool :=
  match parent, child with
  | none, _ => false
  | some _, none => true
  | some last, some expiry => decide (last < expiry)

def assertWithinParent (rt : Runtime) (input : CreateCapabilityInput)
    (parent : Capability) : Except Failure Unit :=
  if parent.status ≠ .active then
    .error (refused "Parent capability is not active."
      [("parentId", parent.id),
        ("status", capabilityStatusText parent.status)])
  else if parent.action ≠ input.action then
    .error (refused "Child action must match parent action."
      [("child", input.action), ("parent", parent.action)])
  else if pinMatches input.asset parent.asset = false then
    .error (refused "Child asset must match parent asset."
      [("child", input.asset.getD "null"),
        ("parent", parent.asset.getD "null")])
  else if pinMatches input.network parent.network = false then
    .error (refused "Child network must match parent network."
      [("child", input.network.getD "null"),
        ("parent", parent.network.getD "null")])
  else if scopeWithinParent input.categoryScope
      parent.categoryScopeJson = false then
    .error (refused "Child category scope exceeds parent." [])
  else if scopeWithinParent input.recipientScope
      parent.recipientScopeJson = false then
    .error (refused "Child recipient scope exceeds parent." [])
  else do
    let single ← optDecimal rt input.singleTransactionLimit
    let daily ← optDecimal rt input.dailyLimit
    let weekly ← optDecimal rt input.weeklyLimit
    let monthly ← optDecimal rt input.monthlyLimit
    assertLimits
      [(single, parent.singleTransactionLimit, "single_transaction"),
        (daily, parent.dailyLimit, "daily"),
        (weekly, parent.weeklyLimit, "weekly"),
        (monthly, parent.monthlyLimit, "monthly")]
    if outlives input.expiresAt parent.expiresAt then
      .error (refused "Child capability outlives parent expiry." [])
    else .ok ()

/-! ## The service -/

def findParent (input : CreateCapabilityInput) (parentId : String)
    (db : Database) : Option Capability :=
  capabilityTable.find (fun c => c.id = parentId ∧
    c.companyId = input.companyId ∧ c.agentId = input.agentId) db

def assertConstitution (rt : Runtime) (input : CreateCapabilityInput)
    (db : Database) : Except Failure Unit :=
  match Constitutions.getActiveConstitution input.companyId input.agentId
      db with
  | none => .ok ()
  | some constitution =>
      assertWithinConstitution rt input constitution.configurationJson

def assertParent (rt : Runtime) (input : CreateCapabilityInput)
    (db : Database) : Except Failure Unit :=
  match input.parentCapabilityId with
  | none => .ok ()
  | some parentId =>
      if truthy (some parentId) then
        match findParent input parentId db with
        | none =>
            .error (.of .tenantError
              "Parent capability not found for this agent."
              [("parentCapabilityId", parentId)])
        | some parent => assertWithinParent rt input parent
      else .ok ()

/-- The containment checks of a new capability, in their order. -/
def assertContained (rt : Runtime) (input : CreateCapabilityInput)
    (db : Database) : Except Failure Unit :=
  match Agents.getAgent input.companyId input.agentId db with
  | none =>
      .error (.of .tenantError "Agent not found in this company."
        [("companyId", input.companyId), ("agentId", input.agentId)])
  | some _ => do
      assertConstitution rt input db
      assertParent rt input db

/-- The value of a limit column; `none` is a rejected value. -/
def limitColumn (rt : Runtime) : Option String → Option (Option ℚ)
  | none => some none
  | some text => (rt.storeText text).map some

def capabilityAllowed (capability : Capability) (db : Database) : Bool :=
  companyExists capability.companyId db &&
    (agentTable.lookup capability.agentId db).isSome &&
    (match capability.parentCapabilityId with
      | none => true
      | some parentId => (capabilityTable.lookup parentId db).isSome)

def newCapability (input : CreateCapabilityInput) (uuid : String) (now : ℤ)
    (single daily weekly monthly : Option ℚ) : Capability where
  id := uuid
  companyId := input.companyId
  agentId := input.agentId
  parentCapabilityId := input.parentCapabilityId
  action := input.action
  asset := input.asset
  network := input.network
  categoryScopeJson := input.categoryScope
  recipientScopeJson := input.recipientScope
  singleTransactionLimit := single
  dailyLimit := daily
  weeklyLimit := weekly
  monthlyLimit := monthly
  validFrom := input.validFrom.getD now
  expiresAt := input.expiresAt
  status := .active
  createdBy := input.createdBy
  createdAt := now
  revokedAt := none

def createCapability (rt : Runtime) (input : CreateCapabilityInput)
    (uuid : String) (now : ℤ) : Service Capability := do
  let () ← reading (assertContained rt input)
  let single ← Fallible.ofOption .decimal
    (limitColumn rt input.singleTransactionLimit)
  let daily ← Fallible.ofOption .decimal (limitColumn rt input.dailyLimit)
  let weekly ← Fallible.ofOption .decimal (limitColumn rt input.weeklyLimit)
  let monthly ← Fallible.ofOption .decimal (limitColumn rt input.monthlyLimit)
  let capability := newCapability input uuid now single daily weekly monthly
  capabilityTable.create .constraint (capabilityAllowed capability) capability

/-- Active, and the instant lies in the validity window. -/
def Usable (now : ℤ) (capability : Capability) : Prop :=
  capability.status = .active ∧ capability.validFrom ≤ now ∧
    (capability.expiresAt = none ∨
      ∃ expiry, capability.expiresAt = some expiry ∧ now < expiry)

instance (now : ℤ) (capability : Capability) :
    Decidable (Usable now capability) := by
  unfold Usable
  cases hexpiry : capability.expiresAt with
  | none =>
      exact decidable_of_iff
        (capability.status = .active ∧ capability.validFrom ≤ now)
        (by simp)
  | some expiry =>
      exact decidable_of_iff
        (capability.status = .active ∧ capability.validFrom ≤ now ∧
          now < expiry)
        (by simp)

def getActiveCapabilities (companyId agentId : String) (now : ℤ)
    (db : Database) : List Capability :=
  (db.capabilities.filter (fun capability =>
    capability.companyId = companyId ∧ capability.agentId = agentId ∧
      Usable now capability)).insertionSort
    (fun a b => a.createdAt ≤ b.createdAt)

def revoke (now : ℤ) (capability : Capability) : Capability :=
  { capability with status := .revoked, revokedAt := some now }

def revokeCapability (companyId capabilityId : String) (now : ℤ) :
    Service Capability :=
  Fallible.transaction do
    match ← Fallible.query (capabilityTable.find (fun c =>
        c.id = capabilityId ∧ c.companyId = companyId)) with
    | none =>
        Fallible.fail (.of .capabilityInvalid "Capability not found."
          [("capabilityId", capabilityId)])
    | some cap =>
        -- the children; what is delegated further down is left as it is
        capabilityTable.updateMany
          (fun c => c.companyId = companyId ∧
            c.parentCapabilityId = some cap.id ∧ c.status = .active)
          (revoke now)
        capabilityTable.update .recordNotFound cap.id (revoke now)

/-- Active, and past its expiry. -/
def Overdue (now : ℤ) (capability : Capability) : Bool :=
  decide (capability.status = .active) &&
    capability.expiresAt.any (fun expiry => decide (expiry ≤ now))

def expire (capability : Capability) : Capability :=
  { capability with status := .expired }

def expireCapabilities (companyId : String) (now : ℤ) : Service ℕ := do
  let overdue := fun c : Capability => c.companyId = companyId ∧ Overdue now c
  let count ← Fallible.query (fun db => (db.capabilities.filter overdue).length)
  capabilityTable.updateMany overdue expire
  pure count

theorem mem_getActiveCapabilities {companyId agentId : String} {now : ℤ}
    {db : Database} {capability : Capability} :
    capability ∈ getActiveCapabilities companyId agentId now db ↔
      capability ∈ db.capabilities ∧ capability.companyId = companyId ∧
        capability.agentId = agentId ∧ Usable now capability := by
  unfold getActiveCapabilities
  rw [(List.perm_insertionSort _ _).mem_iff, List.mem_filter,
    decide_eq_true_eq]

/-! ## What the calls do -/

/-- What a successful creation read and wrote. -/
structure Created (rt : Runtime) (input : CreateCapabilityInput)
    (uuid : String) (now : ℤ) (capability : Capability) (db : Database) :
    Prop where
  contained : assertContained rt input db = .ok ()
  single : limitColumn rt input.singleTransactionLimit =
    some capability.singleTransactionLimit
  daily : limitColumn rt input.dailyLimit = some capability.dailyLimit
  weekly : limitColumn rt input.weeklyLimit = some capability.weeklyLimit
  monthly : limitColumn rt input.monthlyLimit = some capability.monthlyLimit
  row : capability = newCapability input uuid now
    capability.singleTransactionLimit capability.dailyLimit
    capability.weeklyLimit capability.monthlyLimit
  fresh : capabilityTable.lookup capability.id db = none
  allowed : capabilityAllowed capability db = true

theorem createCapability_eq_ok {rt : Runtime} {input : CreateCapabilityInput}
    {uuid : String} {now : ℤ} {db db' : Database} {capability : Capability}
    (h : createCapability rt input uuid now db = (.ok capability, db')) :
    Created rt input uuid now capability db ∧
      db' = capabilityTable.insert capability db := by
  unfold createCapability at h
  rw [Fallible.bind_eq_ok] at h
  obtain ⟨_, _, hread, h⟩ := h
  obtain ⟨hcontained, rfl⟩ := reading_eq_ok.mp hread
  rw [Fallible.bind_eq_ok] at h
  obtain ⟨single, _, hlimit, h⟩ := h
  obtain ⟨hsingle, rfl⟩ := Fallible.ofOption_eq_ok.mp hlimit
  rw [Fallible.bind_eq_ok] at h
  obtain ⟨daily, _, hlimit, h⟩ := h
  obtain ⟨hdaily, rfl⟩ := Fallible.ofOption_eq_ok.mp hlimit
  rw [Fallible.bind_eq_ok] at h
  obtain ⟨weekly, _, hlimit, h⟩ := h
  obtain ⟨hweekly, rfl⟩ := Fallible.ofOption_eq_ok.mp hlimit
  rw [Fallible.bind_eq_ok] at h
  obtain ⟨monthly, _, hlimit, h⟩ := h
  obtain ⟨hmonthly, rfl⟩ := Fallible.ofOption_eq_ok.mp hlimit
  obtain ⟨hfresh, hallowed, rfl, rfl⟩ := Table.create_eq_ok.mp h
  exact ⟨⟨hcontained, hsingle, hdaily, hweekly, hmonthly, rfl, hfresh,
    hallowed⟩, rfl⟩

theorem allOrNothing_createCapability (rt : Runtime)
    (input : CreateCapabilityInput) (uuid : String) (now : ℤ) :
    Fallible.AllOrNothing (createCapability rt input uuid now) := by
  refine Fallible.AllOrNothing.bind (preserves_reading _) (fun _ => ?_)
  refine Fallible.AllOrNothing.bind (Fallible.preserves_ofOption _ _) (fun single => ?_)
  refine Fallible.AllOrNothing.bind (Fallible.preserves_ofOption _ _) (fun daily => ?_)
  refine Fallible.AllOrNothing.bind (Fallible.preserves_ofOption _ _) (fun weekly => ?_)
  refine Fallible.AllOrNothing.bind (Fallible.preserves_ofOption _ _) (fun monthly => ?_)
  exact Table.allOrNothing_create _ _ _

/-- The constitution and the parent that a new capability was compared
with. -/
theorem assertContained_eq_ok {rt : Runtime} {input : CreateCapabilityInput}
    {db : Database} (h : assertContained rt input db = .ok ()) :
    (∀ constitution, Constitutions.getActiveConstitution input.companyId
        input.agentId db = some constitution →
      assertWithinConstitution rt input constitution.configurationJson =
        .ok ()) ∧
    ∀ parentId, input.parentCapabilityId = some parentId → parentId ≠ "" →
      ∃ parent, findParent input parentId db = some parent ∧
        assertWithinParent rt input parent = .ok () := by
  unfold assertContained at h
  split at h
  next => simp at h
  next =>
    rw [Fallible.result_bind_eq_ok] at h
    obtain ⟨⟨⟩, hconstitution, hparent⟩ := h
    constructor
    · intro constitution hactive
      unfold assertConstitution at hconstitution
      rw [hactive] at hconstitution
      exact hconstitution
    · intro parentId hid hne
      unfold assertParent at hparent
      rw [hid] at hparent
      simp only [truthy_some.mpr hne, if_true] at hparent
      split at hparent
      next => simp at hparent
      next parent hfound => exact ⟨parent, hfound, hparent⟩

/-- A limit that passed the comparison with the limit of the parent. -/
def LimitChecked (rt : Runtime) (text : Option String) (parent : Option ℚ) :
    Prop :=
  ∃ child, optDecimal rt text = .ok child ∧
    limitWithinParent child parent = true

/-- What the comparison with the parent established. -/
structure WithinParent (rt : Runtime) (input : CreateCapabilityInput)
    (parent : Capability) : Prop where
  active : parent.status = .active
  action : parent.action = input.action
  asset : pinMatches input.asset parent.asset = true
  network : pinMatches input.network parent.network = true
  categories : scopeWithinParent input.categoryScope
    parent.categoryScopeJson = true
  recipients : scopeWithinParent input.recipientScope
    parent.recipientScopeJson = true
  single : LimitChecked rt input.singleTransactionLimit
    parent.singleTransactionLimit
  daily : LimitChecked rt input.dailyLimit parent.dailyLimit
  weekly : LimitChecked rt input.weeklyLimit parent.weeklyLimit
  monthly : LimitChecked rt input.monthlyLimit parent.monthlyLimit
  expiry : outlives input.expiresAt parent.expiresAt = false

theorem assertLimits_eq_ok
    {checks : List (Option Decimal × Option ℚ × String)}
    (h : assertLimits checks = .ok ()) :
    ∀ child parent label, (child, parent, label) ∈ checks →
      limitWithinParent child parent = true := by
  induction checks with
  | nil => simp
  | cons head rest ih =>
      unfold assertLimits at h
      split at h
      next hwithin =>
        intro child parent label hcheck
        rcases List.mem_cons.mp hcheck with rfl | hrest
        · exact hwithin
        · exact ih h child parent label hrest
      next => simp at h

theorem assertWithinParent_eq_ok {rt : Runtime}
    {input : CreateCapabilityInput} {parent : Capability}
    (h : assertWithinParent rt input parent = .ok ()) :
    WithinParent rt input parent := by
  unfold assertWithinParent at h
  split at h
  next => simp at h
  next hactive =>
  split at h
  next => simp at h
  next haction =>
  split at h
  next => simp at h
  next hasset =>
  split at h
  next => simp at h
  next hnetwork =>
  split at h
  next => simp at h
  next hcategories =>
  split at h
  next => simp at h
  next hrecipients =>
  rw [Fallible.result_bind_eq_ok] at h
  obtain ⟨single, hsingle, h⟩ := h
  rw [Fallible.result_bind_eq_ok] at h
  obtain ⟨daily, hdaily, h⟩ := h
  rw [Fallible.result_bind_eq_ok] at h
  obtain ⟨weekly, hweekly, h⟩ := h
  rw [Fallible.result_bind_eq_ok] at h
  obtain ⟨monthly, hmonthly, h⟩ := h
  rw [Fallible.result_bind_eq_ok] at h
  obtain ⟨⟨⟩, hlimits, h⟩ := h
  have hchecked := assertLimits_eq_ok hlimits
  split at h
  next => simp at h
  next hexpiry =>
  exact
    { active := not_not.mp hactive
      action := not_not.mp haction
      asset := Bool.eq_true_of_not_eq_false hasset
      network := Bool.eq_true_of_not_eq_false hnetwork
      categories := Bool.eq_true_of_not_eq_false hcategories
      recipients := Bool.eq_true_of_not_eq_false hrecipients
      single := ⟨single, hsingle, hchecked single _ "single_transaction" (by simp)⟩
      daily := ⟨daily, hdaily, hchecked daily _ "daily" (by simp)⟩
      weekly := ⟨weekly, hweekly, hchecked weekly _ "weekly" (by simp)⟩
      monthly := ⟨monthly, hmonthly, hchecked monthly _ "monthly" (by simp)⟩
      expiry := Bool.eq_false_of_not_eq_true hexpiry }

theorem findParent_eq_some {input : CreateCapabilityInput}
    {parentId : String} {db : Database} {parent : Capability}
    (h : findParent input parentId db = some parent) :
    parent ∈ db.capabilities ∧ parent.id = parentId ∧
      parent.companyId = input.companyId ∧
      parent.agentId = input.agentId := by
  have hmem := List.mem_of_find?_eq_some h
  have hkeys := List.find?_some h
  rw [decide_eq_true_eq] at hkeys
  exact ⟨hmem, hkeys⟩

/-- What a revocation does to a row: the capability of the id and its active
children are revoked. -/
def cascade (companyId capabilityId : String) (now : ℤ)
    (capability : Capability) : Capability :=
  if capability.id = capabilityId ∨ capability.companyId = companyId ∧
      capability.parentCapabilityId = some capabilityId ∧
      capability.status = .active then revoke now capability
  else capability

theorem revokeCapability_rows (companyId capabilityId : String) (now : ℤ)
    (db : Database) :
    (revokeCapability companyId capabilityId now db).2.capabilities =
        db.capabilities ∨
      (∃ target ∈ db.capabilities, target.id = capabilityId ∧
        target.companyId = companyId) ∧
      (revokeCapability companyId capabilityId now db).2.capabilities =
        db.capabilities.map (cascade companyId capabilityId now) := by
  rcases Fallible.allOrNothing_transaction _ db with
    ⟨failure, hrun⟩ | ⟨result, db', hrun⟩
  · exact Or.inl (by rw [revokeCapability, hrun])
  · right
    rw [revokeCapability, hrun]
    rw [Fallible.transaction_eq_ok, Fallible.query_bind] at hrun
    cases hfound : capabilityTable.find (fun c =>
        c.id = capabilityId ∧ c.companyId = companyId) db with
    | none =>
      simp only [hfound] at hrun
      simp at hrun
    | some cap =>
      simp only [hfound] at hrun
      have hmem := List.mem_of_find?_eq_some hfound
      have hkeys := List.find?_some hfound
      rw [decide_eq_true_eq] at hkeys
      refine ⟨⟨cap, hmem, hkeys⟩, ?_⟩
      unfold Table.updateMany at hrun
      rw [Fallible.change_bind] at hrun
      obtain ⟨row, _, _, hstate⟩ := Table.update_eq_ok.mp hrun
      rw [hstate]
      change (KeyedTable.modify Capability.id cap.id (revoke now)
        (capabilityTable.rows (capabilityTable.modifyAll _ (revoke now)
          db))) = _
      rw [Table.rows_modifyAll, KeyedTable.modify, List.map_map, hkeys.1]
      apply List.map_congr_left
      intro c _
      unfold cascade
      simp only [Function.comp_apply, decide_eq_true_eq]
      by_cases hchild : c.companyId = companyId ∧
          c.parentCapabilityId = some capabilityId ∧ c.status = .active
      · by_cases hid : c.id = capabilityId <;> simp [hchild, hid, revoke]
      · by_cases hid : c.id = capabilityId <;> simp [hchild, hid]

theorem expireCapabilities_rows (companyId : String) (now : ℤ)
    (db : Database) :
    (expireCapabilities companyId now db).2.capabilities =
      db.capabilities.map (fun c =>
        if c.companyId = companyId ∧ Overdue now c then expire c else c) := by
  change (capabilityTable.rows (capabilityTable.modifyAll _ expire db)) = _
  rw [Table.rows_modifyAll]
  apply List.map_congr_left
  intro c _
  simp only [decide_eq_true_eq]

theorem ahead_of_expiry {expiry : Option ℤ} {now : ℤ}
    (h : expiry = none ∨ ∃ instant, expiry = some instant ∧ now < instant) :
    ∀ instant, expiry = some instant → now < instant := by
  intro instant hinstant
  rcases h with hnone | ⟨other, hsome, hahead⟩
  · rw [hnone] at hinstant
    exact absurd hinstant (by simp)
  · rw [hsome, Option.some.injEq] at hinstant
    rwa [← hinstant]

end Capabilities
end Orvex
