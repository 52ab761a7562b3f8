import Orvex.Core.Reference
import Orvex.Policy.Calls

/-!
# The life of a version under concurrent calls

Where no call commits a write after another call has changed what it has
read, a version moves along the transitions, a policy has one active version
and an agent has one active constitution, which it names.
-/

namespace Orvex
namespace Policies

open ReadCommitted (Event Machine Script Write overlay)
open ReadCommitted.Steps (safe_query safe_throw safe_transaction_last
  safe_transaction_pure safe_transaction_query safe_transaction_throw
  safe_transaction_updateMany safe_transaction_write)

/-! ## What a call reads -/

def versionStatus (id : String) (db : Database) :
    Option PolicyVersionStatus :=
  (policyVersionTable.lookup id db).map PolicyVersion.status

def constitutionStatus (id : String) (db : Database) :
    Option ConstitutionStatus :=
  (constitutionTable.lookup id db).map Constitution.status

def isActiveOf (policyId : String) (version : PolicyVersion) : Bool :=
  decide (version.policyId = policyId ∧ version.status = .active)

def isAppointedBy (companyId agentId : String) (c : Constitution) : Bool :=
  decide (c.companyId = companyId ∧ c.agentId = agentId ∧ c.status = .active)

/-- What decides a call: its version or its constitution, and the rows that
it would supersede. -/
structure Observed where
  version : Option (PolicyVersionStatus × String)
  constitution : Option (ConstitutionStatus × String × String)
  active : List String
  deriving DecidableEq

def versionSeen (id : String) (db : Database) :
    Option (PolicyVersionStatus × String) :=
  (policyVersionTable.lookup id db).map (fun version =>
    (version.status, version.policyId))

def constitutionSeen (id : String) (db : Database) :
    Option (ConstitutionStatus × String × String) :=
  (constitutionTable.lookup id db).map (fun c =>
    (c.status, c.companyId, c.agentId))

def VersionCall.observe (call : VersionCall) (db : Database) : Observed :=
  match call with
  | .createDraft _ ids => ⟨versionSeen ids.version db, none, []⟩
  | .validate _ id => ⟨versionSeen id db, none, []⟩
  | .simulate _ id => ⟨versionSeen id db, none, []⟩
  | .approve _ id _ => ⟨versionSeen id db, none, []⟩
  | .disable _ id => ⟨versionSeen id db, none, []⟩
  | .activate _ id _ =>
      ⟨versionSeen id db, none,
        ((versionSeen id db).map (fun seen =>
          ReadCommitted.Steps.matching policyVersionTable
            (isActiveOf seen.2) db)).getD []⟩
  | .activateConstitution _ id _ =>
      ⟨none, constitutionSeen id db,
        ((constitutionSeen id db).map (fun seen =>
          ReadCommitted.Steps.matching constitutionTable
            (isAppointedBy seen.2.1 seen.2.2) db)).getD []⟩

/-! ## What every commit keeps -/

/-- A policy has at most one active version. -/
def OneActive (versions : List PolicyVersion) : Prop :=
  ∀ v ∈ versions, ∀ w ∈ versions, v.status = .active → w.status = .active →
    v.policyId = w.policyId → v.id = w.id

/-- The constitution that an agent names. -/
def appointed (agentId : String) (db : Database) : Option String :=
  (agentTable.lookup agentId db).bind Agent.activeConstitutionId

/-- The constitutions of an agent are in one company, the agent exists, and
it names the one that is active. -/
structure Appointments (db : Database) : Prop where
  company : ∀ c ∈ db.constitutions, ∀ d ∈ db.constitutions,
    c.agentId = d.agentId → c.companyId = d.companyId
  agent : ∀ c ∈ db.constitutions, (agentTable.lookup c.agentId db).isSome
  named : ∀ c ∈ db.constitutions, c.status = .active →
    appointed c.agentId db = some c.id

structure Consistent (db : Database) : Prop where
  versionKeys : KeyedTable.UniqueKeys PolicyVersion.id db.policyVersions
  oneActive : OneActive db.policyVersions
  constitutionKeys : KeyedTable.UniqueKeys Constitution.id db.constitutions
  appointments : Appointments db

/-- A version stays, is created as a draft, or makes a transition. -/
inductive VersionMove :
    Option PolicyVersionStatus → Option PolicyVersionStatus → Prop
  | stays (status : Option PolicyVersionStatus) : VersionMove status status
  | created : VersionMove none (some .draft)
  | moves {status target : PolicyVersionStatus}
      (h : target ∈ versionTransitions status) :
      VersionMove (some status) (some target)

/-- A status that is never left. -/
def Retired (status : ConstitutionStatus) : Prop :=
  status = .superseded ∨ status = .disabled

/-- What one commit may do. -/
structure Legal (db db' : Database) : Prop where
  versions : ∀ id, VersionMove (versionStatus id db) (versionStatus id db')
  constitutions : ∀ id status, constitutionStatus id db = some status →
    Retired status → constitutionStatus id db' = some status

theorem Legal.refl (db : Database) : Legal db db :=
  ⟨fun _ => .stays _, fun _ _ h _ => h⟩

abbrev SafeCall (call : VersionCall) (script : VersionScript)
    (pending : List (Write Database RowKey)) (o : Observed) : Prop :=
  script.Safe Consistent Legal (fun _ => True) call.observe
    (fun _ _ => True) pending o

/-! ## Commits on versions -/

section

variable {db db' : Database}

/-- Only the versions are written, each by `change`. -/
structure Rewrites (change : PolicyVersion → PolicyVersion)
    (db db' : Database) : Prop where
  versions : db'.policyVersions = db.policyVersions.map change
  constitutions : db'.constitutions = db.constitutions
  agents : db'.agents = db.agents

theorem Appointments.of_same (h : Appointments db)
    (hconstitutions : db'.constitutions = db.constitutions)
    (hagents : db'.agents = db.agents) : Appointments db' := by
  have hlookup : ∀ id, agentTable.lookup id db' = agentTable.lookup id db := by
    intro id
    change KeyedTable.lookup Agent.id id db'.agents = _
    rw [hagents]
    rfl
  constructor
  · rw [hconstitutions]
    exact h.company
  · rw [hconstitutions]
    intro c hc
    rw [hlookup]
    exact h.agent c hc
  · rw [hconstitutions]
    intro c hc hactive
    unfold appointed
    rw [hlookup]
    exact h.named c hc hactive

theorem constitutionStatus_of_same
    (hconstitutions : db'.constitutions = db.constitutions) (id : String) :
    constitutionStatus id db' = constitutionStatus id db := by
  unfold constitutionStatus
  change (KeyedTable.lookup Constitution.id id db'.constitutions).map _ = _
  rw [hconstitutions]
  rfl

theorem Rewrites.commits {change : PolicyVersion → PolicyVersion}
    (hwrites : Rewrites change db db') (h : Consistent db)
    (hkey : KeyedTable.KeepsKey PolicyVersion.id change)
    (hmove : ∀ v ∈ db.policyVersions,
      VersionMove (some v.status) (some (change v).status))
    (hactive : OneActive (db.policyVersions.map change)) :
    Consistent db' ∧ Legal db db' := by
  refine ⟨⟨?_, ?_, ?_, ?_⟩, ?_, ?_⟩
  · have hids : (db.policyVersions.map change).map PolicyVersion.id =
        db.policyVersions.map PolicyVersion.id := by
      rw [List.map_map]
      exact List.map_congr_left (fun v _ => hkey v)
    unfold KeyedTable.UniqueKeys
    rw [hwrites.versions, hids]
    exact h.versionKeys
  · rw [hwrites.versions]
    exact hactive
  · rw [hwrites.constitutions]
    exact h.constitutionKeys
  · exact h.appointments.of_same hwrites.constitutions hwrites.agents
  · intro id
    have hlookup : policyVersionTable.lookup id db' =
        (policyVersionTable.lookup id db).map change := by
      change KeyedTable.lookup PolicyVersion.id id db'.policyVersions = _
      rw [hwrites.versions, KeyedTable.lookup_map hkey]
      rfl
    unfold versionStatus
    rw [hlookup]
    cases hrow : policyVersionTable.lookup id db with
    | none => exact .stays none
    | some v => exact hmove v (KeyedTable.mem_of_lookup hrow)
  · intro id status hstatus _
    rw [constitutionStatus_of_same hwrites.constitutions]
    exact hstatus

/-- A change of a version that moves it to `target`. -/
structure MovesTo (target : PolicyVersionStatus)
    (change : PolicyVersion → PolicyVersion) : Prop where
  id : ∀ v, (change v).id = v.id
  policyId : ∀ v, (change v).policyId = v.policyId
  status : ∀ v, (change v).status = target

theorem commits_move (h : Consistent db) {id : String}
    {status target : PolicyVersionStatus}
    (hstatus : versionStatus id db = some status)
    (htarget : target ∈ versionTransitions status)
    (hinactive : target ≠ .active)
    {change : PolicyVersion → PolicyVersion} (hchange : MovesTo target change) :
    Consistent (policyVersionTable.modify id change db) ∧
      Legal db (policyVersionTable.modify id change db) := by
  refine Rewrites.commits ⟨rfl, rfl, rfl⟩ h ?_ ?_ ?_
  · intro v
    beta_reduce
    split
    · exact hchange.id v
    · rfl
  · intro v hv
    split
    next hid =>
      have hrow : policyVersionTable.lookup v.id db = some v :=
        KeyedTable.lookup_of_mem h.versionKeys hv
      have hid : v.id = id := hid
      unfold versionStatus at hstatus
      rw [← hid, hrow, Option.map_some, Option.some.injEq] at hstatus
      rw [hchange.status, hstatus]
      exact .moves htarget
    next => exact .stays _
  · have hsame : ∀ v : PolicyVersion, (if policyVersionTable.key v = id
        then change v else v).status = .active →
        (if policyVersionTable.key v = id then change v else v) = v := by
      intro v hactive
      split at hactive
      next hid =>
        rw [hchange.status] at hactive
        exact absurd hactive hinactive
      next hid => exact if_neg hid
    intro v hv w hw hvActive hwActive hpolicy
    obtain ⟨v, hvMem, rfl⟩ := List.mem_map.mp hv
    obtain ⟨w, hwMem, rfl⟩ := List.mem_map.mp hw
    have hvSame := hsame v hvActive
    have hwSame := hsame w hwActive
    rw [hvSame] at hvActive hpolicy ⊢
    rw [hwSame] at hwActive hpolicy ⊢
    exact h.oneActive v hvMem w hwMem hvActive hwActive hpolicy

end

/-! ## Calls that move one version -/

section

open ReadCommitted.Steps (answering ofExcept transaction)

variable {call : VersionCall} {α β : Type}
  {answer : Except Failure α → VersionAnswer}
  {pending : List (Write Database RowKey)} {o : Observed}

abbrev SafeSteps (call : VersionCall)
    (answer : Except Failure α → VersionAnswer) (steps : PolicySteps α)
    (pending : List (Write Database RowKey)) (o : Observed) : Prop :=
  ReadCommitted.Steps.Safe Consistent Legal (fun _ => True) call.observe
    (fun _ _ => True) answer steps pending o

theorem safe_reading {f : Database → Except Failure β}
    {k : β → PolicySteps α}
    (h : ∀ tables, Consistent tables → call.observe tables = o →
      ∀ b, f (overlay pending tables) = .ok b →
        SafeSteps call answer (k b) pending o) :
    SafeSteps call answer (readingSteps f >>= k) pending o := by
  intro tables hconsistent _ hobserve
  have hsafe := h tables hconsistent hobserve
  beta_reduce
  cases hread : f (overlay pending tables) with
  | error failure => trivial
  | ok b => exact hsafe b hread

theorem safe_transaction_reading {f : Database → Except Failure β}
    {k : β → PolicySteps α}
    (h : ∀ tables, Consistent tables → call.observe tables = o →
      ∀ b, f (overlay pending tables) = .ok b →
        SafeSteps call answer (transaction (k b)) pending o) :
    SafeSteps call answer (transaction (readingSteps f >>= k)) pending o := by
  intro tables hconsistent _ hobserve
  have hsafe := h tables hconsistent hobserve
  beta_reduce
  cases hread : f (overlay pending tables) with
  | error failure => trivial
  | ok b => exact hsafe b hread

/-- A check that refuses ends the statements. -/
theorem safe_check {result : Except Failure Unit} {k : PolicySteps α}
    (h : result = .ok () → SafeSteps call answer k pending o) :
    SafeSteps call answer (ofExcept result >>= fun () => k) pending o := by
  cases hresult : result with
  | error failure => trivial
  | ok _ => exact h hresult

theorem safe_transaction_check {result : Except Failure Unit}
    {k : PolicySteps α}
    (h : result = .ok () →
      SafeSteps call answer (transaction k) pending o) :
    SafeSteps call answer (transaction (ofExcept result >>= fun () => k))
      pending o := by
  cases hresult : result with
  | error failure => trivial
  | ok _ => exact h hresult

/-- The version that a call requires is the one it observes. -/
theorem seen_of_required {companyId id : String} {tables : Database}
    (h : Consistent tables) {current : PolicyVersion}
    (hfound : requireVersion companyId id tables = .ok current) :
    current.id = id ∧
      versionSeen id tables = some (current.status, current.policyId) := by
  obtain ⟨hmem, hid, -⟩ :=
    getVersion_eq_some (requireVersion_eq_ok.mp hfound)
  have hrow : policyVersionTable.lookup current.id tables = some current :=
    KeyedTable.lookup_of_mem h.versionKeys hmem
  refine ⟨hid, ?_⟩
  unfold versionSeen
  rw [← hid, hrow]
  rfl

theorem status_of_seen {id : String} {tables : Database}
    {status : PolicyVersionStatus} {policyId : String}
    (h : versionSeen id tables = some (status, policyId)) :
    versionStatus id tables = some status := by
  obtain ⟨row, hrow, heq⟩ := Option.map_eq_some_iff.mp h
  cases heq
  unfold versionStatus
  rw [hrow]
  rfl

/-- The commit of a move, while what was observed holds. -/
theorem commits_observed {id : String} {tables : Database}
    (h : Consistent tables) {status target : PolicyVersionStatus}
    {policyId : String}
    (hseen : versionSeen id tables = some (status, policyId))
    (hstatus : assertTransition status target = .ok ())
    (hinactive : target ≠ .active)
    {change : PolicyVersion → PolicyVersion}
    (hchange : MovesTo target change) :
    Consistent (policyVersionTable.modify id change tables) ∧
      Legal tables (policyVersionTable.modify id change tables) :=
  commits_move h (status_of_seen hseen) (assertTransition_eq_ok.mp hstatus)
    hinactive hchange

/-- A statement that writes one version at the end of a transaction. -/
theorem safe_last_update {id : String} {change : PolicyVersion → PolicyVersion}
    {answer : Except Failure PolicyVersion → VersionAnswer}
    (h : ∀ tables, Consistent tables → call.observe tables = o →
      Consistent (policyVersionTable.modify id change tables) ∧
        Legal tables (policyVersionTable.modify id change tables)) :
    SafeSteps call answer
      (transaction (ReadCommitted.Steps.update policyVersionTable
        RowKey.version .recordNotFound id change)) [] o := by
  apply safe_transaction_last
  · intro tables _ _ _ own row hplan later hlater _ hobserve
    obtain ⟨found, -, hwrite⟩ := Option.map_eq_some_iff.mp hplan
    cases hwrite
    obtain ⟨hkept, hlegal⟩ := h later hlater hobserve
    exact ⟨hkept, hlegal, trivial⟩
  · trivial

theorem safe_transition {companyId id : String}
    {target : PolicyVersionStatus}
    (hobserves : ∀ db, (call.observe db).version = versionSeen id db)
    (hinactive : target ≠ .active)
    (answer : Except Failure PolicyVersion → VersionAnswer) :
    SafeSteps call answer (transitionSteps companyId id target) [] o := by
  apply safe_reading
  intro tables htables hobserve current hfound
  obtain ⟨hid, hseen⟩ := seen_of_required htables hfound
  apply safe_check
  intro hstatus
  apply safe_last_update
  intro later hlater hsame
  have hsameSeen : versionSeen id later = versionSeen id tables := by
    rw [← hobserves, ← hobserves, hsame, hobserve]
  rw [hid]
  exact commits_observed hlater (hsameSeen.trans hseen) hstatus hinactive
    ⟨fun _ => rfl, fun _ => rfl, fun _ => rfl⟩

theorem safe_approve {companyId id : String} {approvedBy : Option String}
    (hobserves : ∀ db, (call.observe db).version = versionSeen id db)
    (answer : Except Failure PolicyVersion → VersionAnswer) :
    SafeSteps call answer (approveSteps companyId id approvedBy) [] o := by
  apply safe_transaction_reading
  intro tables htables hobserve current hfound
  obtain ⟨hid, hseen⟩ := seen_of_required htables hfound
  apply safe_transaction_check
  intro hstatus
  apply safe_last_update
  intro later hlater hsame
  have hsameSeen : versionSeen id later = versionSeen id tables := by
    rw [← hobserves, ← hobserves, hsame, hobserve]
  rw [hid]
  exact commits_observed hlater (hsameSeen.trans hseen) hstatus (by decide)
    ⟨fun _ => rfl, fun _ => rfl, fun _ => rfl⟩

end

/-! ## Activating a version -/

section

variable {tables : Database} {ids : List String} {policyId : String}

/-- The rows that were found are superseded where they are still active. -/
def swept (policyId : String) (ids : List String) (now : ℤ)
    (v : PolicyVersion) : PolicyVersion :=
  if decide (v.id ∈ ids) && isActiveOf policyId v then
    { v with status := .superseded, deactivatedAt := some now }
  else v

/-- What an activation makes of a version. -/
def afterActivation (policyId : String) (ids : List String) (id : String)
    (now : ℤ) (v : PolicyVersion) : PolicyVersion :=
  if v.id = id then activated now (swept policyId ids now v)
  else swept policyId ids now v

theorem swept_id (now : ℤ) (v : PolicyVersion) :
    (swept policyId ids now v).id = v.id := by
  unfold swept
  split <;> rfl

theorem swept_policyId (now : ℤ) (v : PolicyVersion) :
    (swept policyId ids now v).policyId = v.policyId := by
  unfold swept
  split <;> rfl

/-- A version that is active after the sweep was active before, and it is of
another policy if the sweep found all. -/
theorem active_of_swept {now : ℤ} {v : PolicyVersion}
    (hids : isActiveOf policyId v = true → v.id ∈ ids)
    (h : (swept policyId ids now v).status = .active) :
    v.status = .active ∧ v.policyId ≠ policyId := by
  unfold swept at h
  split at h
  next => cases h
  next hkept =>
    refine ⟨h, ?_⟩
    intro hpolicy
    apply hkept
    have hactive : isActiveOf policyId v = true := decide_eq_true ⟨hpolicy, h⟩
    rw [hactive, decide_eq_true (hids hactive), Bool.and_self]

theorem move_of_swept (now : ℤ) (v : PolicyVersion) :
    VersionMove (some v.status)
      (some (swept policyId ids now v).status) := by
  unfold swept
  split
  next hfound =>
    rw [Bool.and_eq_true] at hfound
    have hactive := (of_decide_eq_true hfound.2).2
    have hallowed : PolicyVersionStatus.superseded ∈
        versionTransitions .active := by decide
    rw [hactive]
    exact .moves hallowed
  next => exact .stays _

theorem afterActivation_id {id : String} (now : ℤ) (v : PolicyVersion) :
    (afterActivation policyId ids id now v).id = v.id := by
  unfold afterActivation
  split
  · exact swept_id now v
  · exact swept_id now v

theorem afterActivation_policyId {id : String} (now : ℤ)
    (v : PolicyVersion) :
    (afterActivation policyId ids id now v).policyId = v.policyId := by
  unfold afterActivation
  split
  · exact swept_policyId now v
  · exact swept_policyId now v

/-- The commit of an activation, while what was observed holds. -/
theorem commits_activation (h : Consistent tables) {id : String} {now : ℤ}
    (hseen : versionSeen id tables = some (.approved, policyId))
    (hids : ReadCommitted.Steps.matching policyVersionTable
      (isActiveOf policyId) tables = ids)
    {db : Database}
    (hwrites : Rewrites (afterActivation policyId ids id now) tables db) :
    Consistent db ∧ Legal tables db := by
  obtain ⟨target, htarget, hvalue⟩ := Option.map_eq_some_iff.mp hseen
  rw [Prod.mk.injEq] at hvalue
  have hfound : ∀ v ∈ tables.policyVersions,
      isActiveOf policyId v = true → v.id ∈ ids := by
    intro v hv hactive
    rw [← hids]
    exact List.mem_map_of_mem (List.mem_filter.mpr ⟨hv, hactive⟩)
  have hrow : ∀ v ∈ tables.policyVersions, v.id = id → v = target := by
    intro v hv hid
    have hlookup := KeyedTable.lookup_of_mem h.versionKeys hv
    rw [hid] at hlookup
    exact Option.some.inj (hlookup.symm.trans htarget)
  refine hwrites.commits h ?_ ?_ ?_
  · exact afterActivation_id now
  · intro v hv
    unfold afterActivation
    split
    next hid =>
      have hallowed : PolicyVersionStatus.active ∈
          versionTransitions .approved := by decide
      rw [hrow v hv hid, hvalue.1]
      exact .moves hallowed
    next => exact move_of_swept now v
  · -- The activated version is the only active one of its policy, and the
    -- others were active before.
    have hcases : ∀ v ∈ tables.policyVersions,
        (afterActivation policyId ids id now v).status = .active →
          v.id = id ∧ v.policyId = policyId ∨
            v.status = .active ∧ v.policyId ≠ policyId := by
      intro v hv hactive
      unfold afterActivation at hactive
      split at hactive
      next hid =>
        refine Or.inl ⟨hid, ?_⟩
        rw [hrow v hv hid]
        exact hvalue.2
      next => exact Or.inr (active_of_swept (hfound v hv) hactive)
    intro v hv w hw hvActive hwActive hpolicy
    obtain ⟨v, hvMem, rfl⟩ := List.mem_map.mp hv
    obtain ⟨w, hwMem, rfl⟩ := List.mem_map.mp hw
    rw [afterActivation_policyId, afterActivation_policyId] at hpolicy
    rw [afterActivation_id, afterActivation_id]
    rcases hcases v hvMem hvActive with ⟨hvId, hvPolicy⟩ | ⟨hvKept, hvOther⟩
    · rcases hcases w hwMem hwActive with ⟨hwId, -⟩ | ⟨-, hwOther⟩
      · rw [hvId, hwId]
      · exact absurd (hpolicy.symm.trans hvPolicy) hwOther
    · rcases hcases w hwMem hwActive with ⟨-, hwPolicy⟩ | ⟨hwKept, -⟩
      · exact absurd (hpolicy.trans hwPolicy) hvOther
      · exact h.oneActive v hvMem w hwMem hvKept hwKept hpolicy

/-- The writes of an activation. -/
theorem rewrites_activation (policyId : String) (ids : List String)
    (id : String) (now : ℤ) (promote : Policy → Policy) (db : Database) :
    Rewrites (afterActivation policyId ids id now) db
      (policyTable.modify policyId promote
        (policyVersionTable.modify id (activated now)
          (policyVersionTable.modifyAll
            (fun v => decide (v.id ∈ ids) && isActiveOf policyId v)
            (fun v =>
              { v with status := .superseded, deactivatedAt := some now })
            db))) := by
  refine ⟨?_, rfl, rfl⟩
  change (db.policyVersions.map (swept policyId ids now)).map
    (fun v => if v.id = id then activated now v else v) = _
  rw [List.map_map]
  apply List.map_congr_left
  intro v _
  unfold afterActivation
  rw [Function.comp_apply, swept_id]

theorem safe_activate {call : VersionCall} {companyId id : String} {now : ℤ}
    {o : Observed} (hcall : call = .activate companyId id now)
    (answer : Except Failure PolicyVersion → VersionAnswer) :
    SafeSteps call answer (activateSteps companyId id now) [] o := by
  have hobserves : ∀ db, (call.observe db).version = versionSeen id db := by
    rw [hcall]
    exact fun _ => rfl
  have hactive : ∀ db, ∀ status policyId,
      versionSeen id db = some (status, policyId) →
        (call.observe db).active = ReadCommitted.Steps.matching
          policyVersionTable (isActiveOf policyId) db := by
    intro db status policyId hseen
    rw [hcall, VersionCall.observe, hseen]
    rfl
  apply safe_transaction_reading
  intro tables htables hobserve target hfound
  obtain ⟨hid, hseen⟩ := seen_of_required htables hfound
  apply safe_transaction_check
  intro hstatus
  have happroved := approved_of_active_mem (assertTransition_eq_ok.mp hstatus)
  rw [happroved] at hseen
  have hsameSeen : ∀ later, call.observe later = o →
      versionSeen id later = some (.approved, target.policyId) := by
    intro later hsame
    rw [← hseen, ← hobserves, ← hobserves, hsame, hobserve]
  apply safe_transaction_updateMany
  intro sweeping _ _ hsweeping
  have hids := hactive sweeping _ _ (hsameSeen sweeping hsweeping)
  rw [hsweeping] at hids
  apply safe_transaction_write
  · intro _ _ _ _ own row hplan
    obtain ⟨approved, -, hwrite⟩ := Option.map_eq_some_iff.mp hplan
    cases hwrite
    apply safe_transaction_write
    · intro _ _ _ _ own policy hplan
      obtain ⟨found, -, hwrite⟩ := Option.map_eq_some_iff.mp hplan
      cases hwrite
      apply safe_transaction_pure
      intro later hlater _ hsame
      have hlaterSeen := hsameSeen later hsame
      have hlaterIds := hactive later _ _ hlaterSeen
      rw [hsame] at hlaterIds
      have hwrites := rewrites_activation target.policyId o.active id now
        (promoted (activated now approved).version) later
      obtain ⟨hkept, hlegal⟩ :=
        commits_activation hlater hlaterSeen hlaterIds.symm hwrites
      rw [hids, ← hid] at hkept hlegal
      exact ⟨hkept, hlegal, trivial⟩
    · trivial
  · trivial

end

/-! ## Creating a draft -/

section

open ReadCommitted.Steps (create ofOption transaction)

variable {call : VersionCall} {α β : Type}
  {answer : Except Failure α → VersionAnswer}
  {pending : List (Write Database RowKey)} {o : Observed}

/-- The writes change neither versions nor constitutions nor agents. -/
def Unrelated (pending : List (Write Database RowKey)) : Prop :=
  ∀ db, Rewrites id db (overlay pending db)

/-- The writes create this version, and change no other version, no
constitution and no agent. -/
structure Inserts (version : PolicyVersion) (db db' : Database) : Prop where
  versions : db'.policyVersions = db.policyVersions ++ [version]
  constitutions : db'.constitutions = db.constitutions
  agents : db'.agents = db.agents

def Drafts (version : PolicyVersion)
    (pending : List (Write Database RowKey)) : Prop :=
  ∀ db, Inserts version db (overlay pending db)

theorem Inserts.commits {version : PolicyVersion} {db db' : Database}
    (hinserts : Inserts version db db') (h : Consistent db)
    (hdraft : version.status = .draft)
    (hfresh : versionSeen version.id db = none) :
    Consistent db' ∧ Legal db db' := by
  have hnew : policyVersionTable.lookup version.id db = none :=
    Option.map_eq_none_iff.mp hfresh
  refine ⟨⟨?_, ?_, ?_, ?_⟩, ?_, ?_⟩
  · rw [hinserts.versions]
    exact h.versionKeys.append_singleton hnew
  · have hold : ∀ v ∈ db.policyVersions ++ [version], v.status = .active →
        v ∈ db.policyVersions := by
      intro v hv hactive
      rcases List.mem_append.mp hv with hmem | hmem
      · exact hmem
      · rw [List.mem_singleton.mp hmem, hdraft] at hactive
        cases hactive
    rw [hinserts.versions]
    intro v hv w hw hvActive hwActive
    exact h.oneActive v (hold v hv hvActive) w (hold w hw hwActive) hvActive
      hwActive
  · rw [hinserts.constitutions]
    exact h.constitutionKeys
  · exact h.appointments.of_same hinserts.constitutions hinserts.agents
  · intro id
    have hlookup : policyVersionTable.lookup id db' =
        (policyVersionTable.lookup id db).or
          (if version.id = id then some version else none) := by
      change KeyedTable.lookup PolicyVersion.id id db'.policyVersions = _
      rw [hinserts.versions, KeyedTable.lookup_append_singleton]
      rfl
    unfold versionStatus
    rw [hlookup]
    cases hrow : policyVersionTable.lookup id db with
    | some v => exact .stays _
    | none =>
        rw [Option.none_or]
        split
        · rw [Option.map_some, hdraft]
          exact .created
        · exact .stays _
  · intro id status hstatus _
    rw [constitutionStatus_of_same hinserts.constitutions]
    exact hstatus

theorem safe_transaction_ofOption {e : Failure} {result : Option β}
    {k : β → PolicySteps α}
    (h : ∀ b, result = some b →
      SafeSteps call answer (transaction (k b)) pending o) :
    SafeSteps call answer (transaction (ofOption e result >>= k)) pending
      o := by
  cases hresult : result with
  | none => trivial
  | some b => exact h b hresult

theorem safe_transaction_create {ρ : Type} {t : Table Database ρ}
    {keys : List RowKey} {refused : Failure} {allowed : Database → Bool}
    {row : ρ} {k : ρ → PolicySteps α}
    (h : ∀ tables, Consistent tables → call.observe tables = o →
      t.lookup (t.key row) (overlay pending tables) = none →
        SafeSteps call answer (transaction (k row))
          (pending ++ [⟨keys, t.insert row⟩]) o) :
    SafeSteps call answer
      (transaction (create t keys refused allowed row >>= k)) pending o := by
  apply safe_transaction_write
  · intro tables htables _ hobserve own made hplan
    obtain ⟨hallowed, hwrite⟩ := Option.ite_none_right_eq_some.mp hplan
    cases hwrite
    rw [Bool.and_eq_true, Option.isNone_iff_eq_none] at hallowed
    exact h tables htables hobserve hallowed.1
  · trivial

theorem safe_createRules {version : PolicyVersion}
    {versionId : String} {uuid : ℕ → String} {rules : List CompiledRule}
    {k : Unit → PolicySteps α} (hpending : Drafts version pending)
    (h : ∀ later, Drafts version later →
      SafeSteps call answer (transaction (k ())) later o) :
    SafeSteps call answer
      (transaction (createRulesSteps versionId uuid rules >>= k)) pending
      o := by
  induction rules generalizing uuid pending with
  | nil => exact h pending hpending
  | cons rule rest ih =>
      rw [createRulesSteps, ReadCommitted.Steps.bind_assoc, createRuleSteps,
        ReadCommitted.Steps.bind_assoc]
      apply safe_transaction_ofOption
      intro priority _
      apply safe_transaction_create
      intro _ _ _ _
      apply ih
      intro db
      rw [ReadCommitted.overlay_append_singleton]
      exact ⟨(hpending db).versions, (hpending db).constitutions,
        (hpending db).agents⟩

theorem safe_findOrCreatePolicy {input : CreateDraftInput}
    {name uuid : String} {k : Policy → PolicySteps α}
    (h : ∀ policy later, Unrelated later →
      SafeSteps call answer (transaction (k policy)) later o) :
    SafeSteps call answer
      (transaction (findOrCreatePolicySteps input name uuid >>= k)) [] o := by
  rw [findOrCreatePolicySteps, ReadCommitted.Steps.bind_assoc]
  apply safe_transaction_query
  intro tables _ _ _
  split
  next policy _ =>
    apply h
    intro db
    exact ⟨(List.map_id _).symm, rfl, rfl⟩
  next =>
    apply safe_transaction_create
    intro _ _ _ _
    apply h
    intro db
    exact ⟨(List.map_id _).symm, rfl, rfl⟩

theorem safe_createVersion {rt : Runtime} {input : CreateDraftInput}
    {policyId uuid : String} {rules : List CompiledRule}
    {k : PolicyVersion → PolicySteps α} (hpending : Unrelated pending)
    (h : ∀ version, version.id = uuid → version.status = .draft →
      (∃ tables, call.observe tables = o ∧ versionSeen uuid tables = none) →
        ∀ later, Drafts version later →
          SafeSteps call answer (transaction (k version)) later o) :
    SafeSteps call answer
      (transaction (createVersionSteps rt input policyId uuid rules >>= k))
      pending o := by
  rw [createVersionSteps, ReadCommitted.Steps.bind_assoc]
  apply safe_transaction_query
  intro _ _ _ _
  apply safe_transaction_create
  intro tables _ hobserve hfresh
  apply h
  · rfl
  · rfl
  · refine ⟨tables, hobserve, ?_⟩
    have hversions := (hpending tables).versions
    rw [List.map_id] at hversions
    unfold versionSeen
    change (KeyedTable.lookup PolicyVersion.id uuid
      (overlay pending tables).policyVersions) = none at hfresh
    rw [hversions] at hfresh
    exact congrArg (Option.map _) hfresh
  · intro db
    have hsame := hpending db
    rw [ReadCommitted.overlay_append_singleton]
    refine ⟨?_, hsame.constitutions, hsame.agents⟩
    have hversions := hsame.versions
    rw [List.map_id] at hversions
    rw [← hversions]
    rfl

theorem safe_createDraft {rt : Runtime} {input : CreateDraftInput}
    {ids : DraftIds} (hcall : call = .createDraft input ids)
    {steps : PolicySteps (Policy × PolicyVersion)}
    (hsteps : createDraftSteps rt input ids = steps)
    (answer : Except Failure (Policy × PolicyVersion) → VersionAnswer) :
    SafeSteps call answer steps [] o := by
  have hobserves : ∀ db,
      (call.observe db).version = versionSeen ids.version db := by
    rw [hcall]
    exact fun _ => rfl
  unfold createDraftSteps at hsteps
  extract_lets name at hsteps
  -- The text of the name does not matter.
  clear_value name
  rw [← hsteps]
  by_cases hname : name = ""
  · rw [if_pos hname]
    trivial
  · rw [if_neg hname]
    apply safe_check
    intro _
    apply safe_query
    intro tables _ _ _
    rw [ReadCommitted.overlay_nil]
    by_cases hknown : companyExists input.companyId tables = true
    · rw [if_pos hknown]
      apply safe_findOrCreatePolicy
      intro policy created hcreated
      apply safe_transaction_ofOption
      intro rules _
      apply safe_createVersion hcreated
      intro version hid hdraft hseen drafted hdrafts
      apply safe_createRules hdrafts
      intro last hlast
      apply safe_transaction_pure
      intro later hlater _ hsame
      obtain ⟨seen, hobserve, hfresh⟩ := hseen
      have hfreshLater : versionSeen version.id later = none := by
        rw [hid, ← hobserves, hsame, ← hobserve, hobserves]
        exact hfresh
      obtain ⟨hkept, hlegal⟩ :=
        (hlast later).commits hlater hdraft hfreshLater
      exact ⟨hkept, hlegal, trivial⟩
    · rw [if_neg hknown]
      trivial

end

/-! ## Activating a constitution -/

section

variable {tables db : Database} {ids : List String}
  {companyId agentId id : String} {now : ℤ}

def superseding (now : ℤ) (c : Constitution) : Constitution :=
  { c with status := .superseded, deactivatedAt := some now }

def appointing (now : ℤ) (c : Constitution) : Constitution :=
  { c with status := .active, activatedAt := some now }

def naming (id : String) (agent : Agent) : Agent :=
  { agent with activeConstitutionId := some id }

/-- What an activation makes of a constitution. -/
def afterAppointment (companyId agentId : String) (ids : List String)
    (id : String) (now : ℤ) (c : Constitution) : Constitution :=
  let kept := if decide (c.id ∈ ids) && isAppointedBy companyId agentId c
    then superseding now c else c
  if c.id = id then appointing now kept else kept

theorem afterAppointment_fields (c : Constitution) :
    (afterAppointment companyId agentId ids id now c).id = c.id ∧
      (afterAppointment companyId agentId ids id now c).companyId =
        c.companyId ∧
      (afterAppointment companyId agentId ids id now c).agentId =
        c.agentId := by
  unfold afterAppointment
  extract_lets kept
  have hkept : kept.id = c.id ∧ kept.companyId = c.companyId ∧
      kept.agentId = c.agentId := by
    unfold kept
    split
    · exact ⟨rfl, rfl, rfl⟩
    · exact ⟨rfl, rfl, rfl⟩
  split
  · exact hkept
  · exact hkept

/-- The tables after an activation. -/
structure Reappoints (companyId agentId : String) (ids : List String)
    (id : String) (now : ℤ) (db db' : Database) : Prop where
  versions : db'.policyVersions = db.policyVersions
  constitutions : db'.constitutions =
    db.constitutions.map (afterAppointment companyId agentId ids id now)
  agents : db'.agents =
    KeyedTable.modify Agent.id agentId (naming id) db.agents

theorem Reappoints.appointed
    (h : Reappoints companyId agentId ids id now tables db) (other : String) :
    agentTable.lookup other db =
      if other = agentId then
        (agentTable.lookup agentId tables).map (naming id)
      else agentTable.lookup other tables := by
  have hkeep : KeyedTable.KeepsKey Agent.id (naming id) := fun _ => rfl
  change KeyedTable.lookup Agent.id other db.agents = _
  rw [h.agents, KeyedTable.lookup_modify hkeep]
  rfl

/-- The constitution that is activated, with what the activation observed. -/
structure Appoints (companyId agentId : String) (ids : List String)
    (id : String) (tables : Database) (target : Constitution) : Prop where
  found : constitutionTable.lookup id tables = some target
  status : ¬ Retired target.status
  company : target.companyId = companyId
  agent : target.agentId = agentId
  active : ReadCommitted.Steps.matching constitutionTable
    (isAppointedBy companyId agentId) tables = ids

variable {target : Constitution}

theorem Appoints.row (h : Appoints companyId agentId ids id tables target)
    (hconsistent : Consistent tables) {c : Constitution}
    (hc : c ∈ tables.constitutions) (hid : c.id = id) : c = target := by
  have hlookup :=
    KeyedTable.lookup_of_mem hconsistent.constitutionKeys hc
  rw [hid] at hlookup
  exact Option.some.inj (hlookup.symm.trans h.found)

/-- A constitution that is active afterwards is the target, or it was active
and belongs to another agent. -/
theorem Appoints.active_after
    (h : Appoints companyId agentId ids id tables target)
    (hconsistent : Consistent tables) {c : Constitution}
    (hc : c ∈ tables.constitutions)
    (hactive : (afterAppointment companyId agentId ids id now c).status =
      .active) :
    c.id = id ∧ c.agentId = agentId ∨
      c.status = .active ∧ c.agentId ≠ agentId := by
  by_cases hid : c.id = id
  · refine Or.inl ⟨hid, ?_⟩
    rw [h.row hconsistent hc hid]
    exact h.agent
  · simp only [afterAppointment, if_neg hid] at hactive
    split at hactive
    next => cases hactive
    next hkept =>
      refine Or.inr ⟨hactive, ?_⟩
      intro hagent
      apply hkept
      have hcompany := hconsistent.appointments.company c hc target
        (KeyedTable.mem_of_lookup h.found) (hagent.trans h.agent.symm)
      have happointed : isAppointedBy companyId agentId c = true :=
        decide_eq_true ⟨hcompany.trans h.company, hagent, hactive⟩
      have hmem : c.id ∈ ids := by
        rw [← h.active]
        exact List.mem_map_of_mem (List.mem_filter.mpr ⟨hc, happointed⟩)
      rw [happointed, decide_eq_true hmem, Bool.and_self]

/-- A retired constitution is not touched. -/
theorem Appoints.retired_after
    (h : Appoints companyId agentId ids id tables target)
    (hconsistent : Consistent tables) {c : Constitution}
    (hc : c ∈ tables.constitutions) (hretired : Retired c.status) :
    afterAppointment companyId agentId ids id now c = c := by
  have hother : c.id ≠ id := by
    intro hid
    rw [h.row hconsistent hc hid] at hretired
    exact h.status hretired
  have hinactive : isAppointedBy companyId agentId c = false := by
    apply decide_eq_false
    intro happointed
    rw [happointed.2.2] at hretired
    rcases hretired with hsuperseded | hdisabled
    · cases hsuperseded
    · cases hdisabled
  unfold afterAppointment
  rw [if_neg hother, hinactive, Bool.and_false]
  rfl

theorem Appoints.appointments
    (h : Appoints companyId agentId ids id tables target)
    (hconsistent : Consistent tables)
    (hwrites : Reappoints companyId agentId ids id now tables db) :
    Appointments db := by
  have hagent := hwrites.appointed
  have hfields := @afterAppointment_fields ids companyId agentId id now
  constructor
  · rw [hwrites.constitutions]
    intro c hc d hd hsame
    obtain ⟨c, hcMem, rfl⟩ := List.mem_map.mp hc
    obtain ⟨d, hdMem, rfl⟩ := List.mem_map.mp hd
    rw [(hfields c).2.2, (hfields d).2.2] at hsame
    rw [(hfields c).2.1, (hfields d).2.1]
    exact hconsistent.appointments.company c hcMem d hdMem hsame
  · rw [hwrites.constitutions]
    intro c hc
    obtain ⟨c, hcMem, rfl⟩ := List.mem_map.mp hc
    have hexists := hconsistent.appointments.agent c hcMem
    rw [(hfields c).2.2, hagent]
    split
    next hsame =>
      rw [hsame] at hexists
      rw [Option.isSome_map]
      exact hexists
    next => exact hexists
  · rw [hwrites.constitutions]
    intro c hc hactive
    obtain ⟨c, hcMem, rfl⟩ := List.mem_map.mp hc
    rw [(hfields c).2.2, (hfields c).1]
    unfold Policies.appointed
    rw [hagent]
    rcases h.active_after hconsistent hcMem hactive with
      ⟨hid, hown⟩ | ⟨hwasActive, hother⟩
    · have hexists := hconsistent.appointments.agent c hcMem
      rw [hown] at hexists
      obtain ⟨row, hrow⟩ := Option.isSome_iff_exists.mp hexists
      rw [if_pos hown, hrow, hid]
      rfl
    · rw [if_neg hother]
      exact hconsistent.appointments.named c hcMem hwasActive

theorem Appoints.commits
    (h : Appoints companyId agentId ids id tables target)
    (hconsistent : Consistent tables)
    (hwrites : Reappoints companyId agentId ids id now tables db) :
    Consistent db ∧ Legal tables db := by
  have hkeep : KeyedTable.KeepsKey Constitution.id
      (afterAppointment companyId agentId ids id now) :=
    fun c => (afterAppointment_fields c).1
  refine ⟨⟨?_, ?_, ?_, h.appointments hconsistent hwrites⟩, ?_, ?_⟩
  · rw [hwrites.versions]
    exact hconsistent.versionKeys
  · rw [hwrites.versions]
    exact hconsistent.oneActive
  · have hids : (tables.constitutions.map
        (afterAppointment companyId agentId ids id now)).map
          Constitution.id = tables.constitutions.map Constitution.id := by
      rw [List.map_map]
      exact List.map_congr_left (fun c _ => hkeep c)
    unfold KeyedTable.UniqueKeys
    rw [hwrites.constitutions, hids]
    exact hconsistent.constitutionKeys
  · intro other
    have hsame : versionStatus other db = versionStatus other tables := by
      unfold versionStatus
      change (KeyedTable.lookup PolicyVersion.id other
        db.policyVersions).map _ = _
      rw [hwrites.versions]
      rfl
    rw [hsame]
    exact .stays _
  · intro other status hstatus hretired
    obtain ⟨c, hc, hcStatus⟩ := Option.map_eq_some_iff.mp hstatus
    have hlookup : constitutionTable.lookup other db =
        (constitutionTable.lookup other tables).map
          (afterAppointment companyId agentId ids id now) := by
      change KeyedTable.lookup Constitution.id other db.constitutions = _
      rw [hwrites.constitutions, KeyedTable.lookup_map hkeep]
      rfl
    rw [← hcStatus] at hretired
    unfold constitutionStatus
    rw [hlookup, hc, Option.map_some, h.retired_after hconsistent
      (KeyedTable.mem_of_lookup hc) hretired, Option.map_some, hcStatus]

/-- The writes of an activation. -/
theorem reappoints (companyId agentId : String) (ids : List String)
    {id name : String} (hname : name = id) (now : ℤ) (db : Database) :
    Reappoints companyId agentId ids id now db
      (agentTable.modify agentId (naming name)
        (constitutionTable.modify id (appointing now)
          (constitutionTable.modifyAll
            (fun c => decide (c.id ∈ ids) &&
              isAppointedBy companyId agentId c)
            (superseding now) db))) := by
  rw [hname]
  refine ⟨rfl, ?_, rfl⟩
  change (db.constitutions.map (fun c =>
      if decide (c.id ∈ ids) && isAppointedBy companyId agentId c then
        superseding now c
      else c)).map (fun c => if c.id = id then appointing now c else c) = _
  rw [List.map_map]
  apply List.map_congr_left
  intro c _
  rw [Function.comp_apply, afterAppointment]
  have hid : (if decide (c.id ∈ ids) && isAppointedBy companyId agentId c
      then superseding now c else c).id = c.id := by
    split
    · rfl
    · rfl
  rw [hid]

theorem safe_activateConstitution {call : VersionCall} {o : Observed}
    (hcall : call = .activateConstitution companyId id now)
    (answer : Except Failure Constitution → VersionAnswer) :
    SafeSteps call answer (activateConstitutionSteps companyId id now) []
      o := by
  have hobserves : ∀ db,
      (call.observe db).constitution = constitutionSeen id db := by
    rw [hcall]
    exact fun _ => rfl
  have hactive : ∀ db, ∀ status companyId agentId,
      constitutionSeen id db = some (status, companyId, agentId) →
        (call.observe db).active = ReadCommitted.Steps.matching
          constitutionTable (isAppointedBy companyId agentId) db := by
    intro db status companyId agentId hseen
    rw [hcall, VersionCall.observe, hseen]
    rfl
  apply safe_transaction_query
  intro tables htables _ hobserve
  rw [ReadCommitted.overlay_nil]
  cases hfound : constitutionTable.find (fun c =>
      c.id = id ∧ c.companyId = companyId) tables with
  | none => trivial
  | some target =>
      have hkeys := List.find?_some hfound
      rw [decide_eq_true_eq] at hkeys
      obtain ⟨hid, hcompany⟩ := hkeys
      have hlookup : constitutionTable.lookup id tables = some target := by
        rw [← hid]
        exact KeyedTable.lookup_of_mem htables.constitutionKeys
          (List.mem_of_find?_eq_some hfound)
      have hseen : constitutionSeen id tables =
          some (target.status, companyId, target.agentId) := by
        unfold constitutionSeen
        rw [hlookup, ← hcompany]
        rfl
      have hsameSeen : ∀ later, call.observe later = o →
          constitutionSeen id later =
            some (target.status, companyId, target.agentId) := by
        intro later hsame
        rw [← hseen, ← hobserves, ← hobserves, hsame, hobserve]
      simp only
      split
      next => trivial
      next hretired =>
        apply safe_transaction_updateMany
        intro sweeping _ _ hsweeping
        have hids := hactive sweeping _ _ _ (hsameSeen sweeping hsweeping)
        rw [hsweeping] at hids
        apply safe_transaction_write
        · intro _ _ _ _ own row hplan
          obtain ⟨active, hrow, hwrite⟩ := Option.map_eq_some_iff.mp hplan
          cases hwrite
          have hkey : active.id = target.id :=
            KeyedTable.key_of_lookup hrow
          have hactiveId : (appointing now active).id = id :=
            hkey.trans hid
          apply safe_transaction_write
          · intro _ _ _ _ own agent hplan
            obtain ⟨found, -, hwrite⟩ := Option.map_eq_some_iff.mp hplan
            cases hwrite
            apply safe_transaction_pure
            intro later hlater _ hsame
            have hlaterSeen := hsameSeen later hsame
            have hlaterIds := hactive later _ _ _ hlaterSeen
            rw [hsame] at hlaterIds
            obtain ⟨current, hcurrent, hvalue⟩ :=
              Option.map_eq_some_iff.mp hlaterSeen
            rw [Prod.mk.injEq, Prod.mk.injEq] at hvalue
            have happoints : Appoints companyId target.agentId o.active id
                later current := by
              refine ⟨hcurrent, ?_, hvalue.2.1, hvalue.2.2,
                hlaterIds.symm⟩
              rw [hvalue.1]
              exact hretired
            obtain ⟨hkept, hlegal⟩ := happoints.commits hlater
              (reappoints companyId target.agentId o.active hactiveId now
                later)
            rw [hids, ← hid] at hkept hlegal
            exact ⟨hkept, hlegal, trivial⟩
          · trivial
        · trivial

end

/-! ## Whole runs -/

theorem script_safe (rt : Runtime) (call : VersionCall) (o : Observed) :
    SafeCall call (call.script rt) [] o := by
  cases call with
  | createDraft input ids =>
      rw [VersionCall.script]
      generalize hsteps : createDraftSteps rt input ids = steps
      exact safe_createDraft rfl hsteps _
  | validate companyId id =>
      exact safe_transition (fun _ => rfl) (by decide) _
  | simulate companyId id =>
      exact safe_transition (fun _ => rfl) (by decide) _
  | approve companyId id approvedBy => exact safe_approve (fun _ => rfl) _
  | activate companyId id now => exact safe_activate rfl _
  | disable companyId id =>
      exact safe_transition (fun _ => rfl) (by decide) _
  | activateConstitution companyId id now =>
      exact safe_activateConstitution rfl _

/-- A policy has one active version at most, and an agent one active
constitution, which it names. -/
structure SingleActive (db : Database) : Prop where
  versions : OneActive db.policyVersions
  constitutions : ∀ c ∈ db.constitutions, ∀ d ∈ db.constitutions,
    c.status = .active → d.status = .active → c.agentId = d.agentId →
      c.id = d.id
  named : ∀ c ∈ db.constitutions, c.status = .active →
    appointed c.agentId db = some c.id

theorem Consistent.singleActive {db : Database} (h : Consistent db) :
    SingleActive db := by
  refine ⟨h.oneActive, ?_, h.appointments.named⟩
  intro c hc d hd hcActive hdActive hsame
  have hcNamed := h.appointments.named c hc hcActive
  have hdNamed := h.appointments.named d hd hdActive
  rw [← hsame, hcNamed] at hdNamed
  exact Option.some.inj hdNamed

/-- A version whose status has no transition keeps it. -/
theorem version_stays {db db' : Database}
    (hmoves : Relation.ReflTransGen Legal db db') {id : String}
    {status : PolicyVersionStatus}
    (hstatus : versionStatus id db = some status)
    (hfinal : versionTransitions status = []) :
    versionStatus id db' = some status := by
  induction hmoves with
  | refl => exact hstatus
  | tail _ hlegal ih =>
      have hmove := hlegal.versions id
      rw [ih] at hmove
      generalize hafter : versionStatus id _ = after at hmove
      cases hmove with
      | stays => rfl
      | moves htarget =>
          rw [hfinal] at htarget
          exact absurd htarget List.not_mem_nil

theorem constitution_stays {db db' : Database}
    (hmoves : Relation.ReflTransGen Legal db db') {id : String}
    {status : ConstitutionStatus}
    (hstatus : constitutionStatus id db = some status)
    (hretired : Retired status) :
    constitutionStatus id db' = some status := by
  induction hmoves with
  | refl => exact hstatus
  | tail _ hlegal ih => exact hlegal.constitutions id status ih hretired

/-- What holds around one event of a run, and until its end. -/
structure Lifecycle (before after final : Database) : Prop where
  single : SingleActive before ∧ SingleActive after
  legal : Legal before after
  versions : ∀ id status, versionStatus id before = some status →
    versionTransitions status = [] → versionStatus id final = some status
  constitutions : ∀ id status, constitutionStatus id before = some status →
    Retired status → constitutionStatus id final = some status

section

variable {ι : Type} {calls : ι → VersionCall} [Fintype ι] [DecidableEq ι]

/-- Where no call commits a write after another call has changed what it
observes, every version moves along the transitions, and a policy and an
agent have one active version and one active constitution. -/
theorem version_lifecycle (rt : Runtime) {db : Database}
    (hstart : Consistent db) {before after : List (Event ι)}
    {event : Event ι} {middle next final : Machine ι Database RowKey VersionScript}
    (hquiet : (Machine.starting db (fun i => (calls i).script rt)).Undisturbed
      .lost (fun i => (calls i).observe) (fun _ _ => True) ∅ ∅
      (before ++ event :: after))
    (hbefore : (Machine.starting db (fun i => (calls i).script rt)).run
      (Script.program .lost) before = some middle)
    (hstep : middle.step (Script.program .lost) event = some next)
    (hafter : next.run (Script.program .lost) after = some final) :
    Lifecycle middle.committed next.committed final.committed := by
  have hscripts : ∀ i o, SafeCall (calls i) ((calls i).script rt) [] o :=
    fun i o => script_safe rt (calls i) o
  have hsound := @Machine.sound_starting ι Database RowKey VersionAnswer
    Observed .lost Consistent Legal (fun _ _ => True)
    (fun i => (calls i).observe) (fun _ _ _ => True)
    (fun i => (calls i).script rt) db hstart
  have hrest : middle.run (Script.program .lost) (event :: after) =
      some final := by
    rw [Machine.run, hstep]
    exact hafter
  obtain ⟨hkept, hkeptNext, hmoved⟩ :=
    Machine.undisturbed_step hscripts hsound hquiet hbefore hstep
  obtain ⟨-, -, hmoves⟩ :=
    Machine.undisturbed_between hscripts hsound hquiet hbefore hrest
  refine ⟨⟨hkept.singleActive, hkeptNext.singleActive⟩, ?_, ?_, ?_⟩
  · rcases hmoved with hsame | hlegal
    · rw [hsame]
      exact Legal.refl _
    · exact hlegal
  · intro id status hstatus hfinal
    exact version_stays hmoves hstatus hfinal
  · intro id status hstatus hretired
    exact constitution_stays hmoves hstatus hretired

end

/-! ## Two activations -/

def approvedVersion (id : String) (number : ℕ) : PolicyVersion where
  id := id
  policyId := "policy-1"
  version := number
  status := .approved
  compiledPolicyJson := ⟨none⟩
  hash := ""
  sourceType := none
  sourceReference := none
  activatedAt := none
  deactivatedAt := none
  approvedBy := none

def samplePolicy : Policy where
  id := "policy-1"
  companyId := "acme"
  agentId := none
  name := "limits"
  description := ""
  currentVersion := 0
  status := .draft
  createdBy := none

/-- A policy with two approved versions. -/
def sampleTables : Database :=
  { Database.empty with
    policies := [samplePolicy]
    policyVersions := [approvedVersion "v1" 1, approvedVersion "v2" 2] }

theorem consistent_of_inactive {db : Database}
    (hkeys : KeyedTable.UniqueKeys PolicyVersion.id db.policyVersions)
    (hinactive : ∀ v ∈ db.policyVersions, v.status ≠ .active)
    (hnone : db.constitutions = []) : Consistent db := by
  have habsent : ∀ c, c ∉ db.constitutions := by
    intro c
    rw [hnone]
    exact List.not_mem_nil
  refine ⟨hkeys, ?_, ?_, ⟨?_, ?_, ?_⟩⟩
  · exact fun v hv _ _ hactive => absurd hactive (hinactive v hv)
  · rw [hnone]
    exact List.nodup_nil
  · exact fun c hc => absurd hc (habsent c)
  · exact fun c hc => absurd hc (habsent c)
  · exact fun c hc => absurd hc (habsent c)

theorem sample_consistent : Consistent sampleTables :=
  consistent_of_inactive (by decide) (by decide) rfl

/-- Each session activates one of the versions. -/
def sampleCalls (second : Bool) : VersionCall :=
  .activate "acme" (if second then "v2" else "v1") 10

def sampleMachine : Machine Bool Database RowKey VersionScript :=
  Machine.starting sampleTables (fun i => (sampleCalls i).script .reference)

/-- Both look for active versions before one of them commits. -/
def sampleSchedule : List (Event Bool) :=
  [.run true, .run true, .run false, .run false, .run false, .run false,
    .run false, .run true, .run true, .run true]

theorem both_versions_active :
    Consistent sampleTables ∧
      ∃ final, sampleMachine.run (Script.program .lost) sampleSchedule =
          some final ∧ ¬ SingleActive final.committed := by
  have hended : (sampleMachine.run (Script.program .lost)
      sampleSchedule).map (fun machine =>
        machine.committed.policyVersions.map (fun v =>
          (v.id, v.policyId, v.status))) =
      some [("v1", "policy-1", .active), ("v2", "policy-1", .active)] := by
    decide
  obtain ⟨final, hrun, hrows⟩ := Option.map_eq_some_iff.mp hended
  refine ⟨sample_consistent, final, hrun, ?_⟩
  intro hsingle
  obtain ⟨v, rest, hversions, hv, hrest⟩ := List.map_eq_cons_iff.mp hrows
  obtain ⟨w, last, hlater, hw, -⟩ := List.map_eq_cons_iff.mp hrest
  rw [Prod.mk.injEq, Prod.mk.injEq] at hv hw
  have hvMem : v ∈ final.committed.policyVersions := by
    rw [hversions]
    exact List.mem_cons_self
  have hwMem : w ∈ final.committed.policyVersions := by
    rw [hversions, hlater]
    exact List.mem_cons_of_mem _ List.mem_cons_self
  have hsame := hsingle.versions v hvMem w hwMem hv.2.2 hw.2.2
    (hv.2.1.trans hw.2.1.symm)
  rw [hv.1, hw.1] at hsame
  exact absurd hsame (by decide)

/-- The policy with a draft besides. -/
def draftedTables : Database :=
  { sampleTables with
    policyVersions := sampleTables.policyVersions ++
      [{ approvedVersion "v3" 3 with status := .draft }] }

theorem drafted_consistent : Consistent draftedTables :=
  consistent_of_inactive (by decide) (by decide) rfl

inductive Rollout where
  | activation | validation | replacement
  deriving DecidableEq

instance : Fintype Rollout where
  elems := {.activation, .validation, .replacement}
  complete := by
    intro i
    cases i <;> simp

/-- One version is activated, another one validated, and a third one
activated in place of the first. -/
def rollout : Rollout → VersionCall
  | .activation => .activate "acme" "v1" 10
  | .validation => .validate "acme" "v3"
  | .replacement => .activate "acme" "v2" 20

def rolloutMachine : Machine Rollout Database RowKey VersionScript :=
  Machine.starting draftedTables (fun i => (rollout i).script .reference)

/-- The validation takes turns with both activations; the second one begins
after the first one has been committed. -/
def rolloutSchedule : List (Event Rollout) :=
  [.run .activation, .run .validation, .run .activation, .run .activation,
    .run .validation, .run .activation]

def rolloutRest : List (Event Rollout) :=
  [.run .replacement, .run .replacement, .run .validation,
    .run .replacement, .run .replacement, .run .replacement]

theorem rollout_lifecycle :
    ∃ middle next final,
      rolloutMachine.run (Script.program .lost) rolloutSchedule =
        some middle ∧
      middle.step (Script.program .lost) (.run .activation) = some next ∧
      next.run (Script.program .lost) rolloutRest = some final ∧
      versionStatus "v1" next.committed = some .active ∧
      final.committed.policyVersions.map PolicyVersion.status =
        [.superseded, .active, .validating] ∧
      Lifecycle middle.committed next.committed final.committed := by
  have hnext : (rolloutMachine.run (Script.program .lost)
      (rolloutSchedule ++ [.run .activation])).map (fun machine =>
        versionStatus "v1" machine.committed) = some (some .active) := by
    decide
  have hended : (rolloutMachine.run (Script.program .lost)
      (rolloutSchedule ++ [.run .activation] ++ rolloutRest)).map (fun machine =>
        machine.committed.policyVersions.map PolicyVersion.status) =
      some [.superseded, .active, .validating] := by
    decide +kernel
  have hquiet : rolloutMachine.quiet .lost (fun i => (rollout i).observe)
      (fun _ _ => true) [] []
      (rolloutSchedule ++ .run .activation :: rolloutRest) = true := by
    decide +kernel
  obtain ⟨next, hrun, hactive⟩ := Option.map_eq_some_iff.mp hnext
  obtain ⟨final, hall, hstatuses⟩ := Option.map_eq_some_iff.mp hended
  rw [Machine.run_append, hrun] at hall
  rw [Machine.run_append] at hrun
  obtain ⟨middle, hmiddle, hlast⟩ := Option.bind_eq_some_iff.mp hrun
  obtain ⟨found, hstep, hfound⟩ := Option.bind_eq_some_iff.mp hlast
  cases hfound
  exact ⟨middle, next, final, hmiddle, hstep, hall, hactive, hstatuses,
    version_lifecycle .reference drafted_consistent
      (Machine.undisturbed_starting (fun _ _ _ => trivial) hquiet) hmiddle
      hstep hall⟩

end Policies
end Orvex
