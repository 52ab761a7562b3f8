import Orvex.Concurrency.Guarantees
import Orvex.Core.Reference
import Orvex.Financial.Buckets

/-!
# One account for a bucket

The unique index makes a creation wait for every unfinished one of the same
bucket, so that the second one fails and the account of the first is found.
The index has no entry for a bucket without a network: there the creations
of two calls do not meet.
-/

namespace Orvex
namespace Financial

open ReadCommitted

/-! ## What every call keeps -/

/-- The call can open an account: the column accepts its limit, and its id
is new. -/
def BucketCall.Opens (rt : Runtime) (db : Database) (call : BucketCall) :
    Prop :=
  storedLimit rt call.limitAmount ≠ none ∧ call.accountUuid ∉ accountIds db

section

variable {ι : Type} {rt : Runtime} {bucket : Bucket} {start : Database}
  {calls : ι → BucketCall}

/-- The bucket has one account at most, and new reservations sit on it. -/
structure OneBucket (bucket : Bucket) (start db : Database) : Prop where
  one : (bucketIds bucket db).length ≤ 1
  placed : ∀ res ∈ db.financialReservations,
    res ∈ start.financialReservations ∨
      res.financialAccountId ∈ bucketIds bucket db

/-- What holds of the tables at every moment. -/
structure BucketKept (rt : Runtime) (bucket : Bucket) (start : Database)
    (calls : ι → BucketCall) (db : Database) : Prop where
  companies : db.companies = start.companies
  accounts : accountIds start ⊆ accountIds db
  grows : bucketIds bucket start ⊆ bucketIds bucket db
  origin : ∀ id ∈ bucketIds bucket db, id ∈ bucketIds bucket start ∨
    ∃ i, (calls i).Opens rt start ∧ id = (calls i).accountUuid
  sound : OneBucket bucket start db

/-- What a call has to expect of the others: accounts stay, and while it
holds the guard nobody opens the bucket. -/
def bucketRely (rt : Runtime) (bucket : Bucket) (start : Database)
    (calls : ι → BucketCall) (guard : RowKey) : Rely Database RowKey where
  moves held a b :=
    (BucketKept rt bucket start calls a →
      BucketKept rt bucket start calls b) ∧
      bucketIds bucket a ⊆ bucketIds bucket b ∧
      (guard ∈ held → bucketIds bucket a = [] → bucketIds bucket b = [])
  refl _ _ := ⟨id, List.Subset.refl _, fun _ => id⟩
  trans _ _ _ _ hab hbc :=
    ⟨hbc.1 ∘ hab.1, List.Subset.trans hab.2.1 hbc.2.1,
      fun hheld => hbc.2.2 hheld ∘ hab.2.2 hheld⟩

/-- Whoever opens the bucket locks the guard, and finds the bucket empty. -/
def Guards (rt : Runtime) (bucket : Bucket) (start : Database)
    (calls : ι → BucketCall) (guard : RowKey) : Prop :=
  ∀ i limit db own, BucketKept rt bucket start calls db →
    bucketIds bucket start = [] →
    storedLimit rt (calls i).limitAmount = some limit →
    planOpening (newAccount (calls i).key limit (calls i).accountUuid) db =
      some own →
    guard ∈ own.keys ∧ bucketIds bucket db = []

/-- The script keeps to what the others expect of it. -/
abbrev Behaves (rt : Runtime) (bucket : Bucket) (start : Database)
    (calls : ι → BucketCall) (guard : RowKey) (script : BucketScript)
    (pending : List (Write Database RowKey)) (held : List RowKey)
    (seen : Database) : Prop :=
  script.Guaranteed (bucketRely rt bucket start calls guard)
    (fun _ => True) (fun _ _ => True) pending held seen

variable {guard : RowKey}

theorem behaves_done (answer : BucketAnswer)
    (pending : List (Write Database RowKey)) (held : List RowKey)
    (seen : Database) :
    Behaves rt bucket start calls guard (.done answer) pending held seen :=
  fun _ _ => trivial

theorem behaves_refused (failure : Failure)
    (pending : List (Write Database RowKey)) (held : List RowKey)
    (seen : Database) :
    Behaves rt bucket start calls guard (refused failure) pending held
      seen :=
  fun _ _ _ => behaves_done _ _ _ _

/-- The commit of a reservation on the account of the bucket. -/
theorem BucketKept.reserved {db : Database}
    (h : BucketKept rt bucket start calls db) {res : FinancialReservation}
    (hplaced : res.financialAccountId ∈ bucketIds bucket db) {id : String}
    {change : FinancialAccount → FinancialAccount}
    (hkeeps : KeepsBucket change) :
    BucketKept rt bucket start calls
      (updateAccount id change (insertReservation res db)) := by
  have hbucket : bucketIds bucket
      (updateAccount id change (insertReservation res db)) =
        bucketIds bucket db := bucketIds_updateAccount hkeeps
  have haccounts : accountIds
      (updateAccount id change (insertReservation res db)) =
        accountIds db := accountIds_updateAccount hkeeps
  constructor
  · exact h.companies
  · rw [haccounts]
    exact h.accounts
  · rw [hbucket]
    exact h.grows
  · rw [hbucket]
    exact h.origin
  · constructor
    · rw [hbucket]
      exact h.sound.one
    · intro other hmem
      rw [hbucket]
      rcases List.mem_append.mp hmem with hold | hnew
      · exact h.sound.placed other hold
      · rw [List.mem_singleton.mp hnew]
        exact Or.inr hplaced

/-- The commit of the only account of the bucket. -/
theorem BucketKept.opened {db : Database}
    (h : BucketKept rt bucket start calls db) {i : ι}
    {account : FinancialAccount} (hbucket : bucketOf account = bucket)
    (hid : account.id = (calls i).accountUuid)
    (hopens : (calls i).Opens rt start)
    (hvacant : bucketIds bucket db = []) :
    BucketKept rt bucket start calls (insertAccount account db) := by
  have hids : bucketIds bucket (insertAccount account db) = [account.id] := by
    rw [bucketIds_insertAccount hbucket, hvacant, List.nil_append]
  constructor
  · exact h.companies
  · rw [accountIds_insertAccount]
    exact List.subset_append_of_subset_left _ h.accounts
  · intro id hmem
    have hnone := h.grows hmem
    rw [hvacant] at hnone
    exact absurd hnone List.not_mem_nil
  · intro id hmem
    rw [hids, List.mem_singleton] at hmem
    exact Or.inr ⟨i, hopens, hmem.trans hid⟩
  · constructor
    · rw [hids]
      exact Nat.le_refl 1
    · intro res hmem
      rcases h.sound.placed res hmem with hold | hnew
      · exact Or.inl hold
      · rw [hvacant] at hnew
        exact absurd hnew List.not_mem_nil

theorem behaves_holding (input : ReserveInput) (uuid : String)
    {account : FinancialAccount} (amount : Decimal)
    {pending : List (Write Database RowKey)} {held : List RowKey}
    {seen db : Database}
    (hpending : ∀ tables, overlay pending tables = tables)
    (hmem : account.id ∈ bucketIds bucket seen) :
    Behaves rt bucket start calls guard
      (holding rt input uuid account amount db) pending held seen := by
  unfold holding
  cases lookupAccount account.id db with
  | none => exact behaves_refused _ _ _ _
  | some row =>
      simp only
      cases budgetRefusal rt input.amount amount row with
      | some refusal => exact behaves_refused _ _ _ _
      | none =>
          simp only
          cases rt.storeText input.amount with
          | none => exact behaves_refused _ _ _ _
          | some stored =>
              intro inserting hinserting _
              refine ⟨?_, fun _ => behaves_refused _ _ _ _⟩
              intro own hplan
              cases hchange : reserveChange rt row amount with
              | none => exact behaves_refused _ _ _ _
              | some change =>
                  intro updating hupdating _
                  refine ⟨?_, fun hnone => by cases hnone⟩
                  intro update hupdate
                  cases hupdate
                  intro tables htables _
                  refine ⟨?_, behaves_done _ _ _ _⟩
                  have howned : own = ⟨[.reservation uuid],
                      insertReservation
                        (newReservation input account.id stored uuid)⟩ := by
                    unfold planHolding at hplan
                    split at hplan
                    · exact (Option.some.inj hplan).symm
                    · cases hplan
                  have hoverlay : overlay
                      ((pending ++ [own]) ++ [⟨[.account account.id],
                        updateAccount account.id change⟩]) tables =
                      updateAccount account.id change (insertReservation
                        (newReservation input account.id stored uuid)
                        tables) := by
                    rw [overlay_append_singleton, overlay_append_singleton,
                      hpending, howned]
                  have hkeeps := keepsBucket_reserveChange hchange
                  have hlast : account.id ∈ bucketIds bucket tables :=
                    htables.2.1 (hupdating.2.1 (hinserting.2.1 hmem))
                  have hbucket : bucketIds bucket (updateAccount account.id
                      change (insertReservation
                        (newReservation input account.id stored uuid)
                        tables)) = bucketIds bucket tables :=
                    bucketIds_updateAccount hkeeps
                  intro others _
                  rw [hoverlay]
                  refine ⟨fun h => h.reserved hlast hkeeps, ?_, ?_⟩
                  · rw [hbucket]
                    exact List.Subset.refl _
                  · intro _ hvacant
                    rw [hbucket]
                    exact hvacant

theorem behaves_after (call : BucketCall)
    (result : Except Failure FinancialAccount) {seen : Database}
    (hresult : ∀ account, result = .ok account →
      account.id ∈ bucketIds bucket seen) :
    Behaves rt bucket start calls guard (call.after rt result) [] []
      seen := by
  cases call with
  | ensureAccount key limitAmount accountUuid => exact behaves_done _ _ _ _
  | reserve input accountUuid uuid =>
      cases result with
      | error failure => exact behaves_done _ _ _ _
      | ok account =>
          have hmem := hresult account rfl
          unfold BucketCall.after reservingOn
          simp only
          cases rt.toDecimal input.amount with
          | none => exact behaves_done _ _ _ _
          | some amount =>
              intro tables hmoved _
              refine ⟨?_, fun hnone => by cases hnone⟩
              intro own hown
              cases hown
              exact behaves_holding input uuid amount (fun _ => rfl)
                (hmoved.2.1 hmem)

theorem behaves_rereading {i : ι} (hkey : (calls i).key.bucket = bucket)
    {seen : Database} (hkept : BucketKept rt bucket start calls seen) :
    Behaves rt bucket start calls guard
      (rereading (calls i).key ((calls i).after rt)) [] [] seen := by
  intro tables hmoved _
  have htables := hmoved.1 hkept
  dsimp only [overlay_nil]
  cases hfind : findAccount (calls i).key tables with
  | none =>
      exact behaves_after _ (.error _)
        (fun account hok => by cases hok)
  | some row =>
      apply behaves_after
      intro account hok
      cases hok
      have hmem := mem_bucketIds_of_find hfind
      rw [hkey] at hmem
      exact hmem

theorem accountAllowed_of_plan {account : FinancialAccount} {db : Database}
    {own : Write Database RowKey} (h : planOpening account db = some own) :
    AccountAllowed account db ∧ own = openAccount account := by
  unfold planOpening at h
  split at h
  · exact ⟨‹_›, (Option.some.inj h).symm⟩
  · cases h

theorem behaves_opening (hguard : Guards rt bucket start calls guard)
    {i : ι} (hkey : (calls i).key.bucket = bucket) {seen : Database}
    (hkept : BucketKept rt bucket start calls seen)
    (hvacant : bucketIds bucket start = []) :
    Behaves rt bucket start calls guard
      (opening rt (calls i).key (calls i).limitAmount (calls i).accountUuid
        ((calls i).after rt)) [] [] seen := by
  unfold opening
  cases hlimit : storedLimit rt (calls i).limitAmount with
  | none => exact behaves_rereading hkey hkept
  | some limit =>
      intro writing hwriting _
      have hkept' := hwriting.1 hkept
      constructor
      · intro own hplan
        rw [overlay_nil] at hplan
        obtain ⟨hheld, hempty⟩ :=
          hguard i limit writing own hkept' hvacant hlimit hplan
        obtain ⟨hallowed, howned⟩ := accountAllowed_of_plan hplan
        have hfresh : (calls i).accountUuid ∉ accountIds start := by
          intro hmem
          exact lookupAccount_eq_none_iff.mp hallowed.2.1
            (hkept'.accounts hmem)
        have hopens : (calls i).Opens rt start :=
          ⟨by rw [hlimit]; exact Option.some_ne_none limit, hfresh⟩
        have hbucket : bucketOf
            (newAccount (calls i).key limit (calls i).accountUuid) =
              bucket := hkey
        intro tables htables _
        have hkept'' := htables.1 hkept'
        -- the guard is held, so the bucket is still empty
        have hstill : bucketIds bucket tables = [] :=
          htables.2.2 (List.mem_append_left _ hheld) hempty
        have hoverlay : overlay ([] ++ [own]) tables = insertAccount
            (newAccount (calls i).key limit (calls i).accountUuid) tables := by
          rw [howned]
          rfl
        have hopened := hkept''.opened hbucket rfl hopens hstill
        rw [hoverlay]
        constructor
        · intro others hothers
          refine ⟨fun _ => hopened, ?_, ?_⟩
          · rw [hstill]
            exact List.nil_subset _
          · intro hmem
            exact absurd (List.mem_append_left _ hheld) (hothers guard hmem)
        · apply behaves_after
          intro account hok
          cases hok
          rw [bucketIds_insertAccount hbucket]
          exact List.mem_append_right _ List.mem_cons_self
      · intro _ tables htables _
        exact behaves_rereading hkey (htables.1 hkept')

theorem behaves_script (hguard : Guards rt bucket start calls guard) {i : ι}
    (hkey : (calls i).key.bucket = bucket) {seen : Database}
    (hkept : BucketKept rt bucket start calls seen) :
    Behaves rt bucket start calls guard ((calls i).script rt) [] []
      seen := by
  intro tables hmoved _
  have htables := hmoved.1 hkept
  dsimp only [overlay_nil]
  cases hfind : findAccount (calls i).key tables with
  | none =>
      have hempty := bucketIds_eq_nil_of_find hfind
      rw [hkey] at hempty
      have hvacant : bucketIds bucket start = [] := by
        apply List.eq_nil_of_subset_nil
        rw [← hempty]
        exact htables.grows
      exact behaves_opening hguard hkey htables hvacant
  | some existing =>
      apply behaves_after
      intro account hok
      cases hok
      have hmem := mem_bucketIds_of_find hfind
      rw [hkey] at hmem
      exact hmem

theorem bucketKept_start (hone : (bucketIds bucket start).length ≤ 1) :
    BucketKept rt bucket start calls start where
  companies := rfl
  accounts := List.Subset.refl _
  grows := List.Subset.refl _
  origin _ hmem := Or.inl hmem
  sound := ⟨hone, fun _ hmem => Or.inl hmem⟩

/-- Calls that share a guard leave one account at most. -/
theorem oneBucket_of_guard [Fintype ι] [DecidableEq ι]
    (hkey : ∀ i, (calls i).key.bucket = bucket)
    (hone : (bucketIds bucket start).length ≤ 1)
    (hguard : Guards rt bucket start calls guard)
    {schedule : List (Event ι)}
    {final : Machine ι Database RowKey BucketScript}
    (hrun : (Machine.starting start (fun i => (calls i).script rt)).run
      (Script.program .lost) schedule = some final) :
    OneBucket bucket start final.committed := by
  have hkept := @bucketKept_start ι rt bucket start calls hone
  have hguarding := @Machine.guarding_starting ι Database RowKey BucketAnswer
    .lost (bucketRely rt bucket start calls guard) (fun _ _ => True)
    (fun _ _ _ => True) start (fun i => (calls i).script rt)
    (fun i => behaves_script hguard (hkey i) hkept)
  have hmoved := (Machine.guaranteed_run hguarding
    (Machine.respects_true _ _) hrun).2
  exact (hmoved.1 hkept).sound

/-! ## Which calls share a guard -/

/-- The unique index covers the bucket, or it has an account already, or no
account can be opened, or only under one id. -/
structure BucketSafe (rt : Runtime) (bucket : Bucket) (start : Database)
    (calls : ι → BucketCall) : Prop where
  one : (bucketIds bucket start).length ≤ 1
  apart : bucket.network ≠ none ∨ bucketIds bucket start ≠ [] ∨
    bucket.companyId ∉ start.companies ∨
    ∀ i j, (calls i).Opens rt start → (calls j).Opens rt start →
      (calls i).accountUuid = (calls j).accountUuid

theorem bucketOf_newAccount (key : AccountKey) (limit : Option ℚ)
    (uuid : String) : bucketOf (newAccount key limit uuid) = key.bucket :=
  rfl

/-- The entry of the unique index. -/
theorem guards_index (hkey : ∀ i, (calls i).key.bucket = bucket)
    {network : String} (hnetwork : bucket.network = some network) :
    Guards rt bucket start calls (.bucket bucket.companyId bucket.scope
      bucket.scopeKey bucket.asset network) := by
  intro i limit db own _ _ _ hplan
  obtain ⟨hallowed, howned⟩ := accountAllowed_of_plan hplan
  have hbucket := bucketOf_newAccount (calls i).key limit
    (calls i).accountUuid
  rw [hkey i] at hbucket
  constructor
  · rw [howned]
    apply List.mem_cons_of_mem
    have hindexed : (newAccount (calls i).key limit
        (calls i).accountUuid).network = some network := by
      rw [← hnetwork, ← hbucket]
      rfl
    unfold bucketKeys
    rw [hindexed, ← hbucket]
    exact List.mem_singleton_self _
  · unfold bucketIds
    rw [List.map_eq_nil_iff, List.filter_eq_nil_iff]
    intro other hmem hother
    rw [decide_eq_true_eq, ← hbucket] at hother
    have hsame : other.companyId = (calls i).key.companyId ∧
        other.scope = (calls i).key.scope ∧
        other.scopeKey = (calls i).key.scopeKey ∧
        other.asset = (calls i).key.asset ∧
        other.network = (calls i).key.network := by
      simpa [bucketOf, newAccount] using hother
    have hnone : (calls i).key.network ≠ none := by
      have hcolumn : (calls i).key.network = bucket.network := by
        rw [← hkey i]
        rfl
      rw [hcolumn, hnetwork]
      exact Option.some_ne_none network
    apply hallowed.2.2 other hmem
    obtain ⟨hcompany, hscope, hscopeKey, hasset, hother⟩ := hsame
    exact ⟨hcompany.symm, hscope.symm, hscopeKey.symm, hasset.symm,
      hother.symm, hnone⟩

/-- Where nothing can be opened, everything is a guard. -/
theorem guards_of_company (hkey : ∀ i, (calls i).key.bucket = bucket)
    (hcompany : bucket.companyId ∉ start.companies) (guard : RowKey) :
    Guards rt bucket start calls guard := by
  intro i limit db own hkept _ _ hplan
  have hallowed := (accountAllowed_of_plan hplan).1
  have hmem : bucket.companyId ∈ start.companies := by
    rw [← hkept.companies, ← hkey i]
    exact hallowed.1
  exact absurd hmem hcompany

/-- The primary key of the only id under which an account can be opened. -/
theorem guards_uuid
    (hsame : ∀ i j, (calls i).Opens rt start → (calls j).Opens rt start →
      (calls i).accountUuid = (calls j).accountUuid) :
    ∃ guard, Guards rt bucket start calls guard := by
  have hopens : ∀ i limit db own, BucketKept rt bucket start calls db →
      storedLimit rt (calls i).limitAmount = some limit →
      planOpening (newAccount (calls i).key limit (calls i).accountUuid) db =
        some own →
      (calls i).Opens rt start := by
    intro i limit db own hkept hlimit hplan
    constructor
    · rw [hlimit]
      exact Option.some_ne_none limit
    · intro hmem
      exact lookupAccount_eq_none_iff.mp
        (accountAllowed_of_plan hplan).1.2.1 (hkept.accounts hmem)
  by_cases hany : ∃ k, (calls k).Opens rt start
  · obtain ⟨k, hk⟩ := hany
    refine ⟨.account (calls k).accountUuid, ?_⟩
    intro i limit db own hkept hvacant hlimit hplan
    have hi := hopens i limit db own hkept hlimit hplan
    obtain ⟨hallowed, howned⟩ := accountAllowed_of_plan hplan
    constructor
    · rw [howned, hsame k i hk hi]
      exact List.mem_cons_self
    · apply List.eq_nil_iff_forall_not_mem.mpr
      intro id hmem
      rcases hkept.origin id hmem with hold | ⟨j, hj, hid⟩
      · rw [hvacant] at hold
        exact absurd hold List.not_mem_nil
      · apply lookupAccount_eq_none_iff.mp hallowed.2.1
        change (calls i).accountUuid ∈ accountIds db
        rw [hsame i j hi hj, ← hid]
        exact bucketIds_subset hmem
  · refine ⟨.account "", ?_⟩
    intro i limit db own hkept _ hlimit hplan
    exact absurd ⟨i, hopens i limit db own hkept hlimit hplan⟩ hany

theorem guards_of_safe (hkey : ∀ i, (calls i).key.bucket = bucket)
    (hsafe : BucketSafe rt bucket start calls) :
    ∃ guard, Guards rt bucket start calls guard := by
  rcases hsafe.apart with hnetwork | hoccupied | hcompany | hsame
  · obtain ⟨network, hsome⟩ := Option.ne_none_iff_exists'.mp hnetwork
    exact ⟨_, guards_index hkey hsome⟩
  · refine ⟨.account "", ?_⟩
    intro _ _ _ _ _ hvacant
    exact absurd hvacant hoccupied
  · exact ⟨.account "", guards_of_company hkey hcompany _⟩
  · exact guards_uuid hsame

/-! ## Two creations that do not meet -/

theorem planOpening_of_vacant {account : FinancialAccount} {db : Database}
    (hcompany : account.companyId ∈ db.companies)
    (hfresh : account.id ∉ accountIds db) (hnetwork : account.network = none) :
    planOpening account db = some (openAccount account) := by
  apply if_pos
  refine ⟨hcompany, lookupAccount_eq_none_iff.mpr hfresh, ?_⟩
  rintro other _ ⟨_, _, _, _, _, hindexed⟩
  exact hindexed hnetwork

theorem opening_eq {limitAmount : Option String} {limit : Option ℚ}
    (hlimit : storedLimit rt limitAmount = some limit) (key : AccountKey)
    (uuid : String)
    (after : Except Failure FinancialAccount → BucketScript) :
    opening rt key limitAmount uuid after =
      .single (planOpening (newAccount key limit uuid))
        (fun _ => after (.ok (newAccount key limit uuid)))
        (rereading key after) := by
  unfold opening
  rw [hlimit]

section

variable [Fintype ι] [DecidableEq ι]

/-- A call that finds no account is about to create one. -/
theorem step_of_vacant {machine : Machine ι Database RowKey BucketScript}
    {call : BucketCall} {i : ι}
    (hsession : machine.sessions i = .start _ _ (call.script rt))
    (hvacant : bucketIds call.key.bucket machine.committed = []) :
    machine.step (Script.program .lost) (.run i) =
      some (machine.put i (.start _ _ (opening rt call.key call.limitAmount
        call.accountUuid (call.after rt)))) := by
  have hstep := @Machine.step_read ι Database RowKey BucketAnswer _ _ _ .lost
    machine i _ hsession
  rw [find_eq_none_of_bucketIds hvacant] at hstep
  exact hstep

/-- A creation that meets no lock. -/
theorem run_of_opening {machine : Machine ι Database RowKey BucketScript}
    {call : BucketCall} {limit : Option ℚ} {i : ι}
    (hsession : machine.sessions i = .start _ _ (opening rt call.key
      call.limitAmount call.accountUuid (call.after rt)))
    (hlimit : storedLimit rt call.limitAmount = some limit)
    (hcompany : call.key.companyId ∈ machine.committed.companies)
    (hfresh : call.accountUuid ∉ accountIds machine.committed)
    (hnetwork : call.key.network = none)
    (hidle : ∀ j, (machine.sessions j).held = []) :
    ∃ next, machine.run (Script.program .lost) [.run i, .run i] = some next ∧
      next.committed = insertAccount
        (newAccount call.key limit call.accountUuid) machine.committed ∧
      (∀ j, j ≠ i → next.sessions j = machine.sessions j) ∧
      ∀ j, (next.sessions j).held = [] := by
  rw [opening_eq hlimit] at hsession
  have hplan : planOpening (newAccount call.key limit call.accountUuid)
      machine.committed = some (openAccount
        (newAccount call.key limit call.accountUuid)) :=
    planOpening_of_vacant hcompany hfresh hnetwork
  refine ⟨_, Machine.run_single hsession hplan
    (fun key _ => Machine.free_of_idle hidle i key), rfl, ?_, ?_⟩
  · intro j hj
    exact Function.update_of_ne hj _ _
  · intro j
    by_cases hj : j = i
    · subst hj
      simp [Session.start]
    · simp only [Function.update_of_ne hj]
      exact hidle j

/-- Two calls look for the account before either of them creates it. -/
theorem two_accounts (hkey : ∀ i, (calls i).key.bucket = bucket)
    (hnetwork : bucket.network = none)
    (hvacant : bucketIds bucket start = [])
    (hcompany : bucket.companyId ∈ start.companies) {i j : ι}
    (hi : (calls i).Opens rt start) (hj : (calls j).Opens rt start)
    (hne : (calls i).accountUuid ≠ (calls j).accountUuid) :
    ∃ final, (Machine.starting start (fun i => (calls i).script rt)).run
        (Script.program .lost)
        [.run i, .run j, .run i, .run i, .run j, .run j] = some final ∧
      bucketIds bucket final.committed =
        [(calls i).accountUuid, (calls j).accountUuid] := by
  have hij : j ≠ i := by
    intro heq
    exact hne (by rw [heq])
  have hcolumns : ∀ k, (calls k).key.companyId ∈ start.companies ∧
      (calls k).key.network = none := by
    intro k
    have hk := hkey k
    rw [← hk] at hcompany hnetwork
    exact ⟨hcompany, hnetwork⟩
  obtain ⟨limit, hlimit⟩ := Option.ne_none_iff_exists'.mp hi.1
  obtain ⟨limit', hlimit'⟩ := Option.ne_none_iff_exists'.mp hj.1
  let machine : Machine ι Database RowKey BucketScript :=
    Machine.starting start (fun i => (calls i).script rt)
  let looked := machine.put i (.start _ _ (opening rt (calls i).key
    (calls i).limitAmount (calls i).accountUuid ((calls i).after rt)))
  let both := looked.put j (.start _ _ (opening rt (calls j).key
    (calls j).limitAmount (calls j).accountUuid ((calls j).after rt)))
  have hfirst : machine.step (Script.program .lost) (.run i) = some looked :=
    step_of_vacant rfl (by rw [hkey i]; exact hvacant)
  have hsecond : looked.step (Script.program .lost) (.run j) = some both := by
    apply step_of_vacant
    · exact Machine.put_sessions_of_ne machine hij _
    · rw [hkey j]
      exact hvacant
  have hidle : ∀ k, (both.sessions k).held = [] := by
    intro k
    by_cases hk : k = j
    · subst hk
      rw [Machine.put_sessions_self]
      rfl
    · rw [Machine.put_sessions_of_ne looked hk]
      by_cases hki : k = i
      · subst hki
        rw [Machine.put_sessions_self]
        rfl
      · rw [Machine.put_sessions_of_ne machine hki]
        rfl
  have hboth : both.sessions i = .start _ _ (opening rt (calls i).key
      (calls i).limitAmount (calls i).accountUuid ((calls i).after rt)) := by
    rw [Machine.put_sessions_of_ne looked hij.symm]
    exact Machine.put_sessions_self machine i _
  obtain ⟨one, hone, htables, hothers, hidle'⟩ := run_of_opening hboth hlimit
    (hcolumns i).1 hi.2 (hcolumns i).2 hidle
  have hwaiting : one.sessions j = .start _ _ (opening rt (calls j).key
      (calls j).limitAmount (calls j).accountUuid ((calls j).after rt)) := by
    rw [hothers j hij]
    exact Machine.put_sessions_self looked j _
  have hfresh : (calls j).accountUuid ∉ accountIds one.committed := by
    rw [htables, accountIds_insertAccount, List.mem_append,
      List.mem_singleton]
    rintro (hold | hsame)
    · exact hj.2 hold
    · exact hne hsame.symm
  have hstill : (calls j).key.companyId ∈ one.committed.companies := by
    rw [htables]
    exact (hcolumns j).1
  obtain ⟨final, hfinal, htables', _, _⟩ := run_of_opening hwaiting hlimit'
    hstill hfresh (hcolumns j).2 hidle'
  refine ⟨final, ?_, ?_⟩
  · change machine.run (Script.program .lost)
      (.run i :: .run j :: ([.run i, .run i] ++ [.run j, .run j])) = _
    rw [Machine.run, hfirst, Option.bind_some, Machine.run, hsecond,
      Option.bind_some, Machine.run_append, hone, Option.bind_some, hfinal]
  · have hfirst : bucketOf (newAccount (calls i).key limit
        (calls i).accountUuid) = bucket := hkey i
    have hsecond : bucketOf (newAccount (calls j).key limit'
        (calls j).accountUuid) = bucket := hkey j
    rw [htables', htables, bucketIds_insertAccount hsecond,
      bucketIds_insertAccount hfirst]
    change bucketIds bucket start ++ _ ++ _ = _
    rw [hvacant]
    rfl

/-- Concurrent calls leave one account for their bucket, with all their
reservations on it, exactly when the unique index covers the bucket, it has
an account already, or no two ids are left to open it under. -/
theorem one_bucket_iff (hkey : ∀ i, (calls i).key.bucket = bucket) :
    (∀ schedule final,
      (Machine.starting start (fun i => (calls i).script rt)).run
        (Script.program .lost) schedule = some final →
      OneBucket bucket start final.committed) ↔
      BucketSafe rt bucket start calls := by
  constructor
  · intro h
    have hone : (bucketIds bucket start).length ≤ 1 := (h [] _ rfl).one
    refine ⟨hone, ?_⟩
    by_contra hunsafe
    push Not at hunsafe
    obtain ⟨hnetwork, hvacant, hcompany, i, j, hi, hj, hne⟩ := hunsafe
    obtain ⟨final, hrun, hids⟩ :=
      two_accounts hkey hnetwork hvacant hcompany hi hj hne
    have htwo := (h _ final hrun).one
    rw [hids] at htwo
    exact absurd htwo (by simp)
  · intro hsafe schedule final hrun
    obtain ⟨guard, hguard⟩ := guards_of_safe hkey hsafe
    exact oneBucket_of_guard hkey hsafe.one hguard hrun

end

end

/-! ## Two budgets for one key -/

/-- A budget of the company, for any network. -/
def companyKey (network : Option String) : AccountKey where
  companyId := "acme"
  agentId := none
  scope := .company
  scopeKey := "acme"
  asset := "USDC"
  network := network

def companyTables : Database :=
  { Database.empty with companies := ["acme"] }

def companyCalls (network : Option String) : Fin 2 → BucketCall :=
  ![.reserve ⟨companyKey network, "60", none⟩ "account-1" "reservation-1",
    .reserve ⟨companyKey network, "60", none⟩ "account-2" "reservation-2"]

theorem companyCalls_bucket (network : Option String) (i : Fin 2) :
    (companyCalls network i).key.bucket = (companyKey network).bucket := by
  fin_cases i <;> rfl

theorem indexed_bucket_stays_one :
    (∀ i, (companyCalls (some "base") i).key.bucket =
        (companyKey (some "base")).bucket) ∧
      ∀ schedule final,
        (Machine.starting companyTables
          (fun i => (companyCalls (some "base") i).script .reference)).run
            (Script.program .lost) schedule = some final →
        OneBucket (companyKey (some "base")).bucket companyTables
          final.committed := by
  refine ⟨companyCalls_bucket (some "base"), ?_⟩
  apply (one_bucket_iff (companyCalls_bucket (some "base"))).mpr
  constructor
  · decide
  · left
    exact Option.some_ne_none "base"

/-- Without a network both reservations open an account. -/
theorem two_budgets :
    ∃ final, (Machine.starting companyTables
        (fun i => (companyCalls none i).script .reference)).run
        (Script.program .lost)
        [.run 0, .run 1, .run 0, .run 0, .run 1, .run 1] = some final ∧
      bucketIds (companyKey none).bucket final.committed =
        ["account-1", "account-2"] ∧
      ¬ OneBucket (companyKey none).bucket companyTables final.committed := by
  have hopens : ∀ i, (companyCalls none i).Opens .reference
      companyTables := by
    intro i
    fin_cases i
    · exact ⟨Option.some_ne_none none, List.not_mem_nil⟩
    · exact ⟨Option.some_ne_none none, List.not_mem_nil⟩
  obtain ⟨final, hrun, hids⟩ := two_accounts (companyCalls_bucket none) rfl
    rfl List.mem_cons_self (hopens 0) (hopens 1) (by decide)
  refine ⟨final, hrun, hids, ?_⟩
  intro hone
  have hlength := hone.one
  rw [hids] at hlength
  exact absurd hlength (by decide)

end Financial
end Orvex
