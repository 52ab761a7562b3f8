import Orvex.Api.Amounts
import Orvex.Financial.Origins
import Orvex.Gate.Charges

/-!
# What a commit was authorised for

A commit follows a verification, and a verification compares the report of
the executor with what its own caller declares.  What the revalidation
authorised enters only where that declaration repeats it.
-/

namespace Orvex
namespace Api

open Financial (WellFormed Completion lookupAccount lookupReservation
  committedTotal)
open Revalidation (RevalidateInput MintIds RevalidationOutcome revalidate)
open ExecutionResults (AuthorizedReceipt ExecutionClient ClientReceipt
  SameLedger)

/-! ## Reservations and the requests they are bound to -/

/-- Reservations are bound to requests that exist, and `known` holds of those
that are bound to a request of `S`. -/
structure Linked (S : String → Prop) (known : FinancialReservation → Prop)
    (db : Database) : Prop where
  ledger : WellFormed db
  present : ∀ id, S id → executionRequestTable.lookup id db ≠ none
  anchored : ∀ res ∈ db.financialReservations, ∀ id,
    res.executionRequestId = some id →
      executionRequestTable.lookup id db ≠ none
  known : ∀ res ∈ db.financialReservations, ∀ id,
    res.executionRequestId = some id → S id → known res

/-- Completing or marking a reservation does not show in `known`. -/
structure Steady (known : FinancialReservation → Prop) : Prop where
  completed : ∀ (kind : Completion) (now : ℤ) res,
    known res → known (kind.settle now res)
  marked : ∀ res, known res → known (Financial.setUnknown res)

section

variable {S : String → Prop} {known : FinancialReservation → Prop}
  {db db' : Database}

theorem Linked.of_same (h : Linked S known db) (hledger : SameLedger db' db)
    (hrequests : ∀ id, executionRequestTable.lookup id db ≠ none →
      executionRequestTable.lookup id db' ≠ none) :
    Linked S known db' := by
  refine ⟨hledger.wellFormed h.ledger, ?_, ?_, ?_⟩
  · exact fun id hid => hrequests id (h.present id hid)
  · intro res hmem id hbound
    exact hrequests id (h.anchored res (hledger.reservations ▸ hmem) id
      hbound)
  · intro res hmem
    exact h.known res (hledger.reservations ▸ hmem)

theorem Linked.updateReservation (h : Linked S known db)
    {change : FinancialReservation → FinancialReservation}
    (hsame : Financial.SameHold change)
    (hrequest : ∀ res, (change res).executionRequestId =
      res.executionRequestId)
    (hknown : ∀ res, known res → known (change res)) (rid : String) :
    Linked S known (Financial.updateReservation rid change db) := by
  have hold : ∀ res ∈
      (Financial.updateReservation rid change db).financialReservations,
      ∃ old ∈ db.financialReservations,
        (res = old ∨ res = change old) := by
    intro res hmem
    obtain ⟨old, hold, heq⟩ := List.mem_map.mp hmem
    refine ⟨old, hold, ?_⟩
    rw [← heq]
    split
    · exact Or.inr rfl
    · exact Or.inl rfl
  refine ⟨h.ledger.updateReservation hsame rid, h.present, ?_, ?_⟩
  · intro res hmem id hbound
    obtain ⟨old, hmemOld, rfl | rfl⟩ := hold res hmem
    · exact h.anchored res hmemOld id hbound
    · exact h.anchored old hmemOld id ((hrequest old).symm.trans hbound)
  · intro res hmem id hbound hid
    obtain ⟨old, hmemOld, rfl | rfl⟩ := hold res hmem
    · exact h.known res hmemOld id hbound hid
    · exact hknown old (h.known old hmemOld id
        ((hrequest old).symm.trans hbound) hid)

theorem Linked.updateAccount (h : Linked S known db)
    {change : FinancialAccount → FinancialAccount}
    (hkeep : KeyedTable.KeepsKey FinancialAccount.id change) (id : String) :
    Linked S known (Financial.updateAccount id change db) :=
  ⟨h.ledger.updateAccount hkeep id, h.present, h.anchored, h.known⟩

/-- A new reservation is bound to nothing. -/
theorem Linked.insertReservation (h : Linked S known db)
    {res : FinancialReservation}
    (hallowed : Financial.ReservationAllowed res db)
    (hunbound : res.executionRequestId = none) :
    Linked S known (Financial.insertReservation res db) := by
  refine ⟨h.ledger.insertReservation hallowed.2 hallowed.1, h.present, ?_,
    ?_⟩
  · intro other hmem id hbound
    rcases List.mem_append.mp hmem with hold | hnew
    · exact h.anchored other hold id hbound
    · rw [List.mem_singleton.mp hnew, hunbound] at hbound
      exact absurd hbound (by simp)
  · intro other hmem id hbound
    rcases List.mem_append.mp hmem with hold | hnew
    · exact h.known other hold id hbound
    · rw [List.mem_singleton.mp hnew, hunbound] at hbound
      exact absurd hbound (by simp)

end

/-! ## What keeps the links -/

theorem lookup_insert_ne_none {id : String} {db : Database}
    (request : ExecutionRequestRecord)
    (h : executionRequestTable.lookup id db ≠ none) :
    executionRequestTable.lookup id
      (executionRequestTable.insert request db) ≠ none := by
  change KeyedTable.lookup _ id (db.executionRequests ++ [request]) ≠ none
  rw [KeyedTable.lookup_append_singleton]
  intro hnone
  exact h (Option.or_eq_none_iff.mp hnone).1

section

variable {rt : Runtime} {S : String → Prop}
  {known : FinancialReservation → Prop}

theorem keeps_linked_completion (hsteady : Steady known)
    (kind : Completion) (companyId reservationId : String) (now : ℤ) :
    Fallible.Keeps (Linked S known)
      (kind.run rt companyId reservationId now) := by
  intro db h
  rcases Completion.run_cases rt kind companyId reservationId now h.ledger
    with ⟨res, row, change, hcompletes, hrun⟩ | ⟨res, _, _, hrun⟩ |
      ⟨failure, hrun⟩
  · have hkeep := (Financial.totalsOnly_accountChange
      hcompletes.row_change).keepsKey
    rw [hrun]
    exact (h.updateAccount hkeep _).updateReservation
      (Financial.sameHold_settle kind now)
      (ExecutionResults.settle_requestId kind now)
      (hsteady.completed kind now) res.id
  · rw [hrun]
    exact h
  · rw [hrun]
    exact h

theorem keeps_linked_markUnknown (hsteady : Steady known)
    (companyId reservationId : String) :
    Fallible.Keeps (Linked S known)
      (Financial.markUnknown companyId reservationId) := by
  intro db h
  rcases Financial.markUnknown_cases companyId reservationId h.ledger with
    ⟨res, hfound, hopen, hrun⟩ | ⟨failure, hrun⟩
  · rw [hrun]
    exact h.updateReservation Financial.sameHold_setUnknown (fun _ => rfl)
      hsteady.marked res.id
  · rw [hrun]
    exact h

theorem keeps_linked_ensureAccount (key : Financial.AccountKey)
    (uuid : String) :
    Fallible.Keeps (Linked S known)
      (Financial.ensureAccount rt key none uuid) := by
  intro db h
  rcases Financial.ensureAccount_state rt key uuid db with hsame |
    ⟨hallowed, hopened⟩
  · rw [hsame]
    exact h
  · rw [hopened]
    exact ⟨h.ledger.insertAccount hallowed.2.1, h.present, h.anchored,
      h.known⟩

theorem keeps_linked_reserve (input : Financial.ReserveInput)
    (hunbound : input.executionRequestId = none) (accountUuid uuid : String) :
    Fallible.Keeps (Linked S known)
      (Financial.reserve rt input accountUuid uuid) := by
  intro db h
  have hopened : Linked S known (Financial.ensureAccount rt
      input.toAccountKey none accountUuid db).2 :=
    keeps_linked_ensureAccount input.toAccountKey accountUuid db h
  cases hrun : Financial.reserve rt input accountUuid uuid db with
  | mk result db' =>
      cases result with
      | error failure =>
          rw [Financial.reserve_of_error hrun]
          exact hopened
      | ok res =>
          obtain ⟨account, mid, hensure, row, amount, stored, change,
            hreserved⟩ := Financial.reserve_eq_ok hrun
          rw [hensure] at hopened
          have hres : res.executionRequestId = none := by
            rw [hreserved.res_eq]
            exact hunbound
          have hkeep := (Financial.totalsOnly_reserveChange
            hreserved.row_change).keepsKey
          rw [hreserved.state_eq]
          exact (hopened.insertReservation hreserved.allowed
            hres).updateAccount hkeep _

/-- A new request is bound to nothing known, and neither is the reservation
that is bound to it. -/
theorem keeps_linked_authorize (input : RevalidateInput)
    (policy : Revalidation.PolicyReading) (now : ℤ)
    (uuid reservationId : String) :
    Fallible.Keeps (Linked S known)
      (Revalidation.authorize rt input policy now uuid reservationId) := by
  intro db h
  have hcreated : Linked S known (executionRequestTable.insert
      (Revalidation.newRequest rt input policy now uuid) db) :=
    h.of_same rfl (fun id hid => lookup_insert_ne_none _ hid)
  rcases Revalidation.authorize_state rt input policy now uuid reservationId
      db with hend | ⟨hnew, _, hend | hend⟩
  · rw [hend]
    exact h
  · rw [hend]
    exact hcreated
  rw [hend]
  have hunknown : ¬ S uuid := fun hid => h.present uuid hid hnew
  have hsame : Financial.SameHold (Revalidation.bindTo uuid) :=
    fun _ => ⟨rfl, rfl, rfl⟩
  have hpresent : executionRequestTable.lookup uuid
      (executionRequestTable.insert
        (Revalidation.newRequest rt input policy now uuid) db) ≠ none := by
    have hkey : executionRequestTable.key
        (Revalidation.newRequest rt input policy now uuid) = uuid := rfl
    change KeyedTable.lookup _ uuid (db.executionRequests ++ [_]) ≠ none
    rw [KeyedTable.lookup_append_singleton, if_pos hkey]
    simp
  refine ⟨hcreated.ledger.updateReservation hsame reservationId,
    hcreated.present, ?_, ?_⟩
  · intro res hmem id hbound
    obtain ⟨old, hold, heq⟩ := List.mem_map.mp hmem
    by_cases hkey : reservationTable.key old = reservationId
    · rw [if_pos hkey] at heq
      subst heq
      obtain rfl : uuid = id := Option.some.inj hbound
      exact hpresent
    · rw [if_neg hkey] at heq
      exact hcreated.anchored res (heq ▸ hold) id hbound
  · intro res hmem id hbound hid
    obtain ⟨old, hold, heq⟩ := List.mem_map.mp hmem
    by_cases hkey : reservationTable.key old = reservationId
    · rw [if_pos hkey] at heq
      subst heq
      obtain rfl : uuid = id := Option.some.inj hbound
      exact absurd hid hunknown
    · rw [if_neg hkey] at heq
      exact hcreated.known res (heq ▸ hold) id hbound hid

end

section

variable {rt : Runtime} {S : String → Prop}
  {known : FinancialReservation → Prop}

theorem lookup_setStatus_ne_none {requestId id : String}
    (status : ExecutionRequestStatus) {db : Database}
    (h : executionRequestTable.lookup id db ≠ none) :
    executionRequestTable.lookup id (executionRequestTable.modify requestId
      (fun request => { request with status := status }) db) ≠ none := by
  have hkeep : KeyedTable.KeepsKey executionRequestTable.key
      (fun request : ExecutionRequestRecord =>
        { request with status := status }) := fun _ => rfl
  change KeyedTable.lookup _ id (KeyedTable.modify _ requestId _
    db.executionRequests) ≠ none
  rw [KeyedTable.lookup_modify hkeep]
  split
  next hid =>
    intro hnone
    exact h (hid ▸ Option.map_eq_none_iff.mp hnone)
  next => exact h

theorem keeps_linked_setStatus (requestId : String)
    (status : ExecutionRequestStatus) :
    Fallible.Keeps (Linked S known)
      (ExecutionResults.setStatus requestId status) :=
  Table.keeps_update (fun _ h =>
    h.of_same rfl (fun _ hid => lookup_setStatus_ne_none status hid))

theorem keeps_linked_of_preserves {α : Type} {x : Service α}
    (hx : Fallible.Preserves (fun db => (db.financialAccounts,
      db.financialReservations, db.executionRequests)) x) :
    Fallible.Keeps (Linked S known) x := by
  intro db h
  have hsame := hx.apply db
  simp only [Prod.mk.injEq] at hsame
  refine h.of_same ?_ (fun id hid => ?_)
  · exact Prod.ext hsame.1 hsame.2.1
  · change KeyedTable.lookup _ id (x db).2.executionRequests ≠ none
    rw [hsame.2.2]
    exact hid

theorem linked_prepare (auth : AuthContext) (body : PrepareBody) (now : ℤ)
    (ids : MintIds) :
    Fallible.Keeps (Linked S known) (postPrepare rt auth body now ids) := by
  refine keeps_postPrepare (Revalidation.keeps_revalidate (fun policy => ?_))
  refine Revalidation.keeps_mint ?_ ?_ (fun reservationId => ?_)
  · exact Idempotency.keeps_register
      (fun _ _ h => h.of_same rfl (fun _ hid => hid)) rt _ _
  · exact keeps_linked_reserve _ rfl _ _
  · exact keeps_linked_authorize _ _ _ _ _

theorem linked_ingestResult (hsteady : Steady known) (companyId : String)
    (input : ExecutionResults.ExecutionResultInput) (now : ℤ)
    (uuid : String) :
    Fallible.Keeps (Linked S known)
      (ExecutionResults.ingestResult rt companyId input now uuid) := by
  refine ExecutionResults.keeps_ingestResult keeps_linked_setStatus
    (fun _ => ?_) (keeps_linked_markUnknown hsteady companyId)
    (fun _ id => keeps_linked_completion hsteady .release companyId id now)
  exact ExecutionResults.keeps_createResult
    (fun _ _ h => h.of_same rfl (fun _ hid => hid))

theorem linked_verify (hsteady : Steady known) (client : ExecutionClient)
    (companyId executionId : String) (authorized : AuthorizedReceipt)
    (now : ℤ) (uuid : String) :
    Fallible.Keeps (Linked S known) (ExecutionResults.verifyAndFinalize rt
      client companyId executionId authorized now uuid) :=
  ExecutionResults.keeps_verifyAndFinalize
    (fun _ _ => Table.keeps_create
      (fun _ h _ => h.of_same rfl (fun _ hid => hid)))
    (fun id => keeps_linked_completion hsteady .commit companyId id now)

theorem Linked.step (hsteady : Steady known) (call : Call) {db : Database}
    (h : Linked S known db) : Linked S known (call.step rt db) := by
  have hspared : call.operation.Spares (fun db => (db.financialAccounts,
      db.financialReservations, db.executionRequests)) →
        Linked S known (call.step rt db) :=
    fun hspares =>
      keeps_linked_of_preserves (call.perform_spares rt hspares) db h
  cases hoperation : call.operation with
  | prepare body ids =>
      simp only [Call.step, Call.perform, hoperation, discard_state]
      exact linked_prepare _ _ _ _ db h
  | reconcile client executionId =>
      simp only [Call.step, Call.perform, hoperation, discard_state]
      exact ExecutionResults.keeps_reconcile keeps_linked_setStatus
        (fun _ id => keeps_linked_completion hsteady .reconcileRelease _ id _)
        db h
  | ingestResult executionId body uuid =>
      simp only [Call.step, Call.perform, hoperation, discard_state]
      exact Fallible.Keeps.bind (keeps_requireRole _ _)
        (fun _ => linked_ingestResult hsteady _ _ _ _) db h
  | verify client executionId authorized uuid =>
      simp only [Call.step, Call.perform, hoperation, discard_state]
      exact Fallible.Keeps.bind (keeps_requireRole _ _)
        (fun _ => linked_verify hsteady _ _ _ _ _ _) db h
  | _ =>
      -- the other routes write neither the ledger nor requests
      refine hspared ?_
      rw [hoperation]
      repeat' first
        | exact fun _ _ => rfl
        | exact fun _ _ _ => rfl
        | refine ⟨?_, ?_⟩

theorem Linked.run (hsteady : Steady known) (calls : List Call)
    {db : Database} (h : Linked S known db) :
    Linked S known (run rt calls db) :=
  run_induction (fun call _ hdb => hdb.step hsteady call) h

end

/-! ## Only a verification commits -/

/-- The reservation is not COMMITTED, if it exists. -/
structure Uncommitted (id : String) (db : Database) : Prop where
  ledger : WellFormed db
  status : ∀ res, lookupReservation id db = some res →
    res.status ≠ .committed

section

variable {rt : Runtime} {id : String}

theorem Uncommitted.of_ledger {db db' : Database} (h : Uncommitted id db)
    (hsame : SameLedger db' db) : Uncommitted id db' := by
  refine ⟨hsame.wellFormed h.ledger, ?_⟩
  rw [hsame.lookupReservation]
  exact h.status

theorem Uncommitted.updateReservation {db : Database}
    (h : Uncommitted id db) {rid : String}
    {change : FinancialReservation → FinancialReservation}
    (hsame : Financial.SameHold change)
    (hstatus : ∀ res, res.status ≠ .committed →
      (change res).status ≠ .committed) :
    Uncommitted id (Financial.updateReservation rid change db) := by
  refine ⟨h.ledger.updateReservation hsame rid, ?_⟩
  intro res hlookup
  rw [Financial.lookupReservation_updateReservation db hsame.keepsKey]
    at hlookup
  split at hlookup
  next hid =>
    obtain ⟨old, hold, rfl⟩ := Option.map_eq_some_iff.mp hlookup
    exact hstatus old (h.status old (hid ▸ hold))
  next => exact h.status res hlookup

theorem keeps_uncommitted_completion {kind : Completion}
    (hkind : kind ≠ .commit) (companyId reservationId : String) (now : ℤ) :
    Fallible.Keeps (Uncommitted id)
      (kind.run rt companyId reservationId now) := by
  intro db h
  rcases Completion.run_cases rt kind companyId reservationId now h.ledger
    with ⟨res, row, change, hcompletes, hrun⟩ | ⟨res, _, _, hrun⟩ |
      ⟨failure, hrun⟩
  · have hkeep := (Financial.totalsOnly_accountChange
      hcompletes.row_change).keepsKey
    have hopened : Uncommitted id
        (Financial.updateAccount res.financialAccountId change db) :=
      ⟨h.ledger.updateAccount hkeep _, h.status⟩
    rw [hrun]
    refine hopened.updateReservation (Financial.sameHold_settle kind now)
      (fun other _ => ?_)
    rw [Financial.settle_status]
    cases kind with
    | commit => exact absurd rfl hkind
    | release => simp [Completion.final]
    | reconcileRelease => simp [Completion.final]
  · rw [hrun]
    exact h
  · rw [hrun]
    exact h

theorem keeps_uncommitted_markUnknown (companyId reservationId : String) :
    Fallible.Keeps (Uncommitted id)
      (Financial.markUnknown companyId reservationId) := by
  intro db h
  rcases Financial.markUnknown_cases companyId reservationId h.ledger with
    ⟨res, hfound, hopen, hrun⟩ | ⟨failure, hrun⟩
  · rw [hrun]
    exact h.updateReservation Financial.sameHold_setUnknown
      (fun _ _ => by simp [Financial.setUnknown])
  · rw [hrun]
    exact h

theorem keeps_uncommitted_reserve (input : Financial.ReserveInput)
    (accountUuid uuid : String) :
    Fallible.Keeps (Uncommitted id)
      (Financial.reserve rt input accountUuid uuid) := by
  intro db h
  have hopened : Uncommitted id (Financial.ensureAccount rt
      input.toAccountKey none accountUuid db).2 := by
    rcases Financial.ensureAccount_state rt input.toAccountKey accountUuid db
      with hsame | ⟨hallowed, hopened⟩
    · rw [hsame]
      exact h
    · rw [hopened]
      exact ⟨h.ledger.insertAccount hallowed.2.1, h.status⟩
  cases hrun : Financial.reserve rt input accountUuid uuid db with
  | mk result db' =>
      cases result with
      | error failure =>
          rw [Financial.reserve_of_error hrun]
          exact hopened
      | ok res =>
          obtain ⟨account, mid, hensure, row, amount, stored, change,
            hreserved⟩ := Financial.reserve_eq_ok hrun
          rw [hensure] at hopened
          have hkeep := (Financial.totalsOnly_reserveChange
            hreserved.row_change).keepsKey
          rw [hreserved.state_eq]
          refine ⟨(hopened.ledger.insertReservation hreserved.allowed.2
            hreserved.allowed.1).updateAccount hkeep _, ?_⟩
          intro found hlookup
          rw [Financial.lookupReservation_updateAccount,
            Financial.lookupReservation_insertReservation,
            Option.or_eq_some_iff] at hlookup
          rcases hlookup with hold | ⟨_, hnew⟩
          · exact hopened.status found hold
          · have hres : res = found := by
              split at hnew
              next => exact Option.some.inj hnew
              next => exact absurd hnew (by simp)
            rw [← hres, hreserved.res_eq]
            simp [Financial.newReservation]

theorem keeps_uncommitted_authorize (input : RevalidateInput)
    (policy : Revalidation.PolicyReading) (now : ℤ)
    (uuid reservationId : String) :
    Fallible.Keeps (Uncommitted id)
      (Revalidation.authorize rt input policy now uuid reservationId) := by
  intro db h
  rcases Revalidation.authorize_state rt input policy now uuid reservationId
      db with hend | ⟨_, _, hend | hend⟩
  · rw [hend]
    exact h
  · rw [hend]
    exact h.of_ledger rfl
  · rw [hend]
    have hinserted : Uncommitted id (executionRequestTable.insert
        (Revalidation.newRequest rt input policy now uuid) db) :=
      h.of_ledger rfl
    exact hinserted.updateReservation (fun _ => ⟨rfl, rfl, rfl⟩)
      (fun _ hold => hold)

/-- No call but a verification commits a reservation. -/
theorem Uncommitted.step (call : Call)
    (hother : ∀ client executionId authorized uuid,
      call.operation ≠ .verify client executionId authorized uuid)
    {db : Database} (h : Uncommitted id db) :
    Uncommitted id (call.step rt db) := by
  have hspared : call.operation.Spares (fun db => (db.financialAccounts,
      db.financialReservations)) → Uncommitted id (call.step rt db) :=
    fun hspares => h.of_ledger ((call.perform_spares rt hspares).apply db)
  cases hoperation : call.operation with
  | prepare body ids =>
      simp only [Call.step, Call.perform, hoperation, discard_state]
      refine keeps_postPrepare (Revalidation.keeps_revalidate
        (fun policy => Revalidation.keeps_mint ?_
          (keeps_uncommitted_reserve _ _ _)
          (keeps_uncommitted_authorize _ _ _ _))) db h
      exact Idempotency.keeps_register (fun _ _ h => h.of_ledger rfl) rt _ _
  | reconcile client executionId =>
      simp only [Call.step, Call.perform, hoperation, discard_state]
      exact ExecutionResults.keeps_reconcile
        (fun _ _ => Table.keeps_update (fun _ h => h.of_ledger rfl))
        (fun _ rid => keeps_uncommitted_completion (by simp) _ rid _) db h
  | ingestResult executionId body uuid =>
      simp only [Call.step, Call.perform, hoperation, discard_state]
      refine Fallible.Keeps.bind (keeps_requireRole _ _) (fun _ => ?_) db h
      refine ExecutionResults.keeps_ingestResult
        (fun _ _ => Table.keeps_update (fun _ h => h.of_ledger rfl))
        (fun _ => ?_) (keeps_uncommitted_markUnknown _)
        (fun _ rid => keeps_uncommitted_completion (by simp) _ rid _)
      exact ExecutionResults.keeps_createResult
        (fun _ _ h => h.of_ledger rfl)
  | verify client executionId authorized uuid =>
      exact absurd hoperation (hother client executionId authorized uuid)
  | _ =>
      refine hspared ?_
      rw [hoperation]
      repeat' first
        | exact fun _ _ => rfl
        | exact fun _ _ _ => rfl
        | refine ⟨?_, ?_⟩

end


/-! ## What a mint links -/

/-- The reservation that a mint bound, whatever became of it. -/
def Minted (hold res : FinancialReservation) : Prop :=
  res.id = hold.id ∧ res.amount = hold.amount

theorem steady_minted (hold : FinancialReservation) :
    Steady (Minted hold) := by
  constructor
  · intro kind now res hres
    obtain ⟨hid, hamount, _⟩ := Financial.sameHold_settle kind now res
    exact ⟨hid.trans hres.1, hamount.trans hres.2⟩
  · exact fun _ hres => hres

/-- No reservation names a request that does not exist. -/
abbrev Anchored (db : Database) : Prop :=
  Linked (fun _ => False) (fun _ => True) db

/-- The rows that a call that mints leaves behind. -/
structure LeavesHold (rt : Runtime) (input : RevalidateInput)
    (request : ExecutionRequestRecord) (hold : FinancialReservation)
    (db' : Database) : Prop where
  linked : Linked (fun id => id = request.id) (Minted hold) db'
  request_row : request ∈ db'.executionRequests
  company : request.companyId = input.companyId
  hold_row : lookupReservation hold.id db' =
    some (Revalidation.bindTo request.id hold)
  reserved : hold.status = .reserved
  hold_company : hold.companyId = input.companyId
  stored : rt.storeText input.amount = some hold.amount

theorem leavesHold_of_minted {rt : Runtime} {input : RevalidateInput}
    {now : ℤ} {ids : MintIds} {db db' : Database}
    {outcome : RevalidationOutcome} (h : Anchored db)
    (hrun : revalidate rt input now ids db = (.ok outcome, db'))
    (hallow : outcome.result = .allow)
    (hfresh : outcome.determinant = "allow") :
    ∃ request hold, outcome = Revalidation.minted request hold.id ∧
      LeavesHold rt input request hold db' := by
  obtain ⟨state, _, _, hmint⟩ := Revalidation.mint_of_allow hrun hallow
  obtain ⟨mid, ⟨records, hmid⟩, hend⟩ := Revalidation.mint_eq_ok hmint
  rcases hend with ⟨existing, _, rfl, _⟩ | rfl |
    ⟨hnone, res, held, hreserve, hauthorize⟩
  · exact absurd hfresh (by simp [Revalidation.reused])
  · exact absurd hfresh (by simp [Revalidation.budgetExceeded])
  have hregistered : Anchored mid := by
    rw [hmid]
    exact h.of_same rfl (fun _ hid => hid)
  have hheld : Anchored held := by
    have hkeeps : Anchored (Financial.reserve rt
        (Revalidation.reserveInput input) ids.account ids.reservation
        mid).2 :=
      keeps_linked_reserve (Revalidation.reserveInput input) rfl
        ids.account ids.reservation mid hregistered
    rwa [hreserve] at hkeeps
  have hlast : Anchored db' := by
    have hkeeps : Anchored (Revalidation.authorize rt input state.policy now
        ids.executionRequest res.id held).2 :=
      keeps_linked_authorize input state.policy now ids.executionRequest
        res.id held hheld
    rwa [hauthorize] at hkeeps
  obtain ⟨hnew, _, houtcome, hstate⟩ :=
    Revalidation.authorize_eq_ok hauthorize
  obtain ⟨account, ensured, _, row, amount, stored, change, hreserved⟩ :=
    Financial.reserve_eq_ok hreserve
  have hrow : lookupReservation res.id held = some res := by
    rw [hreserved.state_eq, Financial.lookupReservation_updateAccount,
      Financial.lookupReservation_insertReservation, hreserved.allowed.2,
      if_pos rfl, Option.none_or]
  have hrequests : db'.executionRequests = held.executionRequests ++
      [Revalidation.newRequest rt input state.policy now
        ids.executionRequest] := by
    rw [hstate]
    rfl
  refine ⟨_, res, houtcome, ?_⟩
  exact
    { linked := by
        refine ⟨hlast.ledger, ?_, hlast.anchored, ?_⟩
        · rintro id rfl
          have hkey : executionRequestTable.key (Revalidation.newRequest rt
              input state.policy now ids.executionRequest) =
                ids.executionRequest := rfl
          change KeyedTable.lookup _ ids.executionRequest
            db'.executionRequests ≠ none
          rw [hrequests, KeyedTable.lookup_append_singleton, if_pos hkey]
          simp
        · rintro other hmem id hbound rfl
          rw [hstate] at hmem
          obtain ⟨old, hold, heq⟩ := List.mem_map.mp hmem
          by_cases hkey : reservationTable.key old = res.id
          · rw [if_pos hkey] at heq
            have hsame : lookupReservation old.id held = some old :=
              KeyedTable.lookup_of_mem hheld.ledger.reservations hold
            have hid : old.id = res.id := hkey
            rw [hid, hrow, Option.some.injEq] at hsame
            rw [← heq, ← hsame]
            exact ⟨rfl, rfl⟩
          · rw [if_neg hkey] at heq
            exact absurd hnew (hheld.anchored old hold _ (heq ▸ hbound))
      request_row := by
        rw [hrequests]
        exact List.mem_append_right _ (List.mem_singleton_self _)
      company := rfl
      hold_row := by
        have hbind : KeyedTable.KeepsKey FinancialReservation.id
            (Revalidation.bindTo ids.executionRequest) := fun _ => rfl
        have hmodify := Financial.lookupReservation_updateReservation held
          hbind res.id res.id
        rw [if_pos rfl, hrow, Option.map_some] at hmodify
        rw [hstate]
        exact hmodify
      reserved := by
        rw [hreserved.res_eq]
        rfl
      hold_company := by
        rw [hreserved.res_eq]
        rfl
      stored := by
        have hamount : res.amount = stored := by
          rw [hreserved.res_eq]
          rfl
        exact hamount ▸ hreserved.amount_stored }


/-! ## What a commit charges -/

/-- The two texts are read as the same number. -/
def SameAmount (rt : Runtime) (text text' : String) : Prop :=
  ∃ d, d ≠ Decimal.nan ∧ rt.toDecimal text = some d ∧
    rt.toDecimal text' = some d

theorem SameAmount.symm {rt : Runtime} {text text' : String}
    (h : SameAmount rt text text') : SameAmount rt text' text := by
  obtain ⟨d, hnumber, htext, htext'⟩ := h
  exact ⟨d, hnumber, htext', htext⟩

theorem SameAmount.trans {rt : Runtime} {text text' text'' : String}
    (h : SameAmount rt text text') (h' : SameAmount rt text' text'') :
    SameAmount rt text text'' := by
  obtain ⟨d, hnumber, htext, htext'⟩ := h
  obtain ⟨e, _, hsame, htext''⟩ := h'
  rw [htext', Option.some.injEq] at hsame
  exact ⟨d, hnumber, htext, hsame ▸ htext''⟩

/-- The reservation turns COMMITTED. -/
def Becomes (id : String) (db db' : Database) : Prop :=
  (∀ res, lookupReservation id db = some res → res.status ≠ .committed) ∧
    ∃ res, lookupReservation id db' = some res ∧ res.status = .committed

/-- The commit charges what the executor reports, and the executor reports
what was authorised. -/
structure CommitsAuthorised (rt : Runtime) (input : RevalidateInput)
    (actual : AuthorizedReceipt) (id : String) (db db' : Database) : Prop
    where
  recipient : actual.recipient = input.analysis.recipient
  asset : actual.asset = input.analysis.asset
  network : actual.network = input.actualNetwork
  amount : SameAmount rt actual.amount input.analysis.amount
  charged : ∃ res x, lookupReservation id db' = some res ∧
    rt.toDecimal actual.amount = some (.finite x) ∧
      committedTotal res.financialAccountId db' =
        committedTotal res.financialAccountId db + x

/-- The caller of the verification declares the payload that was authorised,
and the amount that was held is the one that the payload names. -/
structure Declares (rt : Runtime) (input : RevalidateInput)
    (authorized : AuthorizedReceipt) : Prop where
  recipient : authorized.recipient = input.analysis.recipient
  asset : authorized.asset = input.analysis.asset
  network : authorized.network = input.actualNetwork
  amount : SameAmount rt authorized.amount input.analysis.amount
  held : ∃ x, rt.storeText input.amount = some x ∧
    rt.toDecimal input.analysis.amount = some (.finite x)

/-- The committed total of the account with the amount of the reservation
loses nothing when it is stored. -/
def CommitSum (rt : Runtime) (id : String) (db : Database) : Prop :=
  ∀ res, lookupReservation id db = some res →
    Financial.StoresExactly rt
      (committedTotal res.financialAccountId db + res.amount)

section

variable {rt : Runtime} {client : ExecutionClient}
  {companyId executionId id uuid : String} {authorized : AuthorizedReceipt}
  {now : ℤ} {db : Database}

theorem agrees_of_discrepancies {receipt : ClientReceipt}
    (h : ExecutionResults.discrepancies rt authorized receipt = .ok []) :
    authorized.recipient = receipt.actual.recipient ∧
      authorized.asset = receipt.actual.asset ∧
        authorized.network = receipt.actual.network ∧
          SameAmount rt authorized.amount receipt.actual.amount := by
  unfold ExecutionResults.discrepancies at h
  rw [Fallible.result_bind_eq_ok] at h
  obtain ⟨expected, hexpected, h⟩ := h
  rw [Fallible.result_bind_eq_ok] at h
  obtain ⟨actual, hactual, h⟩ := h
  simp only [Fallible.result_pure, Except.ok.injEq, List.append_eq_nil_iff]
    at h
  obtain ⟨⟨⟨⟨hrecipient, hasset⟩, hamount⟩, hnetwork⟩, _⟩ := h
  have hsilent : ∀ {condition : Bool} {name : String},
      ExecutionResults.nameIf condition name = [] → condition = false := by
    intro condition name hnil
    cases condition with
    | false => rfl
    | true => simp [ExecutionResults.nameIf] at hnil
  have hequal : expected.equals actual = true := by
    simpa using hsilent hamount
  obtain ⟨rfl, hnumber⟩ := Decimal.equals_iff.mp hequal
  refine ⟨?_, ?_, ?_, expected, hnumber, decimalOf_eq_ok.mp hexpected,
    decimalOf_eq_ok.mp hactual⟩
  · simpa using hsilent hrecipient
  · simpa using hsilent hasset
  · simpa using hsilent hnetwork

/-- What a commit writes to the committed total of the account. -/
theorem committed_of_completes {kind : Completion} {reservationId : String}
    {res : FinancialReservation} {row : FinancialAccount}
    {change : FinancialAccount → FinancialAccount} (hkind : kind = .commit)
    (h : Financial.Completes rt kind companyId reservationId res row change
      db) :
    rt.store (.finite (rt.round
        (committedTotal res.financialAccountId db + res.amount))) =
      some (committedTotal res.financialAccountId
        (Financial.completedState kind now res change db)) := by
  have hcommitted : committedTotal res.financialAccountId db =
      row.currentCommitted := by
    unfold committedTotal
    rw [h.row_found]
    rfl
  have hkeep := (Financial.totalsOnly_accountChange h.row_change).keepsKey
  have hafter : committedTotal res.financialAccountId
      (Financial.completedState kind now res change db) =
        (change row).currentCommitted := by
    unfold committedTotal Financial.completedState
    rw [Financial.lookupAccount_updateReservation,
      Financial.lookupAccount_updateAccount _ hkeep, if_pos rfl, h.row_found]
    rfl
  have hchange := h.row_change
  unfold Completion.accountChange at hchange
  rw [hkind] at hchange
  simp only [Option.bind_eq_bind, Option.bind_eq_some_iff, Option.pure_def,
    Option.some.injEq, Decimal.plus_finite] at hchange
  obtain ⟨reserved, -, committed, hstored, hchange⟩ := hchange
  rw [hafter, hcommitted, hstored, ← hchange]

theorem Becomes.moved {id : String} {db db' : Database}
    (h : Becomes id db db') : ¬ SameLedger db' db := by
  intro hsame
  obtain ⟨hopen, res, hlookup, hstatus⟩ := h
  rw [hsame.lookupReservation] at hlookup
  exact hopen res hlookup hstatus

/-- A commit that turns a reservation COMMITTED turns the one that it names,
and adds its amount to what the account has committed. -/
theorem commit_becomes (hdb : WellFormed db) {db' : Database}
    {hold : FinancialReservation} (hmem : hold ∈ db.financialReservations)
    (hrun : (Financial.commit rt companyId hold.id now db).2 = db')
    (hbecomes : Becomes id db db') :
    rt.store (.finite (rt.round (committedTotal hold.financialAccountId db +
        hold.amount))) =
      some (committedTotal hold.financialAccountId db') ∧
      lookupReservation id db = some hold ∧
      ∃ res, lookupReservation id db' = some res ∧
        res.financialAccountId = hold.financialAccountId := by
  unfold Financial.commit at hrun
  rcases Completion.run_cases rt .commit companyId hold.id now hdb with
    ⟨res, row, change, hcompletes, hcommit⟩ | ⟨res, _, _, hcommit⟩ |
    ⟨failure, hcommit⟩
  · have hlookup := Financial.lookupReservation_of_found hdb hcompletes.found
    have hkey := Financial.id_of_findReservation hcompletes.found
    have hown : lookupReservation hold.id db = some hold :=
      KeyedTable.lookup_of_mem hdb.reservations hmem
    rw [hkey, hown, Option.some.injEq] at hlookup
    subst hlookup
    have htotal := @committed_of_completes rt companyId now _ .commit _
      _ _ _ rfl hcompletes
    rw [hcommit] at hrun
    have hstate : Financial.completedState .commit now hold change db = db' :=
      hrun
    have hafter : lookupReservation id db' =
        if id = hold.id
        then (lookupReservation hold.id db).map
          (Completion.commit.settle now)
        else lookupReservation id db := by
      rw [← hstate]
      exact Financial.lookupReservation_updateReservation _
        (Financial.sameHold_settle .commit now).keepsKey hold.id id
    rw [hstate] at htotal
    by_cases hid : id = hold.id
    · rw [if_pos hid, hown] at hafter
      rw [hid] at hafter ⊢
      exact ⟨htotal, hown, _, hafter,
        (Financial.sameHold_settle .commit now hold).2.2⟩
    · rw [if_neg hid] at hafter
      obtain ⟨hopen, other, hother, hstatus⟩ := hbecomes
      exact absurd hstatus (hopen other (hafter ▸ hother))
  · rw [hcommit] at hrun
    exact absurd (hrun ▸ rfl) hbecomes.moved
  · rw [hcommit] at hrun
    exact absurd (hrun ▸ rfl) hbecomes.moved

/-- A verification that commits a reservation found no difference, and adds
the amount of the reservation to what its account has committed. -/
theorem commit_of_verify (hdb : WellFormed db)
    {db' : Database} (hrun : (ExecutionResults.verifyAndFinalize rt client
      companyId executionId authorized now uuid db).2 = db')
    (hbecomes : Becomes id db db') :
    ∃ receipt hold, client.verify executionId = .ok receipt ∧
      ExecutionResults.discrepancies rt authorized receipt = .ok [] ∧
        hold ∈ db.financialReservations ∧
          hold.executionRequestId = some executionId ∧
            rt.store (.finite (rt.round (committedTotal
                hold.financialAccountId db + hold.amount))) =
              some (committedTotal hold.financialAccountId db') ∧
            lookupReservation id db = some hold ∧
            ∃ res, lookupReservation id db' = some res ∧
              res.financialAccountId = hold.financialAccountId := by
  rcases @ExecutionResults.verifyAndFinalize_cases rt client companyId
      executionId uuid authorized now db with hsame |
    ⟨request, receipt, found, hcompared, hend⟩
  · rw [hsame] at hrun
    exact absurd (hrun ▸ rfl) hbecomes.moved
  rw [hrun] at hend
  unfold ExecutionResults.finalized at hend
  by_cases hclean : found.isEmpty = true
  · obtain rfl := List.isEmpty_iff.mp hclean
    simp only [if_pos hclean] at hend
    cases hfind : ExecutionResults.findHold companyId request.id
        [.reserved] db with
    | none =>
        rw [hfind] at hend
        exact absurd (hend ▸ rfl) hbecomes.moved
    | some hold =>
        rw [hfind] at hend
        obtain ⟨hmem, -, hbound, -⟩ :=
          ExecutionResults.findHold_eq_some hfind
        have hid : request.id = executionId :=
          (ExecutionResults.getRequest_eq_some hcompared.request_found).2.1
        -- the recorded verification does not touch the ledger
        have hmid : WellFormed (receiptVerificationTable.insert
            (ExecutionResults.recordOf authorized request receipt [] now
              uuid) db) :=
          @SameLedger.wellFormed db _ rfl hdb
        exact ⟨receipt, hold, hcompared.receipt_read, hcompared.compared,
          hmem, hid ▸ hbound, commit_becomes hmid hmem hend.symm hbecomes⟩
  · simp only [if_neg hclean] at hend
    exact absurd (hend ▸ rfl) hbecomes.moved

end

theorem requireRole_bind_cases {α : Type} (auth : AuthContext)
    (roles : List String) (x : Service α) (db : Database) :
    (requireRole auth roles >>= fun _ => x) db = x db ∨
      ((requireRole auth roles >>= fun _ => x) db).2 = db := by
  unfold requireRole
  split
  · exact Or.inl rfl
  · exact Or.inr rfl

theorem commitSum_iff {rt : Runtime} {hold : FinancialReservation}
    {id : String} {db db' : Database}
    (hrow : lookupReservation id db = some hold)
    (hstored : rt.store (.finite (rt.round
        (committedTotal hold.financialAccountId db + hold.amount))) =
      some (committedTotal hold.financialAccountId db')) :
    CommitSum rt id db ↔
      committedTotal hold.financialAccountId db' =
        committedTotal hold.financialAccountId db + hold.amount := by
  constructor
  · intro hexactly
    exact Option.some.inj (hstored.symm.trans (hexactly hold hrow))
  · intro htotal found hfound
    obtain rfl : hold = found := Option.some.inj (hrow.symm.trans hfound)
    unfold Financial.StoresExactly
    rw [hstored, htotal]

/-- What the commit adds, where the executor reports the payload. -/
theorem CommitsAuthorised.added {rt : Runtime} {input : RevalidateInput}
    {actual : AuthorizedReceipt} {res : FinancialReservation} {id : String}
    {db db' : Database} (h : CommitsAuthorised rt input actual id db db')
    (hres : lookupReservation id db' = some res) :
    ∃ x, rt.toDecimal input.analysis.amount = some (.finite x) ∧
      committedTotal res.financialAccountId db' =
        committedTotal res.financialAccountId db + x := by
  obtain ⟨found, x, hfound, hread, htotal⟩ := h.charged
  obtain rfl : res = found := Option.some.inj (hres.symm.trans hfound)
  obtain ⟨d, _, hreported, hpayload⟩ := h.amount
  rw [hread] at hreported
  exact ⟨x, by rw [hpayload, ← hreported], htotal⟩

/-- Where the sum loses nothing, what a commit charges is what the executor
reports and what was authorised exactly when its caller declares the authorised
payload, and the amount of that was held.  Where they do, it is exactly when
the sum loses nothing. -/
theorem authorised_iff_declares {rt : Runtime} {input : RevalidateInput}
    {authorized actual : AuthorizedReceipt} {hold res : FinancialReservation}
    {id : String} {db db' : Database}
    (hagrees : authorized.recipient = actual.recipient ∧
      authorized.asset = actual.asset ∧
        authorized.network = actual.network ∧
          SameAmount rt authorized.amount actual.amount)
    (hheld : rt.storeText input.amount = some hold.amount)
    (hrow : lookupReservation id db = some hold)
    (hres : lookupReservation id db' = some res)
    (haccount : res.financialAccountId = hold.financialAccountId)
    (hstored : rt.store (.finite (rt.round
        (committedTotal hold.financialAccountId db + hold.amount))) =
      some (committedTotal hold.financialAccountId db')) :
    (CommitSum rt id db →
      (CommitsAuthorised rt input actual id db db' ↔
        Declares rt input authorized)) ∧
      (Declares rt input authorized →
        (CommitsAuthorised rt input actual id db db' ↔
          CommitSum rt id db)) := by
  obtain ⟨hrecipient, hasset, hnetwork, hamount⟩ := hagrees
  have hsum := commitSum_iff hrow hstored
  have hactual : ∀ x, SameAmount rt authorized.amount input.analysis.amount →
      rt.toDecimal input.analysis.amount = some (.finite x) →
        rt.toDecimal actual.amount = some (.finite x) := by
    intro x hsame hread
    obtain ⟨d, _, hdeclared, hpayload⟩ := hamount.symm.trans hsame
    rw [hdeclared, ← hread, hpayload]
  have hback : Declares rt input authorized → CommitSum rt id db →
      CommitsAuthorised rt input actual id db db' := by
    intro h hexactly
    obtain ⟨x, hx, hread⟩ := h.held
    rw [hheld, Option.some.injEq] at hx
    exact
      { recipient := hrecipient.symm.trans h.recipient
        asset := hasset.symm.trans h.asset
        network := hnetwork.symm.trans h.network
        amount := hamount.symm.trans h.amount
        charged := ⟨res, x, hres, hactual x h.amount hread, by
          rw [haccount, hsum.mp hexactly, hx]⟩ }
  constructor
  · intro hexactly
    refine ⟨?_, fun h => hback h hexactly⟩
    intro h
    obtain ⟨x, hread, htotal⟩ := h.added hres
    rw [haccount, hsum.mp hexactly] at htotal
    have hx : hold.amount = x := by linarith
    exact
      { recipient := hrecipient.trans h.recipient
        asset := hasset.trans h.asset
        network := hnetwork.trans h.network
        amount := hamount.trans h.amount
        held := ⟨x, hx ▸ hheld, hread⟩ }
  · intro hdeclares
    refine ⟨?_, hback hdeclares⟩
    intro h
    obtain ⟨x, hread, htotal⟩ := h.added hres
    rw [haccount] at htotal
    obtain ⟨y, hy, hpayload⟩ := hdeclares.held
    rw [hread, Option.some.injEq, Decimal.finite.injEq] at hpayload
    rw [hheld, Option.some.injEq, ← hpayload] at hy
    exact hsum.mpr (by rw [htotal, hy])

/-- After a request was minted, in every run, only a verification turns a
reservation COMMITTED.  Where the sum that one of the minted request writes
loses nothing, it charges what was authorised exactly when it declares the
authorised payload and the amount of that was held. -/
theorem commits_authorised_iff {rt : Runtime} {db minted : Database}
    (hdb : Anchored db) {input : RevalidateInput} {now : ℤ}
    {ids : MintIds} {outcome : RevalidationOutcome}
    {request : ExecutionRequestRecord}
    (hrun : revalidate rt input now ids db = (.ok outcome, minted))
    (hallow : outcome.result = .allow)
    (hfresh : outcome.determinant = "allow")
    (hrequest : outcome.executionRequest = some request)
    (between : List Call) (call : Call) {id : String}
    (hbecomes : Becomes id (run rt between minted)
      (call.step rt (run rt between minted))) :
    ∃ client executionId authorized uuid receipt,
      call.operation = .verify client executionId authorized uuid ∧
        client.verify executionId = .ok receipt ∧
          (executionId = request.id →
            (CommitSum rt id (run rt between minted) →
              (CommitsAuthorised rt input receipt.actual id
                  (run rt between minted)
                  (call.step rt (run rt between minted)) ↔
                Declares rt input authorized)) ∧
            (Declares rt input authorized →
              (CommitsAuthorised rt input receipt.actual id
                  (run rt between minted)
                  (call.step rt (run rt between minted)) ↔
                CommitSum rt id (run rt between minted)))) := by
  obtain ⟨row, hold, rfl, hleaves⟩ :=
    leavesHold_of_minted hdb hrun hallow hfresh
  obtain rfl := Option.some.inj hrequest
  have hmid := @Linked.run rt _ _ (steady_minted hold) between _
    hleaves.linked
  have hopen : Uncommitted id (run rt between minted) :=
    ⟨hmid.ledger, hbecomes.1⟩
  cases hoperation : call.operation with
  | verify client executionId authorized uuid =>
      have hstep : call.step rt (run rt between minted) =
          (postVerify rt client call.auth executionId authorized call.now
            uuid (run rt between minted)).2 := by
        simp only [Call.step, Call.perform, hoperation, discard_state]
      rcases requireRole_bind_cases call.auth executorRoles
          (ExecutionResults.verifyAndFinalize rt client call.auth.companyId
            executionId authorized call.now uuid) (run rt between minted)
        with hverify | hsame
      · have hend : (ExecutionResults.verifyAndFinalize rt client
            call.auth.companyId executionId authorized call.now uuid
            (run rt between minted)).2 =
              call.step rt (run rt between minted) := by
          rw [hstep]
          exact (congrArg Prod.snd hverify).symm
        obtain ⟨receipt, found, hreceipt, hclean, hmem, hbound, hstored,
          hrow, res, hres, haccount⟩ :=
            commit_of_verify hmid.ledger hend hbecomes
        refine ⟨client, executionId, authorized, uuid, receipt, rfl,
          hreceipt, ?_⟩
        intro hexecution
        have hknown := hmid.known found hmem executionId hbound hexecution
        have hheld : rt.storeText input.amount = some found.amount := by
          rw [hknown.2]
          exact hleaves.stored
        exact authorised_iff_declares (agrees_of_discrepancies hclean) hheld
          hrow hres haccount hstored
      · have hunmoved : call.step rt (run rt between minted) =
            run rt between minted := hstep.trans hsame
        obtain ⟨hbefore, res, hlookup, hstatus⟩ := hbecomes
        rw [hunmoved] at hlookup
        exact absurd hstatus (hbefore res hlookup)
  | _ =>
      have hother : ∀ client executionId authorized uuid,
          call.operation ≠ .verify client executionId authorized uuid := by
        intro client executionId authorized uuid
        rw [hoperation]
        simp
      obtain ⟨_, res, hlookup, hstatus⟩ := hbecomes
      exact absurd hstatus ((hopen.step call hother).status res hlookup)

/-! ## A verification that echoes its caller -/

/-- An executor that reports back whatever its caller declares. -/
def echoing (authorized : AuthorizedReceipt) : ExecutionClient where
  getResult _ := .ok .confirmed
  verify _ := .ok ⟨true, "0xhash", authorized⟩

theorem discrepancies_echo {rt : Runtime} {authorized : AuthorizedReceipt}
    {x : ℚ} (hamount : rt.toDecimal authorized.amount = some (.finite x)) :
    ExecutionResults.discrepancies rt authorized
      ⟨true, "0xhash", authorized⟩ = .ok [] := by
  have hread : decimalOf (rt.toDecimal authorized.amount) =
      .ok (.finite x) := decimalOf_eq_ok.mpr hamount
  have hsame : (Decimal.finite x).equals (.finite x) = true :=
    Decimal.equals_iff.mpr ⟨rfl, by simp⟩
  unfold ExecutionResults.discrepancies
  simp [hread, hsame, ExecutionResults.nameIf]

theorem getRequest_of_mem {companyId : String} {db : Database}
    {request : ExecutionRequestRecord} (hmem : request ∈ db.executionRequests)
    (hcompany : request.companyId = companyId) :
    ∃ found, ExecutionResults.getRequest companyId request.id db =
      some found := by
  cases hfound : ExecutionResults.getRequest companyId request.id db with
  | some found => exact ⟨found, rfl⟩
  | none =>
      have hnone := List.find?_eq_none.mp hfound request hmem
      exact absurd (decide_eq_true ⟨rfl, hcompany⟩) hnone

/-- Right after the mint, such a verification commits the hold. -/
theorem becomes_of_echo {rt : Runtime} (hexact : rt.Exact)
    {input : RevalidateInput} {request : ExecutionRequestRecord}
    {hold : FinancialReservation} {minted : Database}
    (h : LeavesHold rt input request hold minted) {auth : AuthContext}
    (hcompany : auth.companyId = input.companyId)
    (hrole : executorRoles.contains auth.actorRole = true)
    {authorized : AuthorizedReceipt} {x : ℚ}
    (hamount : rt.toDecimal authorized.amount = some (.finite x))
    {uuid : String}
    (hnew : receiptVerificationTable.lookup uuid minted = none) (now : ℤ) :
    Becomes hold.id minted (Call.step rt ⟨auth, now,
      .verify (echoing authorized) request.id authorized uuid⟩ minted) := by
  obtain ⟨found, hfound⟩ := getRequest_of_mem h.request_row
    (h.company.trans hcompany.symm)
  have hid : found.id = request.id :=
    (ExecutionResults.getRequest_eq_some hfound).2.1
  have hallowed : ExecutionResults.resultAllowed found.id minted = true := by
    unfold ExecutionResults.resultAllowed
    rw [hid]
    exact Option.isSome_iff_ne_none.mpr (h.linked.present _ rfl)
  have hverified : ExecutionResults.RecordsVerified rt (echoing authorized)
      auth.companyId request.id authorized now uuid minted :=
    ExecutionResults.recordsVerified_of_compared
      ⟨hfound, rfl, discrepancies_echo hamount⟩ hnew hallowed
  have hbound : ExecutionResults.BoundHold request.id hold.id
      (ExecutionResults.In auth.companyId ExecutionResults.everyStatus)
      minted := by
    refine ⟨h.linked.ledger, ⟨_, h.hold_row, rfl, ?_, ?_⟩, ?_⟩
    · exact h.hold_company.trans hcompany.symm
    · exact ExecutionResults.mem_everyStatus _
    · exact fun res hmem hres => (h.linked.known res hmem _ hres rfl).1
  have hcharged := (ExecutionResults.verified_step hbound hverified).1
    (ExecutionResults.boundSums_of_exact hexact)
    ⟨_, h.hold_row, Or.inl h.reserved⟩
  have hstep : Call.step rt ⟨auth, now,
      .verify (echoing authorized) request.id authorized uuid⟩ minted =
        (ExecutionResults.verifyAndFinalize rt (echoing authorized)
          auth.companyId request.id authorized now uuid minted).2 := by
    simp only [Call.step, Call.perform, discard_state, postVerify,
      requireRole, if_pos hrole]
    rfl
  constructor
  · intro res hres
    obtain rfl : _ = res := Option.some.inj (h.hold_row.symm.trans hres)
    rw [show (Revalidation.bindTo request.id hold).status = _ from
      h.reserved]
    simp
  · obtain ⟨res, hres, _, _, hstatus⟩ := hcharged.bound
    rw [hstep]
    exact ⟨res, hres, List.mem_singleton.mp hstatus⟩

theorem anchored_sample : Anchored (Revalidation.sampleDatabase []) := by
  refine ⟨⟨?_, ?_, ?_⟩, ?_, ?_, ?_⟩
  · simp [KeyedTable.UniqueKeys, Revalidation.sampleDatabase]
  · simp [KeyedTable.UniqueKeys, Revalidation.sampleDatabase,
      Database.empty]
  · exact fun _ hmem => absurd hmem List.not_mem_nil
  · exact fun _ hid => hid.elim
  · exact fun _ hmem => absurd hmem List.not_mem_nil
  · exact fun _ hmem => absurd hmem List.not_mem_nil

/-- The sample payment, minted. -/
theorem sample_leaves_hold :
    ∃ outcome minted request hold,
      revalidate .reference Revalidation.samplePayment Revalidation.sampleNow
          Revalidation.sampleIds (Revalidation.sampleDatabase []) =
        (.ok outcome, minted) ∧
      outcome = Revalidation.minted request hold.id ∧
      LeavesHold .reference Revalidation.samplePayment request hold minted ∧
      minted.receiptVerifications = [] := by
  have hamount : Reference.decimal? Revalidation.samplePayment.amount =
      some 10 := by
    decide
  obtain ⟨state, minted, _, _, hrun⟩ :=
    Revalidation.minted_of_plain Revalidation.sample_plain
      Revalidation.sample_ready
      (Revalidation.sample_mint ⟨rfl, rfl, rfl, rfl, rfl⟩ ⟨rfl, rfl, rfl⟩
        hamount (by norm_num))
  obtain ⟨request, hold, houtcome, hleaves⟩ :=
    leavesHold_of_minted anchored_sample hrun rfl rfl
  refine ⟨_, minted, request, hold, hrun, houtcome, hleaves, ?_⟩
  have hpreserves : Fallible.Preserves Database.receiptVerifications
      (revalidate .reference Revalidation.samplePayment
        Revalidation.sampleNow Revalidation.sampleIds) :=
    Revalidation.preserves_revalidate (fun _ _ _ => rfl) (fun _ _ => rfl)
      (fun _ _ => rfl) _ _ _ _
  have hsame := hpreserves.apply (Revalidation.sampleDatabase [])
  rw [hrun] at hsame
  exact hsame

def verifySample (authorized : AuthorizedReceipt) (requestId : String) :
    Call :=
  ⟨sampleAuth, Revalidation.sampleNow,
    .verify (echoing authorized) requestId authorized "receipt-1"⟩

theorem sample_becomes {request : ExecutionRequestRecord}
    {hold : FinancialReservation} {minted : Database}
    (h : LeavesHold .reference Revalidation.samplePayment request hold
      minted) (hreceipts : minted.receiptVerifications = [])
    {authorized : AuthorizedReceipt} (hamount : authorized.amount = "10") :
    Becomes hold.id minted
      ((verifySample authorized request.id).step .reference minted) := by
  have hread : Runtime.reference.toDecimal authorized.amount =
      some (.finite 10) := by
    rw [hamount]
    decide
  have hnew : receiptVerificationTable.lookup "receipt-1" minted = none := by
    change KeyedTable.lookup _ _ minted.receiptVerifications = none
    rw [hreceipts]
    rfl
  have hcompany : sampleAuth.companyId =
      Revalidation.samplePayment.companyId := rfl
  exact becomes_of_echo Runtime.reference_exact h hcompany (by decide) hread
    hnew Revalidation.sampleNow

/-- The payment to the shop, declared and reported as it was authorised. -/
theorem sample_commit_authorised :
    ∃ outcome minted request id,
      revalidate .reference Revalidation.samplePayment Revalidation.sampleNow
          Revalidation.sampleIds (Revalidation.sampleDatabase []) =
        (.ok outcome, minted) ∧
      outcome.executionRequest = some request ∧
      Becomes id minted ((verifySample ExecutionResults.sampleReceipt
        request.id).step .reference minted) ∧
      CommitsAuthorised .reference Revalidation.samplePayment
        ExecutionResults.sampleReceipt id minted
        ((verifySample ExecutionResults.sampleReceipt request.id).step
          .reference minted) := by
  obtain ⟨outcome, minted, request, hold, hrun, rfl, hleaves, hreceipts⟩ :=
    sample_leaves_hold
  have hamount : ExecutionResults.sampleReceipt.amount = "10" := rfl
  have hbecomes := sample_becomes hleaves hreceipts hamount
  obtain ⟨client, executionId, authorized, uuid, receipt, hoperation,
    hreceipt, hiff⟩ := commits_authorised_iff anchored_sample hrun rfl rfl
      rfl [] (verifySample ExecutionResults.sampleReceipt request.id) hbecomes
  obtain ⟨rfl, rfl, rfl, rfl⟩ := Operation.verify.inj hoperation
  obtain rfl := Except.ok.inj hreceipt
  have hread : Runtime.reference.toDecimal "10" = some (.finite 10) := by
    decide
  have hsame : SameAmount .reference "10" "10" :=
    ⟨.finite 10, by simp, hread, hread⟩
  have hstored : Runtime.reference.storeText "10" = some 10 := by
    decide
  have hsum : CommitSum .reference hold.id minted := fun _ _ =>
    Financial.storesExactly_of_exact Runtime.reference_exact _
  refine ⟨_, minted, request, hold.id, hrun, rfl, hbecomes, ?_⟩
  apply ((hiff rfl).1 hsum).mpr
  exact ⟨rfl, rfl, rfl, hsame, 10, hstored, hread⟩

/-- A caller that declares another recipient commits the hold of the payment
to the shop for a transfer to that recipient. -/
theorem attacker_commit_unauthorised :
    ∃ outcome minted request id,
      revalidate .reference Revalidation.samplePayment Revalidation.sampleNow
          Revalidation.sampleIds (Revalidation.sampleDatabase []) =
        (.ok outcome, minted) ∧
      outcome.executionRequest = some request ∧
      Becomes id minted ((verifySample ⟨"0xattacker", "USDC", "10", "base"⟩
        request.id).step .reference minted) ∧
      ¬ CommitsAuthorised .reference Revalidation.samplePayment
        ⟨"0xattacker", "USDC", "10", "base"⟩ id minted
        ((verifySample ⟨"0xattacker", "USDC", "10", "base"⟩
          request.id).step .reference minted) := by
  obtain ⟨outcome, minted, request, hold, hrun, rfl, hleaves, hreceipts⟩ :=
    sample_leaves_hold
  refine ⟨_, minted, request, hold.id, hrun, rfl,
    sample_becomes hleaves hreceipts rfl, ?_⟩
  intro hauthorised
  exact absurd hauthorised.recipient (by decide)


end Api
end Orvex
