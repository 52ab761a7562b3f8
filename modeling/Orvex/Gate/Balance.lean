import Orvex.Financial.Origins
import Orvex.Gate.BoundHold

/-!
# The ledger under the calls that settle an execution

The calls that report, reconcile and verify an execution complete at most one
reservation of its request.  Where the sums of that completion lose nothing,
the totals of every account stay the sums over its reservations.
-/

namespace Orvex
namespace ExecutionResults

open Financial (WellFormed Conserved Completion HoldSums lookupAccount
  lookupReservation findReservation)

/-! ## Runs of the three calls -/

inductive ResultCall where
  | ingestResult (companyId : String) (input : ExecutionResultInput)
      (now : ℤ) (uuid : String)
  | reconcile (client : ExecutionClient) (companyId executionId : String)
      (now : ℤ)
  | verifyAndFinalize (client : ExecutionClient)
      (companyId executionId : String) (authorized : AuthorizedReceipt)
      (now : ℤ) (uuid : String)

/-- The state that a call leaves, whether it succeeds or fails. -/
def ResultCall.step (rt : Runtime) (db : Database) :
    ResultCall → Database
  | .ingestResult companyId input now uuid =>
      (ExecutionResults.ingestResult rt companyId input now uuid db).2
  | .reconcile client companyId executionId now =>
      (ExecutionResults.reconcile rt client companyId executionId now db).2
  | .verifyAndFinalize client companyId executionId authorized now uuid =>
      (ExecutionResults.verifyAndFinalize rt client companyId executionId
        authorized now uuid db).2

def runCalls (rt : Runtime) (calls : List ResultCall) (db : Database) :
    Database :=
  calls.foldl (ResultCall.step rt) db

theorem runCalls_induction {rt : Runtime} {inv : Database → Prop}
    (hstep : ∀ call db, inv db → inv (ResultCall.step rt db call))
    {calls : List ResultCall} {db : Database} (hdb : inv db) :
    inv (runCalls rt calls db) := by
  induction calls generalizing db with
  | nil => exact hdb
  | cons call rest ih => exact ih (hstep call db hdb)

section

variable {rt : Runtime}

theorem BoundHold.step {requestId id : String}
    {known : FinancialReservation → Prop} (hlasting : Lasting known)
    (call : ResultCall) {db : Database}
    (h : BoundHold requestId id known db) :
    BoundHold requestId id known (ResultCall.step rt db call) := by
  cases call with
  | ingestResult companyId input now uuid =>
      exact keeps_bound_ingestResult hlasting companyId input now uuid db h
  | reconcile client companyId executionId now =>
      exact keeps_bound_reconcile hlasting client companyId executionId now
        db h
  | verifyAndFinalize client companyId executionId authorized now uuid =>
      exact keeps_bound_verifyAndFinalize hlasting client companyId
        executionId authorized now uuid db h

theorem BoundHold.runCalls {requestId id : String}
    {known : FinancialReservation → Prop} (hlasting : Lasting known)
    (calls : List ResultCall) {db : Database}
    (h : BoundHold requestId id known db) :
    BoundHold requestId id known (runCalls rt calls db) :=
  runCalls_induction (fun call _ hdb => hdb.step hlasting call) h

end

/-! ## Balanced ledgers -/

/-- A ledger whose totals are the sums over its reservations. -/
def Balanced (db : Database) : Prop := WellFormed db ∧ Conserved db

theorem Balanced.of_ledger {db db' : Database} (h : Balanced db)
    (hsame : SameLedger db' db) : Balanced db' := by
  refine ⟨hsame.wellFormed h.1, ?_⟩
  intro account hmem
  have hboth := h.2 account (hsame.accounts ▸ hmem)
  unfold Financial.held Financial.spent
  rw [hsame.reservations]
  exact hboth

section

variable {rt : Runtime} {kind : Completion} {companyId requestId : String}
  {db db' : Database} {now : ℤ}

theorem holdSums_of_ledger {res : FinancialReservation}
    (h : HoldSums rt kind res db) (hsame : SameLedger db' db) :
    HoldSums rt kind res db' := by
  intro row hrow
  rw [hsame.lookupAccount] at hrow
  exact h row hrow

/-- The sums that completing an open reservation of the request would write
lose nothing. -/
def BoundSums (rt : Runtime) (kind : Completion) (requestId : String)
    (db : Database) : Prop :=
  ∀ res ∈ db.financialReservations, res.executionRequestId = some requestId →
    Financial.Open res.status → HoldSums rt kind res db

theorem boundSums_of_exact (hexact : rt.Exact) :
    BoundSums rt kind requestId db :=
  fun _ _ _ _ _ _ => Financial.completionSums_of_exact hexact _ _ _

theorem findHold_eq_some {statuses : List ReservationStatus}
    {res : FinancialReservation}
    (h : findHold companyId requestId statuses db = some res) :
    res ∈ db.financialReservations ∧ res.companyId = companyId ∧
      res.executionRequestId = some requestId ∧ res.status ∈ statuses := by
  unfold findHold Table.find at h
  have hfacts := List.find?_some h
  exact ⟨List.mem_of_find?_eq_some h, of_decide_eq_true hfacts⟩

theorem balanced_of_hold {res : FinancialReservation} (h : Balanced db)
    (hmem : res ∈ db.financialReservations) (hsums : HoldSums rt kind res db)
    (companyId : String) (now : ℤ) :
    Balanced (kind.run rt companyId res.id now db).2 := by
  refine Financial.balanced_completion ?_ h.1 h.2 now
  intro found hfound
  have hid := Financial.id_of_findReservation hfound
  have hlookup := Financial.lookupReservation_of_found h.1 hfound
  have hres : lookupReservation res.id db = some res :=
    KeyedTable.lookup_of_mem h.1.reservations hmem
  rw [hid, hres, Option.some.injEq] at hlookup
  rw [← hlookup]
  exact hsums

/-- Completing what a search finds, in a state with the same ledger. -/
theorem balanced_of_found (h : Balanced db)
    (hsums : BoundSums rt kind requestId db) {state : Database}
    (hsame : SameLedger state db) {statuses : List ReservationStatus}
    (hopen : ∀ status ∈ statuses, Financial.Open status)
    {res : FinancialReservation}
    (hfind : findHold companyId requestId statuses state = some res)
    (now : ℤ) : Balanced (kind.run rt companyId res.id now state).2 := by
  obtain ⟨hmem, _, hbound, hstatus⟩ := findHold_eq_some hfind
  have hold : HoldSums rt kind res db :=
    hsums res (hsame.reservations ▸ hmem) hbound (hopen _ hstatus)
  exact balanced_of_hold (h.of_ledger hsame) hmem
    (holdSums_of_ledger hold hsame) companyId now

theorem brings_finish (h : Balanced db)
    (hsums : BoundSums rt kind requestId db)
    {statuses : List ReservationStatus}
    (hopen : ∀ status ∈ statuses, Financial.Open status) :
    Fallible.Brings (fun state => SameLedger state db) Balanced
      (do
        let hold ← Fallible.query (findHold companyId requestId statuses)
        finish hold (fun id => kind.run rt companyId id now)) := by
  intro state hsame
  rw [Fallible.query_bind]
  cases hfind : findHold companyId requestId statuses state with
  | none => exact h.of_ledger hsame
  | some res =>
      have hrun : (finish (some res)
          (fun id => kind.run rt companyId id now) state).2 =
            (kind.run rt companyId res.id now state).2 :=
        Fallible.bind_pure_state _ _ _
      rw [hrun]
      exact balanced_of_found h hsums hsame hopen hfind now

end

/-! ## The calls -/

section

variable {rt : Runtime} {companyId executionId uuid : String} {now : ℤ}
  {db : Database}

theorem getRequest_of_require {message : String}
    {request : ExecutionRequestRecord}
    (h : requireRequest message companyId executionId db = .ok request) :
    getRequest companyId executionId db = some request := by
  unfold requireRequest at h
  cases hfound : getRequest companyId executionId db with
  | none => simp [hfound] at h
  | some found =>
      rw [hfound, Except.ok.injEq] at h
      rw [h]

theorem getRequest_eq_some {request : ExecutionRequestRecord}
    (h : getRequest companyId executionId db = some request) :
    request ∈ db.executionRequests ∧ request.id = executionId ∧
      request.companyId = companyId := by
  unfold getRequest Table.find at h
  have hfacts := List.find?_some h
  exact ⟨List.mem_of_find?_eq_some h, of_decide_eq_true hfacts⟩

/-- The sums that the completion in a call would write lose nothing. -/
def ResultCall.Sums (rt : Runtime) : ResultCall → Database → Prop
  | .ingestResult _ input _ _, db =>
      input.status = .failed → BoundSums rt .release input.executionId db
  | .reconcile client _ executionId _, db =>
      client.getResult executionId = .ok .failed →
        BoundSums rt .reconcileRelease executionId db
  | .verifyAndFinalize _ _ executionId _ _ _, db =>
      BoundSums rt .commit executionId db

theorem keeps_same_setStatus (rid : String)
    (status : ExecutionRequestStatus) :
    Fallible.Keeps (fun state => SameLedger state db)
      (setStatus rid status) :=
  Table.keeps_update (fun _ h => h)

theorem open_of_mem_held {statuses : List ReservationStatus}
    (h : statuses ⊆ [.reserved, .unknown]) :
    ∀ status ∈ statuses, Financial.Open status := by
  intro status hstatus
  have hheld := h hstatus
  simp only [List.mem_cons, List.not_mem_nil, or_false] at hheld
  exact hheld

theorem balanced_ingestResult {input : ExecutionResultInput}
    (h : Balanced db)
    (hsums : input.status = .failed →
      BoundSums rt .release input.executionId db) :
    Balanced (ingestResult rt companyId input now uuid db).2 := by
  have hweak : ∀ state, SameLedger state db → Balanced state :=
    fun _ hsame => h.of_ledger hsame
  have hsame : SameLedger db db := rfl
  unfold ingestResult
  split
  · exact h
  rcases reading_bind_cases (requireRequest
      "Execution result references an unknown execution_id." companyId
      input.executionId) _ db with ⟨_, _, hend⟩ | ⟨request, hrequest, hnext⟩
  · rw [hend]
    exact h
  rw [hnext]
  have hid : request.id = input.executionId :=
    (getRequest_eq_some (getRequest_of_require hrequest)).2.1
  split
  · exact h
  have hcreate : Fallible.Keeps (fun state => SameLedger state db)
      (createResult rt input request.id uuid) :=
    keeps_createResult (fun _ _ hstate => hstate)
  refine hcreate.bind_brings hweak (fun record => ?_) db hsame
  refine (keeps_same_setStatus request.id _).bind_brings hweak
    (fun _ => ?_)
  rw [hid]
  by_cases hfailed : input.status = .failed
  · have hrelease := @brings_finish rt .release companyId input.executionId
      db now h (hsums hfailed) [.reserved]
      (open_of_mem_held (by decide))
    simp only [hfailed, reduceCtorEq, if_false, if_true]
    exact hrelease.bind_keeps (fun _ => Fallible.keeps_pure _)
  · have hmark : Fallible.Keeps Balanced
        (holdReservation companyId input.executionId) :=
      Fallible.Keeps.bind (Fallible.keeps_query _)
        (keeps_finish (fun id =>
          Financial.keeps_balanced_markUnknown rt companyId id))
    have hbrings : Fallible.Brings (fun state => SameLedger state db)
        Balanced (holdReservation companyId input.executionId) :=
      fun state hstate => hmark state (hweak state hstate)
    simp only [hfailed, if_false]
    split
    · exact hbrings.bind_keeps (fun _ => Fallible.keeps_pure _)
    · exact (Fallible.keeps_pure _).brings hweak

theorem balanced_reconcile {client : ExecutionClient} (h : Balanced db)
    (hsums : client.getResult executionId = .ok .failed →
      BoundSums rt .reconcileRelease executionId db) :
    Balanced (reconcile rt client companyId executionId now db).2 := by
  have hweak : ∀ state, SameLedger state db → Balanced state :=
    fun _ hsame => h.of_ledger hsame
  have hsame : SameLedger db db := rfl
  unfold reconcile
  rcases reading_bind_cases (requireRequest
      "Unknown execution_id for reconciliation." companyId executionId) _ db
    with ⟨_, _, hend⟩ | ⟨request, hrequest, hnext⟩
  · rw [hend]
    exact h
  rw [hnext]
  have hid : request.id = executionId :=
    (getRequest_eq_some (getRequest_of_require hrequest)).2.1
  rcases reading_bind_cases (fun _ => client.getResult executionId) _ db
    with ⟨_, _, hend⟩ | ⟨status, hanswer, hnext⟩
  · rw [hend]
    exact h
  rw [hnext, hid]
  have hstatus := @keeps_same_setStatus db executionId
  cases status with
  | confirmed =>
      exact hweak _ ((hstatus .confirmed).bind
        (fun _ => Fallible.keeps_pure _) db hsame)
  | failed =>
      have hrelease := @brings_finish rt .reconcileRelease companyId
        executionId db now h (hsums hanswer) [.reserved, .unknown]
        (open_of_mem_held (fun _ hmem => hmem))
      refine (hstatus .failed).bind_brings hweak (fun _ => ?_) db hsame
      exact hrelease.bind_keeps (fun _ => Fallible.keeps_pure _)
  | pending => exact h
  | unknown => exact h

theorem balanced_verifyAndFinalize {client : ExecutionClient}
    {authorized : AuthorizedReceipt} (h : Balanced db)
    (hsums : BoundSums rt .commit executionId db) :
    Balanced (verifyAndFinalize rt client companyId executionId authorized
      now uuid db).2 := by
  have hweak : ∀ state, SameLedger state db → Balanced state :=
    fun _ hsame => h.of_ledger hsame
  have hsame : SameLedger db db := rfl
  unfold verifyAndFinalize
  rcases reading_bind_cases (requireRequest
      "Unknown execution_id for verification." companyId executionId) _ db
    with ⟨_, _, hend⟩ | ⟨request, hrequest, hnext⟩
  · rw [hend]
    exact h
  rw [hnext]
  have hid : request.id = executionId :=
    (getRequest_eq_some (getRequest_of_require hrequest)).2.1
  rw [hid]
  refine (keeps_reading _).bind_brings hweak (fun receipt => ?_) db hsame
  refine (keeps_reading _).bind_brings hweak (fun found => ?_)
  refine (Table.keeps_create (fun _ hstate _ => hstate)).bind_brings hweak
    (fun verification => ?_)
  split
  · intro state hstate
    rw [Fallible.query_bind]
    cases hfind : findHold companyId executionId [.reserved] state with
    | none => exact hweak state hstate
    | some res =>
        have hrun := balanced_of_found h hsums hstate
          (open_of_mem_held (by decide)) hfind now
        exact (congrArg Balanced
          (Fallible.bind_pure_state _ _ state)).mpr hrun
  · exact (Fallible.keeps_pure _).brings hweak

theorem Balanced.step (call : ResultCall) {db : Database}
    (hsums : call.Sums rt db) (h : Balanced db) :
    Balanced (ResultCall.step rt db call) := by
  cases call with
  | ingestResult companyId input now uuid =>
      exact balanced_ingestResult h hsums
  | reconcile client companyId executionId now =>
      exact balanced_reconcile h hsums
  | verifyAndFinalize client companyId executionId authorized now uuid =>
      exact balanced_verifyAndFinalize h hsums

/-- No sum that a call of the run writes is rounded. -/
def RunSums (rt : Runtime) (calls : List ResultCall) (db : Database) :
    Prop :=
  Along (ResultCall.step rt) (ResultCall.Sums rt) calls db

theorem Balanced.runCalls {calls : List ResultCall}
    (hsums : RunSums rt calls db) (h : Balanced db) :
    Balanced (runCalls rt calls db) :=
  hsums.induction (fun call _ hcall hdb => hdb.step call hcall) h

end

end ExecutionResults
end Orvex
