import Orvex.Approval.Calls
import Orvex.Concurrency.Undisturbed
import Orvex.Core.Reference

/-!
# The life of an approval request

A request is pending until a call gives it its final status.  Where no call
writes a status that another call has changed in between, and nobody decides
a request that is pending and has expired, the first call to give a status is
the only one.
-/

namespace Orvex
namespace Approvals

open ReadCommitted

def statusOf (id : String) (db : Database) : Option ApprovalRequestStatus :=
  (approvalRequestTable.lookup id db).map ApprovalRequest.status

def resultsOf (id : String) (db : Database) : List ApprovalResult :=
  db.approvalResults.filter (fun result => result.approvalRequestId = id)

/-- The call may give the request this status, with these results: before it
expires only a permitted approver with its context hash approves it, and only
after that it expires. -/
inductive Gives (request : ApprovalRequest) :
    ApprovalCall → ApprovalRequestStatus → List ApprovalResult → Prop
  | approved {approver : Approver} {now : ℤ} {uuid : String}
      (hahead : now < request.expiresAt)
      (hrole : approverRefusal request approver = none) :
      Gives request
        (.approve request.companyId request.id approver request.contextHash
          now uuid) .approved
        [resultOf request approver .approved request.contextHash uuid]
  | denied {approver : Approver} {now : ℤ} {uuid : String}
      (hahead : now < request.expiresAt)
      (hrole : approverRefusal request approver = none) :
      Gives request
        (.deny request.companyId request.id approver now uuid) .denied
        [resultOf request approver .denied request.contextHash uuid]
  | cancelled {now : ℤ} (hahead : now < request.expiresAt) :
      Gives request (.cancel request.companyId request.id now) .cancelled []
  | expired {call : ApprovalCall} (hlate : request.expiresAt ≤ call.now) :
      Gives request call .expired []

theorem Gives.final {request : ApprovalRequest} {call : ApprovalCall}
    {status : ApprovalRequestStatus} {results : List ApprovalResult}
    (h : Gives request call status results) : status ≠ .pending := by
  cases h <;> decide

theorem Gives.one_result {request : ApprovalRequest} {call : ApprovalCall}
    {status : ApprovalRequestStatus} {results : List ApprovalResult}
    (h : Gives request call status results) : results.length ≤ 1 := by
  cases h with
  | approved => exact le_refl 1
  | denied => exact le_refl 1
  | cancelled => exact Nat.zero_le 1
  | expired => exact Nat.zero_le 1

/-- The call is an attempt to decide or to cancel the request. -/
def ApprovalCall.Attempts (request : ApprovalRequest) : ApprovalCall → Prop
  | .approve companyId approvalId _ _ _ _ =>
      companyId = request.companyId ∧ approvalId = request.id
  | .deny companyId approvalId _ _ _ =>
      companyId = request.companyId ∧ approvalId = request.id
  | .cancel companyId approvalId _ =>
      companyId = request.companyId ∧ approvalId = request.id
  | .expireStale _ _ => False

/-- The call is an approval or a denial that comes too late. -/
def ApprovalCall.DecidesLate (request : ApprovalRequest) :
    ApprovalCall → Prop
  | .approve companyId approvalId _ _ now _ =>
      companyId = request.companyId ∧ approvalId = request.id ∧
        request.expiresAt ≤ now
  | .deny companyId approvalId _ now _ =>
      companyId = request.companyId ∧ approvalId = request.id ∧
        request.expiresAt ≤ now
  | .cancel _ _ _ => False
  | .expireStale _ _ => False

section

variable {ι : Type} (calls : ι → ApprovalCall) (request : ApprovalRequest)

/-- The request is pending and has no result, or a call has ended it. -/
structure Consistent (db : Database) : Prop where
  keys : KeyedTable.UniqueKeys ApprovalRequest.id db.approvalRequests
  row : ∃ status, approvalRequestTable.lookup request.id db =
      some (setStatus status request) ∧
    (status = .pending ∧ resultsOf request.id db = [] ∨
      ∃ i, Gives request (calls i) status (resultsOf request.id db))

/-- A status that is not PENDING stays. -/
def Progress (db db' : Database) : Prop :=
  statusOf request.id db' = statusOf request.id db ∨
    statusOf request.id db = some .pending ∧
      statusOf request.id db' ≠ some .pending

/-- No approval or denial of a pending request comes too late. -/
def DecidedInTime (i : ι) (db : Database) : Prop :=
  (calls i).DecidesLate request →
    statusOf request.id db ≠ some .pending

/-- A late attempt that has ended leaves no pending request. -/
def LateEnds (i : ι) (answer : ApprovalAnswer)
    (status : Option ApprovalRequestStatus) : Prop :=
  (calls i).Attempts request → request.expiresAt ≤ (calls i).now →
    answer ≠ .lost → status ≠ some .pending

end

/-! ## Rows and results -/

section

variable {request : ApprovalRequest} {db : Database}

theorem keepsKey_setStatus (status : ApprovalRequestStatus) :
    KeyedTable.KeepsKey ApprovalRequest.id (setStatus status) :=
  fun _ => rfl

theorem lookup_setStatus (id other : String)
    (status : ApprovalRequestStatus) (db : Database) :
    approvalRequestTable.lookup other
        (approvalRequestTable.modify id (setStatus status) db) =
      if other = id then
        (approvalRequestTable.lookup id db).map (setStatus status)
      else approvalRequestTable.lookup other db := by
  change KeyedTable.lookup ApprovalRequest.id other
    (KeyedTable.modify ApprovalRequest.id id (setStatus status)
      db.approvalRequests) = _
  rw [KeyedTable.lookup_modify (keepsKey_setStatus status)]
  rfl

theorem resultsOf_insert (id : String) (result : ApprovalResult)
    (db : Database) :
    resultsOf id (approvalResultTable.insert result db) =
      if result.approvalRequestId = id then resultsOf id db ++ [result]
      else resultsOf id db := by
  unfold resultsOf
  change (db.approvalResults ++ [result]).filter _ = _
  rw [List.filter_append]
  by_cases hid : result.approvalRequestId = id <;> simp [hid]

/-- With unique ids a request is found by its id. -/
theorem getRequest_eq_some
    (hkeys : KeyedTable.UniqueKeys ApprovalRequest.id db.approvalRequests)
    {companyId approvalId : String} {row : ApprovalRequest} :
    getRequest companyId approvalId db = some row ↔
      approvalRequestTable.lookup approvalId db = some row ∧
        row.companyId = companyId := by
  constructor
  · intro h
    have hmem := List.mem_of_find?_eq_some h
    have hfound := List.find?_some h
    rw [decide_eq_true_eq] at hfound
    obtain ⟨hid, hcompany⟩ := hfound
    refine ⟨?_, hcompany⟩
    rw [← hid]
    exact KeyedTable.lookup_of_mem hkeys hmem
  · rintro ⟨hrow, hcompany⟩
    have hid : row.id = approvalId := KeyedTable.key_of_lookup hrow
    have hmem : row ∈ db.approvalRequests := KeyedTable.mem_of_lookup hrow
    cases hfound : getRequest companyId approvalId db with
    | none =>
        have hnone := List.find?_eq_none.mp hfound row hmem
        exact absurd (decide_eq_true ⟨hid, hcompany⟩) hnone
    | some other =>
        have hother := List.find?_some hfound
        rw [decide_eq_true_eq] at hother
        have hlookup := KeyedTable.lookup_of_mem hkeys
          (List.mem_of_find?_eq_some hfound)
        rw [hother.1] at hlookup
        exact hlookup.symm.trans hrow

end

/-! ## What a call loads -/

/-- What was found says what it is. -/
def Loaded.Describes (companyId approvalId : String) (now : ℤ)
    (db : Database) : Loaded → Prop
  | .refused _ => ∀ row, getRequest companyId approvalId db = some row →
      row.status ≠ .pending
  | .expired row _ => getRequest companyId approvalId db = some row ∧
      row.status = .pending ∧ row.expiresAt ≤ now
  | .pending row => getRequest companyId approvalId db = some row ∧
      row.status = .pending ∧ now < row.expiresAt

theorem load_describes (ended expired : ApprovalRequest → Failure)
    (companyId approvalId : String) (now : ℤ) (db : Database) :
    (load ended expired companyId approvalId now db).Describes companyId
      approvalId now db := by
  unfold load
  cases hfound : getRequest companyId approvalId db with
  | none =>
      intro row hrow
      rw [hfound] at hrow
      cases hrow
  | some request =>
      simp only
      by_cases hstatus : request.status ≠ .pending
      · rw [if_pos hstatus]
        intro row hrow
        rw [hfound, Option.some.injEq] at hrow
        rw [← hrow]
        exact hstatus
      · rw [if_neg hstatus]
        by_cases hexpired : request.expiresAt ≤ now
        · rw [if_pos hexpired]
          exact ⟨hfound, not_not.mp hstatus, hexpired⟩
        · rw [if_neg hexpired]
          exact ⟨hfound, not_not.mp hstatus, not_le.mp hexpired⟩

/-! ## One commit -/

section

variable {ι : Type} {calls : ι → ApprovalCall} {request : ApprovalRequest}
  {db : Database}

theorem Consistent.statusOf_cases (h : Consistent calls request db) :
    ∃ status, approvalRequestTable.lookup request.id db =
        some (setStatus status request) ∧
      statusOf request.id db = some status ∧
      (status = .pending ∧ resultsOf request.id db = [] ∨
        ∃ i, Gives request (calls i) status (resultsOf request.id db)) := by
  obtain ⟨status, hrow, houtcome⟩ := h.row
  refine ⟨status, hrow, ?_, houtcome⟩
  unfold statusOf
  rw [hrow]
  rfl

/-- The row of a request that is pending. -/
theorem Consistent.pending (hpending : request.status = .pending)
    (h : Consistent calls request db)
    (hstatus : statusOf request.id db = some .pending) :
    approvalRequestTable.lookup request.id db = some request ∧
      resultsOf request.id db = [] := by
  obtain ⟨status, hrow, hfound, houtcome⟩ := h.statusOf_cases
  rw [hfound, Option.some.injEq] at hstatus
  subst hstatus
  have hsame : setStatus .pending request = request := by
    rw [← hpending]
    rfl
  rw [hsame] at hrow
  refine ⟨hrow, ?_⟩
  rcases houtcome with ⟨_, hresults⟩ | ⟨i, hgives⟩
  · exact hresults
  · exact absurd rfl hgives.final

/-- A row that the calls find under the id of the request is the request. -/
theorem Consistent.found (hpending : request.status = .pending)
    (h : Consistent calls request db) {companyId approvalId : String}
    {row : ApprovalRequest}
    (hfound : getRequest companyId approvalId db = some row)
    (hstatus : row.status = .pending) (hid : row.id = request.id) :
    row = request ∧ companyId = request.companyId ∧
      approvalId = request.id ∧ statusOf request.id db = some .pending := by
  obtain ⟨hrow, hcompany⟩ := (getRequest_eq_some h.keys).mp hfound
  have happroval : row.id = approvalId := KeyedTable.key_of_lookup hrow
  have hown : statusOf request.id db = some .pending := by
    unfold statusOf
    rw [← hid, happroval, hrow, Option.map_some, hstatus]
  have hsame : row = request := by
    have hrequest := (h.pending hpending hown).1
    rw [← hid, happroval, hrow] at hrequest
    exact Option.some.inj hrequest
  refine ⟨hsame, ?_, happroval.symm.trans hid, hown⟩
  rw [← hcompany, hsame]

theorem Consistent.setStatus_other (h : Consistent calls request db)
    {id : String} (hne : request.id ≠ id) (status : ApprovalRequestStatus) :
    Consistent calls request
      (approvalRequestTable.modify id (setStatus status) db) := by
  obtain ⟨current, hrow, houtcome⟩ := h.row
  refine ⟨h.keys.modify (keepsKey_setStatus status) id, current, ?_,
    houtcome⟩
  rw [lookup_setStatus, if_neg hne]
  exact hrow

theorem statusOf_setStatus_other {id : String} (hne : request.id ≠ id)
    (status : ApprovalRequestStatus) :
    statusOf request.id
        (approvalRequestTable.modify id (setStatus status) db) =
      statusOf request.id db := by
  unfold statusOf
  rw [lookup_setStatus, if_neg hne]

theorem Consistent.insert_other (h : Consistent calls request db)
    {result : ApprovalResult} (hne : result.approvalRequestId ≠ request.id) :
    Consistent calls request (approvalResultTable.insert result db) := by
  obtain ⟨current, hrow, houtcome⟩ := h.row
  refine ⟨h.keys, current, hrow, ?_⟩
  rw [resultsOf_insert, if_neg hne]
  exact houtcome

/-- A call ends the pending request. -/
theorem Consistent.ends (hpending : request.status = .pending)
    (h : Consistent calls request db)
    (hstatus : statusOf request.id db = some .pending) {i : ι}
    {status : ApprovalRequestStatus}
    (hgives : Gives request (calls i) status []) :
    Consistent calls request
        (approvalRequestTable.modify request.id (setStatus status) db) ∧
      statusOf request.id
          (approvalRequestTable.modify request.id (setStatus status) db) =
        some status := by
  obtain ⟨hrow, hresults⟩ := h.pending hpending hstatus
  have hafter : approvalRequestTable.lookup request.id
      (approvalRequestTable.modify request.id (setStatus status) db) =
        some (setStatus status request) := by
    rw [lookup_setStatus, if_pos rfl, hrow]
    rfl
  refine ⟨⟨h.keys.modify (keepsKey_setStatus status) _, status, hafter,
    Or.inr ⟨i, ?_⟩⟩, ?_⟩
  · have hsame : resultsOf request.id
        (approvalRequestTable.modify request.id (setStatus status) db) =
          [] := hresults
    rw [hsame]
    exact hgives
  · unfold statusOf
    rw [hafter]
    rfl

/-- A call decides the pending request and records its result. -/
theorem Consistent.decides (hpending : request.status = .pending)
    (h : Consistent calls request db)
    (hstatus : statusOf request.id db = some .pending) {i : ι}
    {status : ApprovalRequestStatus} {result : ApprovalResult}
    (hresult : result.approvalRequestId = request.id)
    (hgives : Gives request (calls i) status [result]) :
    Consistent calls request (approvalResultTable.insert result
        (approvalRequestTable.modify request.id (setStatus status) db)) ∧
      statusOf request.id (approvalResultTable.insert result
          (approvalRequestTable.modify request.id (setStatus status) db)) =
        some status := by
  obtain ⟨hrow, hresults⟩ := h.pending hpending hstatus
  have hafter : approvalRequestTable.lookup request.id
      (approvalRequestTable.modify request.id (setStatus status) db) =
        some (setStatus status request) := by
    rw [lookup_setStatus, if_pos rfl, hrow]
    rfl
  refine ⟨⟨h.keys.modify (keepsKey_setStatus status) _, status, hafter,
    Or.inr ⟨i, ?_⟩⟩, ?_⟩
  · have hnone : resultsOf request.id
        (approvalRequestTable.modify request.id (setStatus status) db) =
          [] := hresults
    rw [resultsOf_insert, if_pos hresult, hnone, List.nil_append]
    exact hgives
  · have hsame : statusOf request.id (approvalResultTable.insert result
        (approvalRequestTable.modify request.id (setStatus status) db)) =
        (approvalRequestTable.lookup request.id
          (approvalRequestTable.modify request.id (setStatus status)
            db)).map ApprovalRequest.status := rfl
    rw [hsame, hafter]
    rfl

theorem progress_of_pending {db' : Database} {status : ApprovalRequestStatus}
    (hbefore : statusOf request.id db = some .pending)
    (hafter : statusOf request.id db' = some status)
    (hfinal : status ≠ .pending) : Progress request db db' := by
  refine Or.inr ⟨hbefore, ?_⟩
  rw [hafter, ne_eq, Option.some.injEq]
  exact hfinal

end

/-! ## Every call is safe -/

section

variable {ι : Type} {calls : ι → ApprovalCall} {request : ApprovalRequest}

/-- What the calls keep of the request while its status is the one they
observe. -/
abbrev SafeCall (calls : ι → ApprovalCall) (request : ApprovalRequest)
    (i : ι) (script : ApprovalScript) (pending : List (Write Database RowKey))
    (status : Option ApprovalRequestStatus) : Prop :=
  script.Safe (Consistent calls request) (Progress request)
    (DecidedInTime calls request i) (statusOf request.id)
    (LateEnds calls request i) pending status

/-- What a decision of call `i` needs of its checks and its result. -/
structure Decision (calls : ι → ApprovalCall) (request : ApprovalRequest)
    (i : ι) (companyId approvalId : String) (now : ℤ)
    (check : ApprovalRequest → Option Failure)
    (status : ApprovalRequestStatus)
    (outcome : ApprovalRequest → ApprovalResult) : Prop where
  final : status ≠ .pending
  now_eq : (calls i).now = now
  attempts : (calls i).Attempts request →
    companyId = request.companyId ∧ approvalId = request.id
  decides : companyId = request.companyId → approvalId = request.id →
    request.expiresAt ≤ now → (calls i).DecidesLate request
  gives : companyId = request.companyId → approvalId = request.id →
    now < request.expiresAt → check request = none →
      Gives request (calls i) status [outcome request]
  result : ∀ row, (outcome row).approvalRequestId = row.id

section

variable {i : ι} {companyId approvalId : String} {now : ℤ}
  {check : ApprovalRequest → Option Failure}
  {status : ApprovalRequestStatus}
  {outcome : ApprovalRequest → ApprovalResult}

/-- A request that is found to be no longer pending is not pending. -/
theorem lateEnds_of_refused {tables : Database}
    (hconsistent : Consistent calls request tables)
    (hattempts : (calls i).Attempts request →
      companyId = request.companyId ∧ approvalId = request.id)
    (hrefused : ∀ row, getRequest companyId approvalId tables = some row →
      row.status ≠ .pending) (answer : ApprovalAnswer) :
    LateEnds calls request i answer (statusOf request.id tables) := by
  intro hattempt _ _ hstatus
  obtain ⟨hcompany, hid⟩ := hattempts hattempt
  obtain ⟨current, hrow, hfound, _⟩ := hconsistent.statusOf_cases
  rw [hstatus, Option.some.injEq] at hfound
  have hget : getRequest companyId approvalId tables =
      some (setStatus current request) := by
    rw [getRequest_eq_some hconsistent.keys, hid]
    exact ⟨hrow, hcompany.symm⟩
  exact hrefused _ hget hfound.symm

/-- A request that has not expired is not late. -/
theorem lateEnds_of_ahead (hnow : (calls i).now = now)
    (hahead : (calls i).Attempts request → now < request.expiresAt)
    (answer : ApprovalAnswer) (status : Option ApprovalRequestStatus) :
    LateEnds calls request i answer status := by
  intro hattempt hlate
  rw [hnow] at hlate
  exact absurd (hahead hattempt) (not_lt.mpr hlate)

/-- The commit of a decision. -/
theorem Decision.commits
    (h : Decision calls request i companyId approvalId now check status
      outcome)
    (hpending : request.status = .pending) {seen tables : Database}
    {row : ApprovalRequest} (hseen : Consistent calls request seen)
    (hfound : getRequest companyId approvalId seen = some row)
    (hstatus : row.status = .pending) (hahead : now < row.expiresAt)
    (hcheck : check row = none) (htables : Consistent calls request tables)
    (hsame : statusOf request.id tables = statusOf request.id seen) :
    Consistent calls request (approvalResultTable.insert (outcome row)
        (approvalRequestTable.modify row.id (setStatus status) tables)) ∧
      Progress request tables (approvalResultTable.insert (outcome row)
        (approvalRequestTable.modify row.id (setStatus status) tables)) := by
  by_cases hid : row.id = request.id
  · obtain ⟨rfl, hcompany, happroval, hown⟩ :=
      hseen.found hpending hfound hstatus hid
    rw [hown] at hsame
    obtain ⟨hafter, hgiven⟩ := htables.decides hpending hsame (h.result row)
      (h.gives hcompany happroval hahead hcheck)
    exact ⟨hafter, progress_of_pending hsame hgiven h.final⟩
  · have hne : (outcome row).approvalRequestId ≠ request.id := by
      rw [h.result]
      exact hid
    refine ⟨(htables.setStatus_other (Ne.symm hid) status).insert_other hne,
      Or.inl ?_⟩
    exact statusOf_setStatus_other (Ne.symm hid) status

/-- The row that an attempt on the request finds. -/
theorem Consistent.found_of_attempt (hpending : request.status = .pending)
    {seen : Database} (h : Consistent calls request seen)
    (happroval : approvalId = request.id) {row : ApprovalRequest}
    (hfound : getRequest companyId approvalId seen = some row)
    (hstatus : row.status = .pending) : row = request := by
  have hid : row.id = request.id := by
    rw [← happroval]
    exact KeyedTable.key_of_lookup
      ((getRequest_eq_some h.keys).mp hfound).1
  exact (h.found hpending hfound hstatus hid).1

theorem Decision.safe
    (h : Decision calls request i companyId approvalId now check status
      outcome)
    (hpending : request.status = .pending) {seen : Database}
    (hseen : Consistent calls request seen)
    (hok : DecidedInTime calls request i seen) {loaded : Loaded}
    (hloaded : loaded.Describes companyId approvalId now seen) :
    SafeCall calls request i (deciding check status outcome loaded) []
      (statusOf request.id seen) := by
  cases loaded with
  | refused failure =>
      exact lateEnds_of_refused hseen h.attempts hloaded _
  | expired row failure =>
      obtain ⟨hfound, hstatus, hlate⟩ := hloaded
      have hends : ∀ answer, LateEnds calls request i answer
          (statusOf request.id seen) := by
        intro answer hattempt _ _
        obtain ⟨hcompany, happroval⟩ := h.attempts hattempt
        rw [hseen.found_of_attempt hpending happroval hfound hstatus] at hlate
        exact hok (h.decides hcompany happroval hlate)
      intro tables _ _ _
      exact ⟨fun _ _ => hends _, fun _ => hends _⟩
  | pending row =>
      obtain ⟨hfound, hstatus, hahead⟩ := hloaded
      have hends : ∀ answer current,
          LateEnds calls request i answer current := by
        refine lateEnds_of_ahead h.now_eq ?_
        intro hattempt
        obtain ⟨_, happroval⟩ := h.attempts hattempt
        rw [hseen.found_of_attempt hpending happroval hfound hstatus]
          at hahead
        exact hahead
      cases hcheck : check row with
      | some refusal =>
          simp only [deciding, hcheck]
          exact hends _ _
      | none =>
          simp only [deciding, hcheck]
          intro tables _ _ _
          refine ⟨?_, fun _ => hends _ _⟩
          intro own hown
          obtain ⟨_, _, rfl⟩ := Option.map_eq_some_iff.mp hown
          intro tables' _ _ _
          refine ⟨?_, fun _ => hends _ _⟩
          intro recorded hrecorded
          obtain ⟨_, hwrite⟩ := Option.ite_none_right_eq_some.mp hrecorded
          obtain rfl := Option.some.inj hwrite
          intro final hfinal _ hsame
          obtain ⟨hkept, hmoved⟩ := h.commits hpending hseen hfound hstatus
            hahead hcheck hfinal hsame
          exact ⟨hkept, hmoved, hends _ _⟩

/-- The commit of a single write. -/
theorem commits_single (hpending : request.status = .pending)
    {seen tables : Database} {row : ApprovalRequest}
    (hseen : Consistent calls request seen)
    (hfound : getRequest companyId approvalId seen = some row)
    (hstatus : row.status = .pending)
    (hgives : row = request → companyId = request.companyId →
      approvalId = request.id → Gives request (calls i) status [])
    (htables : Consistent calls request tables)
    (hsame : statusOf request.id tables = statusOf request.id seen) :
    Consistent calls request
        (approvalRequestTable.modify row.id (setStatus status) tables) ∧
      Progress request tables
        (approvalRequestTable.modify row.id (setStatus status) tables) ∧
      (approvalId = request.id → statusOf request.id
        (approvalRequestTable.modify row.id (setStatus status) tables) =
          some status) := by
  have hrow : row.id = approvalId := KeyedTable.key_of_lookup
    ((getRequest_eq_some hseen.keys).mp hfound).1
  by_cases hid : row.id = request.id
  · obtain ⟨heq, hcompany, happroval, hcurrent⟩ :=
      hseen.found hpending hfound hstatus hid
    have hgiven := hgives heq hcompany happroval
    rw [hcurrent] at hsame
    rw [hid]
    obtain ⟨hkept, hafter⟩ := htables.ends hpending hsame hgiven
    exact ⟨hkept, progress_of_pending hsame hafter hgiven.final,
      fun _ => hafter⟩
  · refine ⟨htables.setStatus_other (Ne.symm hid) status,
      Or.inl (statusOf_setStatus_other (Ne.symm hid) status), ?_⟩
    intro happroval
    exact absurd (hrow.trans happroval) hid

/-- A write of one status outside a transaction. -/
theorem safe_single (hpending : request.status = .pending) {seen : Database}
    {row : ApprovalRequest} (hseen : Consistent calls request seen)
    (hfound : getRequest companyId approvalId seen = some row)
    (hstatus : row.status = .pending)
    (hgives : row = request → companyId = request.companyId →
      approvalId = request.id → Gives request (calls i) status [])
    {next : Database → ApprovalScript} {failed : ApprovalScript}
    (hnext : ∀ db after, (approvalId = request.id → after = some status) →
      SafeCall calls request i (next db) [] after)
    (hfailed : approvalId ≠ request.id →
      SafeCall calls request i failed [] (statusOf request.id seen)) :
    SafeCall calls request i
      (.single (planStatus row.id status) next failed) []
      (statusOf request.id seen) := by
  have hrow : row.id = approvalId := KeyedTable.key_of_lookup
    ((getRequest_eq_some hseen.keys).mp hfound).1
  intro tables htables _ _
  constructor
  · intro own hown
    obtain ⟨_, _, rfl⟩ := Option.map_eq_some_iff.mp hown
    intro final hfinal _ hsame
    obtain ⟨hkept, hmoved, hafter⟩ := commits_single hpending hseen hfound
      hstatus hgives hfinal hsame
    exact ⟨hkept, hmoved, hnext _ _ hafter⟩
  · intro hnone
    apply hfailed
    intro happroval
    obtain ⟨current, hcurrent, _⟩ := htables.row
    rw [overlay_nil] at hnone
    have hmissing := Option.map_eq_none_iff.mp hnone
    rw [hrow, happroval, hcurrent] at hmissing
    cases hmissing

theorem safe_cancelling (hpending : request.status = .pending)
    (hcall : calls i = .cancel companyId approvalId now) {seen : Database}
    (hseen : Consistent calls request seen) {loaded : Loaded}
    (hloaded : loaded.Describes companyId approvalId now seen) :
    SafeCall calls request i (cancelling loaded) []
      (statusOf request.id seen) := by
  have hattempts : (calls i).Attempts request →
      companyId = request.companyId ∧ approvalId = request.id := by
    rw [hcall]
    exact id
  have hother : approvalId ≠ request.id → ∀ answer current,
      LateEnds calls request i answer current := by
    intro hne answer current hattempt
    exact absurd (hattempts hattempt).2 hne
  have hended : ∀ status : ApprovalRequestStatus, status ≠ .pending →
      ∀ answer after, (approvalId = request.id → after = some status) →
        LateEnds calls request i answer after := by
    intro status hfinal answer after hafter hattempt _ _
    rw [hafter (hattempts hattempt).2, ne_eq, Option.some.injEq]
    exact hfinal
  cases loaded with
  | refused failure =>
      exact lateEnds_of_refused hseen hattempts hloaded _
  | expired row failure =>
      obtain ⟨hfound, hstatus, hlate⟩ := hloaded
      refine safe_single hpending hseen hfound hstatus ?_
        (fun _ => hended .expired (by decide) _) (fun hne => hother hne _ _)
      rintro rfl _ _
      apply Gives.expired
      rw [hcall]
      exact hlate
  | pending row =>
      obtain ⟨hfound, hstatus, hahead⟩ := hloaded
      refine safe_single hpending hseen hfound hstatus ?_
        (fun _ => hended .cancelled (by decide) _)
        (fun hne => hother hne _ _)
      rintro rfl hcompany happroval
      rw [hcall, hcompany, happroval]
      exact .cancelled hahead

/-- Expiring what is stale. -/
theorem commits_expiry (hpending : request.status = .pending)
    (hcall : calls i = .expireStale companyId now) (ids : List String)
    {tables : Database} (htables : Consistent calls request tables) :
    Consistent calls request (approvalRequestTable.modifyAll
        (fun row => decide (row.id ∈ ids) && isStale companyId now row)
        (setStatus .expired) tables) ∧
      Progress request tables (approvalRequestTable.modifyAll
        (fun row => decide (row.id ∈ ids) && isStale companyId now row)
        (setStatus .expired) tables) := by
  let expire : ApprovalRequest → ApprovalRequest := fun row =>
    if decide (row.id ∈ ids) && isStale companyId now row then
      setStatus .expired row
    else row
  have hkeep : KeyedTable.KeepsKey ApprovalRequest.id expire := by
    intro row
    change ApprovalRequest.id (if _ then _ else _) = _
    split <;> rfl
  let after : Database := { tables with
    approvalRequests := tables.approvalRequests.map expire }
  change Consistent calls request after ∧ Progress request tables after
  have hkeys : KeyedTable.UniqueKeys ApprovalRequest.id
      after.approvalRequests := by
    have hids : after.approvalRequests.map ApprovalRequest.id =
        tables.approvalRequests.map ApprovalRequest.id := by
      rw [List.map_map]
      exact List.map_congr_left (fun row _ => hkeep row)
    unfold KeyedTable.UniqueKeys
    rw [hids]
    exact htables.keys
  obtain ⟨status, hrow, hstatus, houtcome⟩ := htables.statusOf_cases
  have hafter : approvalRequestTable.lookup request.id after =
      some (expire (setStatus status request)) := by
    change KeyedTable.lookup ApprovalRequest.id request.id
      (tables.approvalRequests.map expire) = _
    rw [KeyedTable.lookup_map hkeep]
    exact congrArg (Option.map expire) hrow
  by_cases hstale : (decide (request.id ∈ ids) &&
      isStale companyId now (setStatus status request)) = true
  · have hexpired : expire (setStatus status request) =
        setStatus .expired request := if_pos hstale
    rw [hexpired] at hafter
    rw [Bool.and_eq_true] at hstale
    obtain ⟨_, hcurrent, hlate⟩ := of_decide_eq_true hstale.2
    have hcurrent : status = .pending := hcurrent
    rw [hcurrent] at hrow hstatus
    have hresults : resultsOf request.id after = [] :=
      (htables.pending hpending hstatus).2
    have hgiven : statusOf request.id after = some .expired := by
      unfold statusOf
      rw [hafter]
      rfl
    refine ⟨⟨hkeys, .expired, hafter, Or.inr ⟨i, ?_⟩⟩,
      progress_of_pending hstatus hgiven (by decide)⟩
    rw [hresults]
    apply Gives.expired
    rw [hcall]
    exact hlate
  · have hsame : expire (setStatus status request) =
        setStatus status request := if_neg hstale
    rw [hsame] at hafter
    refine ⟨⟨hkeys, status, hafter, houtcome⟩, Or.inl ?_⟩
    unfold statusOf
    rw [hafter, hrow]

theorem approvalRefusal_eq_none {approver : Approver}
    {currentContextHash : String} {row : ApprovalRequest}
    (h : approvalRefusal approver currentContextHash row = none) :
    approverRefusal row approver = none ∧
      row.contextHash = currentContextHash := by
  unfold approvalRefusal at h
  cases hrole : approverRefusal row approver with
  | some refusal =>
      rw [hrole] at h
      cases h
  | none =>
      rw [hrole] at h
      by_cases hhash : row.contextHash ≠ currentContextHash
      · simp only [if_pos hhash] at h
        cases h
      · exact ⟨rfl, not_not.mp hhash⟩

theorem script_safe (rt : Runtime) (hpending : request.status = .pending)
    (i : ι) (status : Option ApprovalRequestStatus) :
    SafeCall calls request i ((calls i).script rt) [] status := by
  cases hcall : calls i with
  | approve companyId approvalId approver currentContextHash now uuid =>
      intro tables htables hok hstatus
      rw [← hstatus, overlay_nil]
      refine Decision.safe ?_ hpending htables hok
        (load_describes _ _ companyId approvalId now tables)
      constructor
      · decide
      · rw [hcall]
        rfl
      · rw [hcall]
        exact id
      · rw [hcall]
        exact fun hcompany hid hlate => ⟨hcompany, hid, hlate⟩
      · rw [hcall]
        rintro rfl rfl hahead hcheck
        obtain ⟨hrole, rfl⟩ := approvalRefusal_eq_none hcheck
        exact .approved hahead hrole
      · exact fun _ => rfl
  | deny companyId approvalId approver now uuid =>
      intro tables htables hok hstatus
      rw [← hstatus, overlay_nil]
      refine Decision.safe ?_ hpending htables hok
        (load_describes _ _ companyId approvalId now tables)
      constructor
      · decide
      · rw [hcall]
        rfl
      · rw [hcall]
        exact id
      · rw [hcall]
        exact fun hcompany hid hlate => ⟨hcompany, hid, hlate⟩
      · rw [hcall]
        rintro rfl rfl hahead hcheck
        exact .denied hahead hcheck
      · exact fun _ => rfl
  | cancel companyId approvalId now =>
      intro tables htables _ hstatus
      rw [← hstatus, overlay_nil]
      exact safe_cancelling hpending hcall htables
        (load_describes _ _ companyId approvalId now tables)
  | expireStale companyId now =>
      have hends : ∀ answer after, LateEnds calls request i answer after := by
        intro answer after hattempt
        rw [hcall] at hattempt
        exact absurd hattempt id
      intro tables _ _ _
      refine ⟨?_, fun hnone => by cases hnone⟩
      intro own hown
      obtain rfl := Option.some.inj hown
      intro final hfinal _ _
      obtain ⟨hkept, hmoved⟩ := commits_expiry hpending hcall
        (staleIds companyId now tables) hfinal
      exact ⟨hkept, hmoved, hends _ _⟩

end

end

/-! ## Whole runs -/

section

variable {ι : Type} {calls : ι → ApprovalCall} {request : ApprovalRequest}

theorem status_stays {db db' : Database}
    (hmoves : Relation.ReflTransGen (Progress request) db db')
    (hfinal : statusOf request.id db ≠ some .pending) :
    statusOf request.id db' = statusOf request.id db := by
  induction hmoves with
  | refl => rfl
  | tail _ hstep ih =>
      rcases hstep with hsame | ⟨hpending, _⟩
      · exact hsame.trans ih
      · rw [ih] at hpending
        exact absurd hpending hfinal

/-- The request is new: it is pending and has no result. -/
structure New (request : ApprovalRequest) (db : Database) : Prop where
  keys : KeyedTable.UniqueKeys ApprovalRequest.id db.approvalRequests
  row : approvalRequestTable.lookup request.id db = some request
  status : request.status = .pending
  results : resultsOf request.id db = []

theorem New.consistent {db : Database} (h : New request db) :
    Consistent calls request db := by
  refine ⟨h.keys, .pending, ?_, Or.inl ⟨rfl, h.results⟩⟩
  have hsame : setStatus .pending request = request := by
    rw [← h.status]
    rfl
  rw [hsame]
  exact h.row

/-- What holds at the end of a run, with `middle` a state on the way. -/
structure Lifecycle (calls : ι → ApprovalCall) (request : ApprovalRequest)
    (middle final : Machine ι Database RowKey ApprovalScript) : Prop where
  terminal : ∀ status, status ≠ .pending →
    statusOf request.id middle.committed = some status →
      statusOf request.id final.committed = some status
  outcome : statusOf request.id final.committed = some .pending ∧
      resultsOf request.id final.committed = [] ∨
    ∃ i status, statusOf request.id final.committed = some status ∧
      Gives request (calls i) status
        (resultsOf request.id final.committed)
  late : ∀ i answer, (final.sessions i).point = .done answer →
    answer ≠ .lost → (calls i).Attempts request →
      request.expiresAt ≤ (calls i).now →
        statusOf request.id final.committed = some .expired ∨
          ∃ j status, (calls j).now < request.expiresAt ∧
            statusOf request.id final.committed = some status ∧
              Gives request (calls j) status
                (resultsOf request.id final.committed)

theorem Gives.expired_or_ahead {call : ApprovalCall}
    {status : ApprovalRequestStatus} {results : List ApprovalResult}
    (h : Gives request call status results) :
    status = .expired ∨ call.now < request.expiresAt := by
  cases h with
  | approved hahead => exact Or.inr hahead
  | denied hahead => exact Or.inr hahead
  | cancelled hahead => exact Or.inr hahead
  | expired => exact Or.inl rfl

theorem ApprovalCall.script_unfinished (rt : Runtime) (call : ApprovalCall)
    (answer : ApprovalAnswer) : call.script rt ≠ .done answer := by
  intro h
  cases call <;> cases h

variable [Fintype ι] [DecidableEq ι]

/-- Where no call writes a status that another call has changed since it
began, and no approval or denial of a pending request comes too late, the
request is ended once, by a call that may end it. -/
theorem approval_lifecycle (rt : Runtime) {db : Database}
    (hnew : New request db) {before after : List (Event ι)}
    {middle final : Machine ι Database RowKey ApprovalScript}
    (hquiet : (Machine.starting db (fun i => (calls i).script rt)).Undisturbed
      .lost (fun _ => statusOf request.id) (DecidedInTime calls request) ∅ ∅
      (before ++ after))
    (hbefore : (Machine.starting db (fun i => (calls i).script rt)).run
      (Script.program .lost) before = some middle)
    (hafter : middle.run (Script.program .lost) after = some final) :
    Lifecycle calls request middle final := by
  have hscripts : ∀ i status,
      SafeCall calls request i ((calls i).script rt) [] status :=
    fun i status => script_safe rt hnew.status i status
  obtain ⟨_, ⟨begun, stale, hsound⟩, hmoves⟩ :=
    Machine.undisturbed_between hscripts
      (Machine.sound_starting hnew.consistent) hquiet hbefore
      hafter
  obtain ⟨status, _, hstatus, houtcome⟩ := hsound.kept.statusOf_cases
  have hcases : statusOf request.id final.committed = some .pending ∧
      resultsOf request.id final.committed = [] ∨
      ∃ i status, statusOf request.id final.committed = some status ∧
        Gives request (calls i) status
          (resultsOf request.id final.committed) := by
    rcases houtcome with ⟨rfl, hresults⟩ | ⟨i, hgives⟩
    · exact Or.inl ⟨hstatus, hresults⟩
    · exact Or.inr ⟨i, status, hstatus, hgives⟩
  refine ⟨?_, hcases, ?_⟩
  · intro current hfinal hcurrent
    rw [status_stays hmoves ?_, hcurrent]
    rw [hcurrent, ne_eq, Option.some.injEq]
    exact hfinal
  · intro i answer hdone hlost hattempt hlate
    have hended : statusOf request.id final.committed ≠ some .pending := by
      by_cases hstale : i ∈ stale
      · obtain ⟨earlier, later, hstep, hdiffers, hreached⟩ :=
          hsound.changed i hstale
        rcases hstep with hsame | ⟨_, hended⟩
        · exact absurd hsame hdiffers
        · rw [status_stays hreached hended]
          exact hended
      · have hbegun : i ∈ begun := by
          by_contra hnot
          have hwaiting := hsound.waiting i hnot
          rw [hwaiting] at hdone
          exact (calls i).script_unfinished rt answer hdone
        obtain ⟨seen, _, hreached, hpost⟩ :=
          hsound.ended i answer hbegun hstale hdone hlost
        have hseen := hpost hattempt hlate hlost
        rw [status_stays hreached hseen]
        exact hseen
    rcases hcases with ⟨hpending, _⟩ | ⟨j, status, hgiven, hgives⟩
    · exact absurd hpending hended
    · rcases hgives.expired_or_ahead with rfl | hahead
      · exact Or.inl hgiven
      · exact Or.inr ⟨j, status, hahead, hgiven, hgives⟩

end

/-! ## Runs on one request -/

def sampleRequest : ApprovalRequest where
  id := "approval-1"
  companyId := "acme"
  agentId := "agent-1"
  decisionId := "decision-1"
  transactionId := none
  policyVersionId := none
  requiredRole := "ADMIN"
  summaryJson := .object []
  contextHash := "context-1"
  status := .pending
  expiresAt := 1000

def sampleTables : Database :=
  { Database.empty with approvalRequests := [sampleRequest] }

def sampleApprover : Approver := ⟨"admin-1", "acme", "ADMIN"⟩

/-- The first session approves and the second one denies. -/
def sampleCalls (now : ℤ) : Fin 2 → ApprovalCall
  | 0 => .approve "acme" "approval-1" sampleApprover "context-1" now
      "result-1"
  | 1 => .deny "acme" "approval-1" sampleApprover now "result-2"

def sampleMachine (now : ℤ) :
    Machine (Fin 2) Database RowKey ApprovalScript :=
  Machine.starting sampleTables (fun i => (sampleCalls now i).script .reference)

/-- What a run leaves of the request, and how its first session ends. -/
def observed (machine : Machine (Fin 2) Database RowKey ApprovalScript) :
    Option ApprovalRequestStatus × List ApprovalResultStatus × Bool :=
  (statusOf "approval-1" machine.committed,
    (resultsOf "approval-1" machine.committed).map ApprovalResult.result,
    match (machine.sessions ⟨0, Nat.two_pos⟩).point with
    | .done (.decided (.error failure)) => failure.hasCode .approvalExpired
    | _ => false)

/-- Another request of the company. -/
def otherRequest : ApprovalRequest :=
  { sampleRequest with id := "approval-2", decisionId := "decision-2" }

def twoRequests : Database :=
  { Database.empty with approvalRequests := [sampleRequest, otherRequest] }

theorem two_new : New sampleRequest twoRequests :=
  ⟨by decide, rfl, rfl, rfl⟩

inductive Answering where
  | approval | denial | otherDenial
  deriving DecidableEq

instance : Fintype Answering where
  elems := {.approval, .denial, .otherDenial}
  complete := by
    intro i
    cases i <;> simp

/-- The request is approved and then denied, and the other one denied. -/
def answeringCalls : Answering → ApprovalCall
  | .approval => .approve "acme" "approval-1" sampleApprover "context-1" 10
      "result-1"
  | .denial => .deny "acme" "approval-1" sampleApprover 20 "result-2"
  | .otherDenial => .deny "acme" "approval-2" sampleApprover 15 "result-3"

def answeringMachine : Machine Answering Database RowKey ApprovalScript :=
  Machine.starting twoRequests
    (fun i => (answeringCalls i).script .reference)

/-- The two decisions take turns. -/
def answeringSchedule : List (Event Answering) :=
  [.run .approval, .run .otherDenial, .run .otherDenial, .run .approval,
    .run .otherDenial, .run .otherDenial, .run .approval, .run .approval]

/-- The denial finds the request approved. -/
def answeringRest : List (Event Answering) :=
  [.run .denial, .run .denial]

/-- The decision of the session was refused. -/
def refused (i : Answering)
    (machine : Machine Answering Database RowKey ApprovalScript) : Bool :=
  match (machine.sessions i).point with
  | .done (.decided (.error _)) => true
  | _ => false

theorem approved_then_denied :
    ∃ middle final,
      answeringMachine.run (Script.program .lost) answeringSchedule =
        some middle ∧
      middle.run (Script.program .lost) answeringRest = some final ∧
      statusOf "approval-1" middle.committed = some .approved ∧
      (statusOf "approval-1" final.committed = some .approved ∧
        statusOf "approval-2" final.committed = some .denied ∧
        refused .denial final = true) ∧
      Lifecycle answeringCalls sampleRequest middle final := by
  have happroved : (answeringMachine.run (Script.program .lost)
      answeringSchedule).map (fun machine =>
        statusOf "approval-1" machine.committed) =
      some (some .approved) := by
    decide +kernel
  have hended : (answeringMachine.run (Script.program .lost)
      (answeringSchedule ++ answeringRest)).map (fun machine =>
        (statusOf "approval-1" machine.committed,
          statusOf "approval-2" machine.committed,
          refused .denial machine)) =
      some (some .approved, some .denied, true) := by
    decide +kernel
  have hquiet : answeringMachine.quiet .lost
      (fun _ => statusOf sampleRequest.id) (fun _ _ => true) [] []
      (answeringSchedule ++ answeringRest) = true := by
    decide +kernel
  have hintime : ∀ i tables,
      DecidedInTime answeringCalls sampleRequest i tables := by
    intro i tables hlate
    cases i with
    | approval => exact absurd hlate.2.2 (by decide)
    | denial => exact absurd hlate.2.2 (by decide)
    | otherDenial => exact absurd hlate.2.2 (by decide)
  obtain ⟨middle, hbefore, hmiddle⟩ := Option.map_eq_some_iff.mp happroved
  obtain ⟨final, hafter, hfinal⟩ := Option.map_eq_some_iff.mp hended
  rw [Machine.run_append, hbefore] at hafter
  simp only [Prod.mk.injEq] at hfinal
  exact ⟨middle, final, hbefore, hafter, hmiddle, hfinal,
    approval_lifecycle .reference two_new
      (Machine.undisturbed_starting (fun i tables _ => hintime i tables)
        hquiet) hbefore hafter⟩

/-- An approval at the instant of expiry is refused as expired, and the
request stays pending; an approval and a denial that read the same pending
request both end it. -/
theorem late_and_raced_approvals :
    (∃ final, (sampleMachine 1000).run (Script.program .lost)
        [.run 0, .run 0, .run 0] = some final ∧
      observed final = (some .pending, [], true) ∧
      ¬ Lifecycle (sampleCalls 1000) sampleRequest (sampleMachine 1000)
        final) ∧
    ∃ final, (sampleMachine 10).run (Script.program .lost)
        [.run 0, .run 1, .run 0, .run 0, .run 0, .run 1, .run 1, .run 1] =
          some final ∧
      observed final = (some .denied, [.approved, .denied], false) ∧
      ¬ Lifecycle (sampleCalls 10) sampleRequest (sampleMachine 10)
        final := by
  constructor
  · have hended : ((sampleMachine 1000).run (Script.program .lost)
        [.run 0, .run 0, .run 0]).map observed =
          some (some .pending, [], true) := by
      decide
    obtain ⟨final, hrun, hobserved⟩ := Option.map_eq_some_iff.mp hended
    refine ⟨final, hrun, hobserved, ?_⟩
    intro hlife
    have hstatus : statusOf sampleRequest.id final.committed =
        some .pending := congrArg Prod.fst hobserved
    have hdone : ∃ answer, (final.sessions 0).point = .done answer ∧
        answer ≠ .lost := by
      have hexpired := congrArg (fun seen => seen.2.2) hobserved
      simp only [observed] at hexpired
      split at hexpired
      next failure hpoint => exact ⟨_, hpoint, by simp⟩
      next => cases hexpired
    obtain ⟨answer, hpoint, hlost⟩ := hdone
    rcases hlife.late 0 answer hpoint hlost ⟨rfl, rfl⟩ (by decide) with
      hexpired | ⟨j, status, _, hgiven, hgives⟩
    · rw [hstatus] at hexpired
      cases hexpired
    · rw [hstatus, Option.some.injEq] at hgiven
      exact hgives.final hgiven.symm
  · have hended : ((sampleMachine 10).run (Script.program .lost)
        [.run 0, .run 1, .run 0, .run 0, .run 0, .run 1, .run 1,
          .run 1]).map observed =
          some (some .denied, [.approved, .denied], false) := by
      decide
    obtain ⟨final, hrun, hobserved⟩ := Option.map_eq_some_iff.mp hended
    refine ⟨final, hrun, hobserved, ?_⟩
    intro hlife
    have hresults : (resultsOf sampleRequest.id final.committed).map
        ApprovalResult.result = [.approved, .denied] :=
      congrArg (fun seen => seen.2.1) hobserved
    rcases hlife.outcome with ⟨_, hnone⟩ | ⟨i, status, _, hgives⟩
    · rw [hnone] at hresults
      cases hresults
    · have hone := hgives.one_result
      have hlength := congrArg List.length hresults
      rw [List.length_map, List.length_cons, List.length_singleton]
        at hlength
      omega

end Approvals
end Orvex
