import Orvex.Approval.Service
import Orvex.Concurrency.Scripts

/-!
# Calls on approval requests

Approving and denying are transactions that load the request, write its
status and record a result.  Cancelling loads and writes outside a
transaction, and expiring is one statement.  All of them are scripts here.
-/

namespace Orvex
namespace Approvals

open ReadCommitted

def setStatus (status : ApprovalRequestStatus) (request : ApprovalRequest) :
    ApprovalRequest :=
  { request with status := status }

/-! ## Cancelling and expiring -/

/-- `loadPending`, outside a transaction. -/
def loadPendingNow (rt : Runtime) (companyId approvalId : String) (now : ℤ) :
    Service ApprovalRequest := do
  match ← Fallible.query (getRequest companyId approvalId) with
  | none =>
      Fallible.fail (.of .approvalNotFound "Approval request not found."
        [("approvalId", approvalId)])
  | some request =>
      if request.status ≠ .pending then
        Fallible.fail (.of .conflict
          ("Approval is not PENDING (is " ++ requestStatusText request.status
            ++ ").")
          [("approvalId", approvalId),
            ("status", requestStatusText request.status)])
      else if request.expiresAt ≤ now then
        let _ ← approvalRequestTable.update .recordNotFound request.id
          (setStatus .expired)
        Fallible.fail (.of .approvalExpired "Approval request has expired."
          [("approvalId", approvalId),
            ("expiresAt", rt.toISOString request.expiresAt)])
      else pure request

def cancel (rt : Runtime) (companyId approvalId : String) (now : ℤ) :
    Service ApprovalRequest := do
  let request ← loadPendingNow rt companyId approvalId now
  approvalRequestTable.update .recordNotFound request.id
    (setStatus .cancelled)

/-- A pending request of the company that has expired. -/
def isStale (companyId : String) (now : ℤ) (request : ApprovalRequest) :
    Bool :=
  decide (request.companyId = companyId ∧ request.status = .pending ∧
    request.expiresAt ≤ now)

/-- Expires what is stale, and counts it. -/
def expireStale (companyId : String) (now : ℤ) : Service ℕ := do
  let count ← Fallible.query (fun db =>
    (db.approvalRequests.filter (isStale companyId now)).length)
  approvalRequestTable.updateMany (isStale companyId now)
    (setStatus .expired)
  pure count

/-! ## The calls as scripts -/

inductive RowKey where
  | request (id : String)
  | result (id : String)
  deriving DecidableEq

inductive ApprovalAnswer where
  | decided (result : Except Failure (ApprovalRequest × ApprovalResult))
  | cancelled (result : Except Failure ApprovalRequest)
  | expired (count : ℕ)
  /-- The call never ended. -/
  | lost

abbrev ApprovalScript := Script Database RowKey ApprovalAnswer

/-- What a call finds when it loads its request. -/
inductive Loaded where
  | refused (failure : Failure)
  | expired (request : ApprovalRequest) (failure : Failure)
  | pending (request : ApprovalRequest)

/-- Loads a pending request, with the failures for one that is not pending
and for one that has expired. -/
def load (ended expired : ApprovalRequest → Failure)
    (companyId approvalId : String) (now : ℤ) (db : Database) : Loaded :=
  match getRequest companyId approvalId db with
  | none =>
      .refused (.of .approvalNotFound "Approval request not found."
        [("approvalId", approvalId)])
  | some request =>
      if request.status ≠ .pending then .refused (ended request)
      else if request.expiresAt ≤ now then .expired request (expired request)
      else .pending request

/-- `loadPendingTx`. -/
def loadTx (companyId approvalId : String) : ℤ → Database → Loaded :=
  load
    (fun request => .of .conflict
      ("Approval is terminal (" ++ requestStatusText request.status ++
        "); cannot reopen.")
      [("approvalId", approvalId),
        ("status", requestStatusText request.status)])
    (fun _ => .of .approvalExpired "Approval request has expired."
      [("approvalId", approvalId)])
    companyId approvalId

/-- `loadPending`. -/
def loadNow (rt : Runtime) (companyId approvalId : String) :
    ℤ → Database → Loaded :=
  load
    (fun request => .of .conflict
      ("Approval is not PENDING (is " ++ requestStatusText request.status
        ++ ").")
      [("approvalId", approvalId),
        ("status", requestStatusText request.status)])
    (fun request => .of .approvalExpired "Approval request has expired."
      [("approvalId", approvalId),
        ("expiresAt", rt.toISOString request.expiresAt)])
    companyId approvalId

def planStatus (id : String) (status : ApprovalRequestStatus)
    (db : Database) : Option (Write Database RowKey) :=
  (approvalRequestTable.lookup id db).map (fun _ =>
    ⟨[.request id], approvalRequestTable.modify id (setStatus status)⟩)

def planResult (result : ApprovalResult) (db : Database) :
    Option (Write Database RowKey) :=
  if (approvalResultTable.lookup result.id db).isNone &&
      (approvalRequestTable.lookup result.approvalRequestId db).isSome then
    some ⟨[.result result.id], approvalResultTable.insert result⟩
  else none

/-- The rows that an expiry locks. -/
def staleIds (companyId : String) (now : ℤ) (db : Database) : List String :=
  (db.approvalRequests.filter (isStale companyId now)).map ApprovalRequest.id

/-- Only rows that were locked are written, and only where they are still
stale. -/
def planExpiry (companyId : String) (now : ℤ) (db : Database) :
    Option (Write Database RowKey) :=
  some ⟨(staleIds companyId now db).map RowKey.request,
    approvalRequestTable.modifyAll (fun request =>
      decide (request.id ∈ staleIds companyId now db) &&
        isStale companyId now request) (setStatus .expired)⟩

/-- The row that an update returns. -/
def updated (request : ApprovalRequest) (status : ApprovalRequestStatus)
    (db : Database) : ApprovalRequest :=
  setStatus status ((approvalRequestTable.lookup request.id db).getD request)

/-- The transaction of a decision is rolled back. -/
def refuse (failure : Failure) : ApprovalScript :=
  .rollback (.done (.decided (.error failure)))

/-- The statements of a decision once its request is loaded. -/
def deciding (check : ApprovalRequest → Option Failure)
    (status : ApprovalRequestStatus)
    (outcome : ApprovalRequest → ApprovalResult) : Loaded → ApprovalScript
  | .refused failure => refuse failure
  | .expired request failure =>
      .write (planStatus request.id .expired) (fun _ => refuse failure)
        (refuse .recordNotFound)
  | .pending request =>
      match check request with
      | some refusal => refuse refusal
      | none =>
          .write (planStatus request.id status)
            (fun db =>
              .write (planResult (outcome request))
                (fun _ => .commit (.done (.decided
                  (.ok (updated request status db, outcome request)))))
                (refuse .constraint))
            (refuse .recordNotFound)

def resultOf (request : ApprovalRequest) (approver : Approver)
    (result : ApprovalResultStatus) (contextHash uuid : String) :
    ApprovalResult where
  id := uuid
  approvalRequestId := request.id
  decisionId := request.decisionId
  approverId := approver.approverId
  approverRole := approver.role
  result := result
  contextHash := contextHash

/-- What speaks against an approval. -/
def approvalRefusal (approver : Approver) (currentContextHash : String)
    (request : ApprovalRequest) : Option Failure :=
  match approverRefusal request approver with
  | some refusal => some refusal
  | none =>
      if request.contextHash ≠ currentContextHash then
        some (.of .approvalMismatch
          "Current context does not match the approved context."
          [("approved", request.contextHash),
            ("current", currentContextHash)])
      else none

/-- The statements of a cancellation once its request is loaded. -/
def cancelling : Loaded → ApprovalScript
  | .refused failure => .done (.cancelled (.error failure))
  | .expired request failure =>
      .single (planStatus request.id .expired)
        (fun _ => .done (.cancelled (.error failure)))
        (.done (.cancelled (.error .recordNotFound)))
  | .pending request =>
      .single (planStatus request.id .cancelled)
        (fun db => .done (.cancelled (.ok (updated request .cancelled db))))
        (.done (.cancelled (.error .recordNotFound)))

inductive ApprovalCall where
  | approve (companyId approvalId : String) (approver : Approver)
      (currentContextHash : String) (now : ℤ) (uuid : String)
  | deny (companyId approvalId : String) (approver : Approver) (now : ℤ)
      (uuid : String)
  | cancel (companyId approvalId : String) (now : ℤ)
  | expireStale (companyId : String) (now : ℤ)

namespace ApprovalCall

def now : ApprovalCall → ℤ
  | .approve _ _ _ _ now _ => now
  | .deny _ _ _ now _ => now
  | .cancel _ _ now => now
  | .expireStale _ now => now

def script (rt : Runtime) : ApprovalCall → ApprovalScript
  | .approve companyId approvalId approver currentContextHash now uuid =>
      .read (fun db =>
        deciding (approvalRefusal approver currentContextHash) .approved
          (fun request =>
            resultOf request approver .approved currentContextHash uuid)
          (loadTx companyId approvalId now db))
  | .deny companyId approvalId approver now uuid =>
      .read (fun db =>
        deciding (fun request => approverRefusal request approver) .denied
          (fun request =>
            resultOf request approver .denied request.contextHash uuid)
          (loadTx companyId approvalId now db))
  | .cancel companyId approvalId now =>
      .read (fun db => cancelling (loadNow rt companyId approvalId now db))
  | .expireStale companyId now =>
      .single (planExpiry companyId now)
        (fun db => .done (.expired (staleIds companyId now db).length))
        (.done .lost)

/-- The call of the service. -/
def perform (rt : Runtime) (call : ApprovalCall) (db : Database) :
    ApprovalAnswer × Database :=
  match call with
  | .approve companyId approvalId approver currentContextHash now uuid =>
      let ended := Approvals.approve companyId approvalId approver
        currentContextHash now uuid db
      (.decided ended.1, ended.2)
  | .deny companyId approvalId approver now uuid =>
      let ended := Approvals.deny companyId approvalId approver now uuid db
      (.decided ended.1, ended.2)
  | .cancel companyId approvalId now =>
      let ended := Approvals.cancel rt companyId approvalId now db
      (.cancelled ended.1, ended.2)
  | .expireStale companyId now =>
      match Approvals.expireStale companyId now db with
      | (.ok count, db') => (.expired count, db')
      | (.error _, db') => (.lost, db')

end ApprovalCall

/-! ## A call that runs alone -/

section

variable {db : Database}

theorem update_status (id : String) (status : ApprovalRequestStatus)
    (db : Database) :
    approvalRequestTable.update Failure.recordNotFound id (setStatus status)
        db =
      match approvalRequestTable.lookup id db with
      | none => (.error .recordNotFound, db)
      | some row => (.ok (setStatus status row),
          approvalRequestTable.modify id (setStatus status) db) := by
  unfold Table.update
  rw [Fallible.query_bind]
  cases approvalRequestTable.lookup id db <;> rfl

theorem create_result (result : ApprovalResult) (db : Database) :
    approvalResultTable.create Failure.constraint
        (fun db =>
          (approvalRequestTable.lookup result.approvalRequestId db).isSome)
        result db =
      if (approvalResultTable.lookup result.id db).isNone &&
          (approvalRequestTable.lookup result.approvalRequestId db).isSome
      then (.ok result, approvalResultTable.insert result db)
      else (.error .constraint, db) := by
  unfold Table.create
  rw [Fallible.query_bind]
  split
  next h => exact (if_pos h).symm
  next h => exact (if_neg h).symm

/-- What a decision does with the request it has loaded. -/
def decideOn (check : ApprovalRequest → Option Failure)
    (status : ApprovalRequestStatus)
    (outcome : ApprovalRequest → ApprovalResult) :
    Loaded → Service (ApprovalRequest × ApprovalResult)
  | .refused failure => Fallible.fail failure
  | .expired request failure => do
      let _ ← approvalRequestTable.update .recordNotFound request.id
        (setStatus .expired)
      Fallible.fail failure
  | .pending request =>
      match check request with
      | some refusal => Fallible.fail refusal
      | none => do
          let row ← approvalRequestTable.update .recordNotFound request.id
            (setStatus status)
          let result ← approvalResultTable.create .constraint
            (fun db => (approvalRequestTable.lookup
              (outcome request).approvalRequestId db).isSome)
            (outcome request)
          pure (row, result)

theorem deciding_alone (check : ApprovalRequest → Option Failure)
    (status : ApprovalRequestStatus)
    (outcome : ApprovalRequest → ApprovalResult) (loaded : Loaded)
    (db : Database) :
    (deciding check status outcome loaded).alone [] db =
      (.decided (Fallible.transaction
          (decideOn check status outcome loaded) db).1,
        (Fallible.transaction
          (decideOn check status outcome loaded) db).2) := by
  unfold Fallible.transaction
  cases loaded with
  | refused failure => rfl
  | expired request failure =>
      have hupdate := update_status request.id .expired db
      simp only [deciding, decideOn]
      rw [Script.alone, overlay_nil, planStatus]
      cases hrow : approvalRequestTable.lookup request.id db with
      | none =>
          rw [hrow] at hupdate
          rw [Fallible.bind_of_error hupdate]
          rfl
      | some row =>
          rw [hrow] at hupdate
          rw [Fallible.bind_of_ok hupdate]
          rfl
  | pending request =>
      simp only [deciding, decideOn]
      cases check request with
      | some refusal => rfl
      | none =>
          have hupdate := update_status request.id status db
          simp only
          rw [Script.alone, overlay_nil, planStatus]
          cases hrow : approvalRequestTable.lookup request.id db with
          | none =>
              rw [hrow] at hupdate
              rw [Fallible.bind_of_error hupdate]
              rfl
          | some row =>
              let mid := approvalRequestTable.modify request.id
                (setStatus status) db
              have hcreate := create_result (outcome request) mid
              rw [hrow] at hupdate
              rw [Fallible.bind_of_ok hupdate]
              simp only [Option.map_some, List.nil_append]
              rw [Script.alone, overlay_cons, overlay_nil]
              by_cases hallowed : ((approvalResultTable.lookup
                  (outcome request).id mid).isNone &&
                (approvalRequestTable.lookup
                  (outcome request).approvalRequestId mid).isSome) = true
              · have hplan : planResult (outcome request) mid =
                    some ⟨[.result (outcome request).id],
                      approvalResultTable.insert (outcome request)⟩ :=
                  if_pos hallowed
                rw [if_pos hallowed] at hcreate
                rw [Fallible.bind_of_ok hcreate, hplan]
                unfold updated
                rw [hrow]
                rfl
              · have hplan : planResult (outcome request) mid = none :=
                  if_neg hallowed
                rw [if_neg hallowed] at hcreate
                rw [Fallible.bind_of_error hcreate, hplan]
                rfl

/-- The failure of a call that has expired its request, and the tables. -/
def expiredAs (id : String) (failure : Failure) (db : Database) :
    Failure × Database :=
  match approvalRequestTable.lookup id db with
  | none => (.recordNotFound, db)
  | some _ =>
      (failure, approvalRequestTable.modify id (setStatus .expired) db)

theorem expire_and_fail {α : Type} (id : String) (failure : Failure)
    (db : Database) :
    (approvalRequestTable.update Failure.recordNotFound id
        (setStatus .expired) >>= fun _ => Fallible.fail failure :
          Service α) db =
      (.error (expiredAs id failure db).1, (expiredAs id failure db).2) := by
  have hupdate := update_status id .expired db
  unfold expiredAs
  cases hrow : approvalRequestTable.lookup id db with
  | none =>
      rw [hrow] at hupdate
      exact Fallible.bind_of_error hupdate
  | some row =>
      rw [hrow] at hupdate
      exact Fallible.bind_of_ok hupdate

/-- What the service does with a request it has loaded. -/
def Loaded.then {α : Type} (next : ApprovalRequest → Service α)
    (db : Database) : Loaded → Except Failure α × Database
  | .refused failure => (.error failure, db)
  | .expired request failure =>
      (.error (expiredAs request.id failure db).1,
        (expiredAs request.id failure db).2)
  | .pending request => next request db

theorem Loaded.then_of_load {α : Type} {loaded : Loaded}
    {action : Service ApprovalRequest}
    (haction : action db = loaded.then pure db)
    (next : ApprovalRequest → Service α) :
    (action >>= next) db = loaded.then next db := by
  cases loaded with
  | refused failure => exact Fallible.bind_of_error haction
  | expired request failure => exact Fallible.bind_of_error haction
  | pending request => exact Fallible.bind_of_ok haction

/-- Loading inside a transaction, and what follows. -/
theorem loadPending_bind {α : Type} (companyId approvalId : String) (now : ℤ)
    (next : ApprovalRequest → Service α) (db : Database) :
    (loadPending companyId approvalId now >>= next) db =
      (loadTx companyId approvalId now db).then next db := by
  apply Loaded.then_of_load
  unfold loadPending loadTx load
  rw [Fallible.query_bind]
  cases getRequest companyId approvalId db with
  | none => rfl
  | some request =>
      simp only
      by_cases hstatus : request.status ≠ .pending
      · simp only [if_pos hstatus]
        rfl
      · simp only [if_neg hstatus]
        by_cases hexpired : request.expiresAt ≤ now
        · simp only [if_pos hexpired]
          exact expire_and_fail request.id _ db
        · simp only [if_neg hexpired]
          rfl

/-- Loading outside a transaction, and what follows. -/
theorem loadPendingNow_bind {α : Type} (rt : Runtime)
    (companyId approvalId : String) (now : ℤ)
    (next : ApprovalRequest → Service α) (db : Database) :
    (loadPendingNow rt companyId approvalId now >>= next) db =
      (loadNow rt companyId approvalId now db).then next db := by
  apply Loaded.then_of_load
  unfold loadPendingNow loadNow load
  rw [Fallible.query_bind]
  cases getRequest companyId approvalId db with
  | none => rfl
  | some request =>
      simp only
      by_cases hstatus : request.status ≠ .pending
      · simp only [if_pos hstatus]
        rfl
      · simp only [if_neg hstatus]
        by_cases hexpired : request.expiresAt ≤ now
        · simp only [if_pos hexpired]
          exact expire_and_fail request.id _ db
        · simp only [if_neg hexpired]
          rfl

theorem decideOn_eq (check : ApprovalRequest → Option Failure)
    (status : ApprovalRequestStatus)
    (outcome : ApprovalRequest → ApprovalResult) (loaded : Loaded)
    (db : Database) :
    decideOn check status outcome loaded db =
      loaded.then
        (fun request => decideOn check status outcome (.pending request))
        db := by
  cases loaded with
  | refused failure => rfl
  | expired request failure => exact expire_and_fail request.id failure db
  | pending request => rfl

theorem approve_eq (companyId approvalId : String) (approver : Approver)
    (currentContextHash : String) (now : ℤ) (uuid : String)
    (db : Database) :
    approve companyId approvalId approver currentContextHash now uuid db =
      Fallible.transaction
        (decideOn (approvalRefusal approver currentContextHash) .approved
          (fun request =>
            resultOf request approver .approved currentContextHash uuid)
          (loadTx companyId approvalId now db)) db := by
  unfold approve Fallible.transaction
  rw [loadPending_bind, decideOn_eq]
  congr 3
  funext request
  cases hrole : approverRefusal request approver with
  | some refusal => simp only [decideOn, approvalRefusal, hrole]
  | none =>
      simp only [decideOn, approvalRefusal, hrole]
      by_cases hhash : request.contextHash ≠ currentContextHash
      · simp only [if_pos hhash]
      · simp only [if_neg hhash]
        rfl

theorem deny_eq (companyId approvalId : String) (approver : Approver)
    (now : ℤ) (uuid : String) (db : Database) :
    deny companyId approvalId approver now uuid db =
      Fallible.transaction
        (decideOn (fun request => approverRefusal request approver) .denied
          (fun request =>
            resultOf request approver .denied request.contextHash uuid)
          (loadTx companyId approvalId now db)) db := by
  unfold deny Fallible.transaction
  rw [loadPending_bind, decideOn_eq]
  congr 3

theorem cancelling_alone (rt : Runtime) (companyId approvalId : String)
    (now : ℤ) (db : Database) :
    (cancelling (loadNow rt companyId approvalId now db)).alone [] db =
      (.cancelled (cancel rt companyId approvalId now db).1,
        (cancel rt companyId approvalId now db).2) := by
  unfold cancel
  rw [loadPendingNow_bind]
  cases loadNow rt companyId approvalId now db with
  | refused failure => rfl
  | expired request failure =>
      simp only [cancelling, Loaded.then, expiredAs, Script.single]
      rw [Script.alone, overlay_nil, planStatus]
      cases hrow : approvalRequestTable.lookup request.id db with
      | none => rfl
      | some row => rfl
  | pending request =>
      have hupdate := update_status request.id .cancelled db
      simp only [cancelling, Loaded.then, Script.single]
      rw [Script.alone, overlay_nil, planStatus]
      cases hrow : approvalRequestTable.lookup request.id db with
      | none =>
          rw [hrow] at hupdate
          rw [hupdate]
          rfl
      | some row =>
          rw [hrow] at hupdate
          rw [hupdate]
          unfold updated
          rw [hrow]
          rfl

theorem modifyAll_stale (companyId : String) (now : ℤ) (db : Database) :
    approvalRequestTable.modifyAll (fun request =>
        decide (request.id ∈ staleIds companyId now db) &&
          isStale companyId now request) (setStatus .expired) db =
      approvalRequestTable.modifyAll (isStale companyId now)
        (setStatus .expired) db := by
  unfold Table.modifyAll
  congr 1
  apply List.map_congr_left
  intro request hmem
  have hsame : (decide (request.id ∈ staleIds companyId now db) &&
      isStale companyId now request) = isStale companyId now request := by
    by_cases hstale : isStale companyId now request = true
    · have hid : request.id ∈ staleIds companyId now db :=
        List.mem_map_of_mem (List.mem_filter.mpr ⟨hmem, hstale⟩)
      rw [hstale, Bool.and_true, decide_eq_true hid]
    · rw [Bool.eq_false_of_not_eq_true hstale, Bool.and_false]
  simp only [hsame]

/-- A call that runs alone does what the service does. -/
theorem ApprovalCall.script_alone (rt : Runtime) (call : ApprovalCall)
    (db : Database) : (call.script rt).alone [] db = call.perform rt db := by
  cases call with
  | approve companyId approvalId approver currentContextHash now uuid =>
      simp only [ApprovalCall.script, ApprovalCall.perform]
      rw [Script.alone, overlay_nil, deciding_alone, approve_eq]
  | deny companyId approvalId approver now uuid =>
      simp only [ApprovalCall.script, ApprovalCall.perform]
      rw [Script.alone, overlay_nil, deciding_alone, deny_eq]
  | cancel companyId approvalId now =>
      simp only [ApprovalCall.script, ApprovalCall.perform]
      rw [Script.alone, overlay_nil, cancelling_alone]
  | expireStale companyId now =>
      have hcount : (staleIds companyId now db).length =
          (db.approvalRequests.filter (isStale companyId now)).length :=
        List.length_map _
      have hrows := modifyAll_stale companyId now db
      simp only [ApprovalCall.script, Script.single]
      rw [Script.alone, overlay_nil, planExpiry]
      simp only [List.nil_append]
      rw [Script.alone, overlay_cons, overlay_nil]
      simp only [hrows, hcount]
      rfl

end

end Approvals
end Orvex
