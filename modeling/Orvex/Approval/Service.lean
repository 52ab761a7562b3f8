import Orvex.Decision.Service

/-!
# Human approval

A request is bound to a decision and to the hash of its context.  Approving
it asks for the same hash, an approver of the same company with a permitted
role, and a request that is pending and not expired.
-/

namespace Orvex
namespace Approvals

def approverRoles : List String := ["ADMIN", "AUTHORIZED_OPERATOR", "APPROVER"]

structure CreateApprovalInput where
  companyId : String
  agentId : String
  decisionId : String
  transactionId : Option String
  policyVersionId : Option String
  requiredRole : String
  summary : Json
  contextHash : String
  expiresAt : ℤ

structure Approver where
  approverId : String
  companyId : String
  role : String
  deriving DecidableEq

def requestAllowed (request : ApprovalRequest) (db : Database) : Bool :=
  companyExists request.companyId db &&
    (decisionTable.lookup request.decisionId db).isSome

def createRequest (input : CreateApprovalInput) (uuid : String) :
    Service ApprovalRequest := do
  match ← Fallible.query
      (Decisions.getDecision input.companyId input.decisionId) with
  | none =>
      Fallible.fail (.of .notFound "Decision not found for approval request."
        [("decisionId", input.decisionId)])
  | some _ =>
      let request : ApprovalRequest :=
        { id := uuid
          companyId := input.companyId
          agentId := input.agentId
          decisionId := input.decisionId
          transactionId := input.transactionId
          policyVersionId := input.policyVersionId
          requiredRole := input.requiredRole
          summaryJson := input.summary
          contextHash := input.contextHash
          status := .pending
          expiresAt := input.expiresAt }
      approvalRequestTable.create .constraint (requestAllowed request)
        request

def getRequest (companyId approvalId : String) (db : Database) :
    Option ApprovalRequest :=
  approvalRequestTable.find (fun request =>
    request.id = approvalId ∧ request.companyId = companyId) db

def requestStatusText : ApprovalRequestStatus → String
  | .pending => "PENDING"
  | .approved => "APPROVED"
  | .denied => "DENIED"
  | .expired => "EXPIRED"
  | .cancelled => "CANCELLED"

/-- `assertApproverAuthorized`. -/
def approverRefusal (request : ApprovalRequest) (approver : Approver) :
    Option Failure :=
  if approver.companyId ≠ request.companyId then
    some (.of .authorizationError "Approver is from a different company."
      [("approverCompany", approver.companyId),
        ("requestCompany", request.companyId)])
  else if approver.role ∉ approverRoles then
    some (.of .authorizationError
      "Approver role is not permitted to approve."
      [("role", approver.role)])
  else if request.requiredRole ≠ "" ∧ approver.role ≠ request.requiredRole ∧
      approver.role ≠ "ADMIN" then
    some (.of .authorizationError
      "Approver role does not satisfy the required role."
      [("role", approver.role), ("requiredRole", request.requiredRole)])
  else none

/-- `loadPendingTx`: a pending request that is not expired. -/
def loadPending (companyId approvalId : String) (now : ℤ) :
    Service ApprovalRequest := do
  match ← Fallible.query (getRequest companyId approvalId) with
  | none =>
      Fallible.fail (.of .approvalNotFound "Approval request not found."
        [("approvalId", approvalId)])
  | some request =>
      if request.status ≠ .pending then
        Fallible.fail (.of .conflict
          ("Approval is terminal (" ++ requestStatusText request.status ++
            "); cannot reopen.")
          [("approvalId", approvalId),
            ("status", requestStatusText request.status)])
      else if request.expiresAt ≤ now then
        -- the write is undone with the transaction around it
        let _ ← approvalRequestTable.update .recordNotFound request.id
          (fun row => { row with status := .expired })
        Fallible.fail (.of .approvalExpired "Approval request has expired."
          [("approvalId", approvalId)])
      else pure request

def recordResult (request : ApprovalRequest) (approver : Approver)
    (result : ApprovalResultStatus) (contextHash uuid : String) :
    Service ApprovalResult :=
  approvalResultTable.create .constraint
    (fun db => (approvalRequestTable.lookup request.id db).isSome)
    { id := uuid
      approvalRequestId := request.id
      decisionId := request.decisionId
      approverId := approver.approverId
      approverRole := approver.role
      result := result
      contextHash := contextHash }

def approve (companyId approvalId : String) (approver : Approver)
    (currentContextHash : String) (now : ℤ) (uuid : String) :
    Service (ApprovalRequest × ApprovalResult) :=
  Fallible.transaction do
    let request ← loadPending companyId approvalId now
    match approverRefusal request approver with
    | some refusal => Fallible.fail refusal
    | none =>
        if request.contextHash ≠ currentContextHash then
          Fallible.fail (.of .approvalMismatch
            "Current context does not match the approved context."
            [("approved", request.contextHash),
              ("current", currentContextHash)])
        else
          let updated ← approvalRequestTable.update .recordNotFound
            request.id (fun row => { row with status := .approved })
          let result ← recordResult request approver .approved
            currentContextHash uuid
          pure (updated, result)

def deny (companyId approvalId : String) (approver : Approver) (now : ℤ)
    (uuid : String) : Service (ApprovalRequest × ApprovalResult) :=
  Fallible.transaction do
    let request ← loadPending companyId approvalId now
    match approverRefusal request approver with
    | some refusal => Fallible.fail refusal
    | none =>
        let updated ← approvalRequestTable.update .recordNotFound
          request.id (fun row => { row with status := .denied })
        let result ← recordResult request approver .denied
          request.contextHash uuid
        pure (updated, result)

/-- The approval state that the decision engine reads. -/
def resolveApprovalState (companyId approvalId currentContextHash : String)
    (now : ℤ) (db : Database) : ApprovalStatus :=
  match getRequest companyId approvalId db with
  | none => .absent
  | some request =>
      if request.status = .expired ∨
          (request.status = .pending ∧ request.expiresAt ≤ now) then
        .expired
      else if request.status = .denied ∨ request.status = .cancelled then
        .denied
      else if request.status = .pending then .pending
      else if request.contextHash ≠ currentContextHash then .mismatch
      else .approved

/-- Only an approved request bound to the current context counts. -/
theorem resolveApprovalState_eq_approved
    {companyId approvalId currentContextHash : String} {now : ℤ}
    {db : Database}
    (h : resolveApprovalState companyId approvalId currentContextHash now
      db = .approved) :
    ∃ request ∈ db.approvalRequests, request.id = approvalId ∧
      request.companyId = companyId ∧ request.status = .approved ∧
        request.contextHash = currentContextHash := by
  unfold resolveApprovalState at h
  cases hrequest : getRequest companyId approvalId db with
  | none =>
      rw [hrequest] at h
      simp at h
  | some request =>
      rw [hrequest] at h
      have hmem := List.mem_of_find?_eq_some hrequest
      have hkeys := List.find?_some hrequest
      rw [decide_eq_true_eq] at hkeys
      refine ⟨request, hmem, hkeys.1, hkeys.2, ?_⟩
      simp only at h
      split at h
      next => simp at h
      next hexpired =>
      split at h
      next => simp at h
      next hdenied =>
      split at h
      next => simp at h
      next hpending =>
      split at h
      next => simp at h
      next hhash =>
        refine ⟨?_, not_not.mp hhash⟩
        rw [not_or] at hexpired hdenied
        cases hstatus : request.status with
        | approved => rfl
        | pending => exact absurd hstatus hpending
        | denied => exact absurd hstatus hdenied.1
        | expired => exact absurd hstatus hexpired.1
        | cancelled => exact absurd hstatus hdenied.2

/-! ## What the calls write -/

/-- The row of a new request. -/
def requestOf (input : CreateApprovalInput) (uuid : String) :
    ApprovalRequest where
  id := uuid
  companyId := input.companyId
  agentId := input.agentId
  decisionId := input.decisionId
  transactionId := input.transactionId
  policyVersionId := input.policyVersionId
  requiredRole := input.requiredRole
  summaryJson := input.summary
  contextHash := input.contextHash
  status := .pending
  expiresAt := input.expiresAt

theorem createRequest_eq_ok {input : CreateApprovalInput} {uuid : String}
    {db db' : Database} {request : ApprovalRequest} :
    createRequest input uuid db = (.ok request, db') ↔
      (Decisions.getDecision input.companyId input.decisionId db).isSome =
          true ∧
        approvalRequestTable.lookup uuid db = none ∧
        requestAllowed (requestOf input uuid) db = true ∧
        request = requestOf input uuid ∧
        db' = approvalRequestTable.insert request db := by
  unfold createRequest
  rw [Fallible.query_bind]
  cases Decisions.getDecision input.companyId input.decisionId db with
  | none => simp
  | some decision =>
      simp only [Option.isSome_some, true_and]
      rw [Table.create_eq_ok]
      constructor
      · rintro ⟨hnew, hallowed, hrequest, hstate⟩
        exact ⟨hnew, hallowed, hrequest, by rw [hrequest]; exact hstate⟩
      · rintro ⟨hnew, hallowed, hrequest, hstate⟩
        exact ⟨hnew, hallowed, hrequest, by rw [hrequest] at hstate
                                            exact hstate⟩

/-- A pending request can be approved with its own context hash. -/
theorem approve_of_pending {companyId approvalId uuid : String}
    {approver : Approver} {now : ℤ} {db : Database}
    {request : ApprovalRequest}
    (hfound : getRequest companyId approvalId db = some request)
    (hrow : approvalRequestTable.lookup request.id db = some request)
    (hpending : request.status = .pending) (hahead : now < request.expiresAt)
    (hrole : approverRefusal request approver = none)
    (hnew : approvalResultTable.lookup uuid db = none) :
    ∃ result db',
      approve companyId approvalId approver request.contextHash now uuid db =
        (.ok ({ request with status := .approved }, result), db') ∧
      db'.approvalRequests =
        KeyedTable.modify ApprovalRequest.id request.id
          (fun row => { row with status := .approved })
          db.approvalRequests ∧
      db' = { db with
        approvalRequests := db'.approvalRequests
        approvalResults := db'.approvalResults } := by
  have hload : loadPending companyId approvalId now db =
      (.ok request, db) := by
    unfold loadPending
    rw [Fallible.query_bind]
    simp only [hfound, hpending, ne_eq, not_true_eq_false, if_false]
    rw [if_neg (not_le.mpr hahead), Fallible.pure_apply]
  let change : ApprovalRequest → ApprovalRequest :=
    fun row => { row with status := .approved }
  let mid := approvalRequestTable.modify request.id change db
  have hupdate : approvalRequestTable.update Failure.recordNotFound
      request.id change db = (.ok (change request), mid) :=
    Table.update_eq_ok.mpr ⟨request, hrow, rfl, rfl⟩
  let result : ApprovalResult :=
    { id := uuid
      approvalRequestId := request.id
      decisionId := request.decisionId
      approverId := approver.approverId
      approverRole := approver.role
      result := .approved
      contextHash := request.contextHash }
  have hkeep : KeyedTable.KeepsKey ApprovalRequest.id change := fun _ => rfl
  have hexists : (approvalRequestTable.lookup request.id mid).isSome =
      true := by
    change (KeyedTable.lookup ApprovalRequest.id request.id
      (KeyedTable.modify ApprovalRequest.id request.id change
        db.approvalRequests)).isSome = true
    have hlookup : KeyedTable.lookup ApprovalRequest.id request.id
      db.approvalRequests = some request := hrow
    rw [KeyedTable.lookup_modify hkeep, if_pos rfl, hlookup]
    rfl
  have hrecord : recordResult request approver .approved request.contextHash
      uuid mid = (.ok result, approvalResultTable.insert result mid) :=
    Table.create_eq_ok.mpr ⟨hnew, hexists, rfl, rfl⟩
  refine ⟨result, approvalResultTable.insert result mid, ?_, rfl, rfl⟩
  unfold approve
  rw [Fallible.transaction_eq_ok, Fallible.bind_of_ok hload]
  simp only [hrole, ne_eq, not_true_eq_false, if_false]
  rw [Fallible.bind_of_ok hupdate, Fallible.bind_of_ok hrecord]
  rfl

end Approvals
end Orvex
