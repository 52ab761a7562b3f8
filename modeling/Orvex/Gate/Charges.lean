import Orvex.Financial.ExactMoney
import Orvex.Gate.Balance

/-!
# What a verified payment is charged

A verified receipt commits the reservation of its request where that is still
RESERVED.  A result that was once reported unknown leaves it UNKNOWN for
good, whatever a reconciliation finds.
-/

namespace Orvex
namespace ExecutionResults

open Financial (WellFormed Conserved Completion HoldSums lookupAccount
  lookupReservation findReservation heldBy spentBy)

/-! ## Charged -/

def othersHeld (id accountId : String) (db : Database) : ℚ :=
  ((db.financialReservations.filter (fun res => res.id ≠ id)).map
    (heldBy accountId)).sum

def othersSpent (id accountId : String) (db : Database) : ℚ :=
  ((db.financialReservations.filter (fun res => res.id ≠ id)).map
    (spentBy accountId)).sum

/-- The reservation is COMMITTED, its amount is contained in what its account
has committed, and no longer in what the account has reserved. -/
structure ChargedTo (id : String) (res : FinancialReservation)
    (account : FinancialAccount) (db : Database) : Prop where
  row : lookupReservation id db = some res
  committed : res.status = .committed
  account_row : lookupAccount res.financialAccountId db = some account
  contained : account.currentCommitted =
    res.amount + othersSpent id account.id db
  freed : account.currentReserved = othersHeld id account.id db

def Charged (id : String) (db : Database) : Prop :=
  ∃ res account, ChargedTo id res account db

theorem charged_of_committed {id : String} {db : Database}
    (h : Balanced db) {res : FinancialReservation}
    (hrow : lookupReservation id db = some res)
    (hcommitted : res.status = .committed) : Charged id db := by
  obtain ⟨hdb, hconserved⟩ := h
  have hmem := KeyedTable.mem_of_lookup hrow
  obtain ⟨account, haccount⟩ :=
    Option.ne_none_iff_exists'.mp (hdb.foreignKey res hmem)
  have hkey : account.id = res.financialAccountId :=
    KeyedTable.key_of_lookup haccount
  obtain ⟨hheld, hspent⟩ :=
    hconserved account (KeyedTable.mem_of_lookup haccount)
  have hterms : heldBy account.id res = 0 ∧
      spentBy account.id res = res.amount := by
    simp [heldBy, spentBy, Financial.Open, hcommitted, hkey]
  refine ⟨res, account, hrow, hcommitted, haccount, ?_, ?_⟩
  · rw [hspent]
    unfold Financial.spent
    rw [KeyedTable.sum_of_lookup (spentBy account.id) hdb.reservations hrow,
      hterms.2]
    rfl
  · rw [hheld]
    unfold Financial.held
    rw [KeyedTable.sum_of_lookup (heldBy account.id) hdb.reservations hrow,
      hterms.1, zero_add]
    rfl

/-! ## What a verification does -/

/-- What a verification read before it wrote. -/
structure Compared (rt : Runtime) (client : ExecutionClient)
    (companyId executionId : String) (authorized : AuthorizedReceipt)
    (request : ExecutionRequestRecord) (receipt : ClientReceipt)
    (found : List String) (db : Database) : Prop where
  request_found : getRequest companyId executionId db = some request
  receipt_read : client.verify executionId = .ok receipt
  compared : discrepancies rt authorized receipt = .ok found

/-- The receipt that a verification records. -/
def recordOf (authorized : AuthorizedReceipt)
    (request : ExecutionRequestRecord) (receipt : ClientReceipt)
    (found : List String) (now : ℤ) (uuid : String) :
    ReceiptVerificationRecord where
  id := uuid
  executionRequestId := request.id
  status := if found.isEmpty then .verified else .mismatch
  verified := found.isEmpty
  transactionHash := some receipt.transactionHash
  expectedJson := receiptJson authorized
  actualJson := receiptJson receipt.actual
  discrepanciesJson := textArray found
  verifiedAt := some now

section

variable {rt : Runtime} {client : ExecutionClient}
  {companyId executionId uuid : String} {authorized : AuthorizedReceipt}
  {now : ℤ} {db : Database}

/-- The state after a receipt is recorded and, where nothing differed, the
reservation that is then RESERVED is committed. -/
def finalized (rt : Runtime) (companyId : String)
    (authorized : AuthorizedReceipt) (request : ExecutionRequestRecord)
    (receipt : ClientReceipt) (found : List String) (now : ℤ)
    (uuid : String) (db : Database) : Database :=
  let recorded := receiptVerificationTable.insert
    (recordOf authorized request receipt found now uuid) db
  if found.isEmpty then
    match findHold companyId request.id [.reserved] db with
    | none => recorded
    | some res => (Financial.commit rt companyId res.id now recorded).2
  else recorded

/-- A verification whose receipt is new records it. -/
theorem verifyAndFinalize_of_compared
    {request : ExecutionRequestRecord} {receipt : ClientReceipt}
    {found : List String}
    (h : Compared rt client companyId executionId authorized request receipt
      found db)
    (hnew : receiptVerificationTable.lookup uuid db = none)
    (hallowed : resultAllowed request.id db = true) :
    (verifyAndFinalize rt client companyId executionId authorized now uuid
        db).2 =
      finalized rt companyId authorized request receipt found now uuid db := by
  have hrequest : requireRequest "Unknown execution_id for verification."
      companyId executionId db = .ok request := by
    unfold requireRequest
    rw [h.request_found]
  have hrecorded : receiptVerificationTable.create Failure.constraint
      (resultAllowed request.id) (recordOf authorized request receipt found
        now uuid) db = (.ok (recordOf authorized request receipt found now
          uuid), receiptVerificationTable.insert (recordOf authorized request
            receipt found now uuid) db) :=
    Table.create_eq_ok.mpr ⟨hnew, hallowed, rfl, rfl⟩
  unfold verifyAndFinalize
  rw [Fallible.bind_of_ok (reading_eq_ok.mpr ⟨hrequest, rfl⟩),
    Fallible.bind_of_ok (reading_eq_ok.mpr ⟨h.receipt_read, rfl⟩),
    Fallible.bind_of_ok (reading_eq_ok.mpr ⟨h.compared, rfl⟩)]
  refine (congrArg Prod.snd (Fallible.bind_of_ok hrecorded)).trans ?_
  unfold finalized
  by_cases hclean : found.isEmpty = true
  · simp only [if_pos hclean]
    have hsame : findHold companyId request.id [.reserved]
        (receiptVerificationTable.insert (recordOf authorized request receipt
          found now uuid) db) =
        findHold companyId request.id [.reserved] db := rfl
    rw [Fallible.query_bind, hsame]
    cases findHold companyId request.id [.reserved] db with
    | none => rfl
    | some res => exact Fallible.bind_pure_state _ _ _
  · simp only [if_neg hclean]
    rfl

/-- A verification changes nothing, or records its receipt and commits the
reservation that it then finds RESERVED, if nothing was different. -/
theorem verifyAndFinalize_cases :
    (verifyAndFinalize rt client companyId executionId authorized now uuid
        db).2 = db ∨
      ∃ request receipt found,
        Compared rt client companyId executionId authorized request receipt
            found db ∧
          (verifyAndFinalize rt client companyId executionId authorized now
              uuid db).2 =
            finalized rt companyId authorized request receipt found now uuid
              db := by
  by_cases hsame : (verifyAndFinalize rt client companyId executionId
      authorized now uuid db).2 = db
  · exact Or.inl hsame
  have hmoved := hsame
  unfold verifyAndFinalize at hsame
  rcases reading_bind_cases (requireRequest
      "Unknown execution_id for verification." companyId executionId) _ db
    with ⟨_, _, hend⟩ | ⟨request, hrequest, hnext⟩
  · exact absurd (congrArg Prod.snd hend) hsame
  rw [hnext] at hsame
  rcases reading_bind_cases (fun _ => client.verify executionId) _ db
    with ⟨_, _, hend⟩ | ⟨receipt, hreceipt, hnext⟩
  · exact absurd (congrArg Prod.snd hend) hsame
  rw [hnext] at hsame
  rcases reading_bind_cases (fun _ => discrepancies rt authorized receipt) _
      db with ⟨_, _, hend⟩ | ⟨found, hfound, hnext⟩
  · exact absurd (congrArg Prod.snd hend) hsame
  rw [hnext] at hsame
  have hcompared : Compared rt client companyId executionId authorized
      request receipt found db :=
    ⟨getRequest_of_require hrequest, hreceipt, hfound⟩
  rcases Table.create_bind_cases Failure.constraint
      (resultAllowed request.id) (recordOf authorized request receipt found
        now uuid) _ db with hend | ⟨hnew, hallowed, _⟩
  · exact absurd (congrArg Prod.snd hend) hsame
  · exact Or.inr ⟨request, receipt, found, hcompared,
      verifyAndFinalize_of_compared hcompared hnew hallowed⟩

end

/-- The verification records a receipt that is VERIFIED. -/
def RecordsVerified (rt : Runtime) (client : ExecutionClient)
    (companyId executionId : String) (authorized : AuthorizedReceipt)
    (now : ℤ) (uuid : String) (db : Database) : Prop :=
  ∃ row, (verifyAndFinalize rt client companyId executionId authorized now
      uuid db).2.receiptVerifications = db.receiptVerifications ++ [row] ∧
    row.verified = true

section

variable {rt : Runtime} {client : ExecutionClient}
  {companyId executionId uuid : String} {authorized : AuthorizedReceipt}
  {now : ℤ} {db : Database}

theorem preserves_receipts_commit (rid : String) :
    Fallible.Preserves Database.receiptVerifications
      (Financial.commit rt companyId rid now) :=
  Financial.preserves_completion (fun _ _ _ => rfl) rt .commit companyId rid
    now

/-- A VERIFIED receipt was recorded because nothing differed. -/
theorem compared_of_verified (h : RecordsVerified rt client companyId
      executionId authorized now uuid db) :
    ∃ request receipt, Compared rt client companyId executionId authorized
        request receipt [] db ∧
      (verifyAndFinalize rt client companyId executionId authorized now uuid
          db).2 =
        (match findHold companyId executionId [.reserved] db with
          | none => receiptVerificationTable.insert (recordOf authorized
              request receipt [] now uuid) db
          | some res => (Financial.commit rt companyId res.id now
              (receiptVerificationTable.insert (recordOf authorized request
                receipt [] now uuid) db)).2) := by
  obtain ⟨row, hreceipts, hverified⟩ := h
  rcases @verifyAndFinalize_cases rt client companyId executionId uuid
    authorized now db with hsame | ⟨request, receipt, found, hcompared, hend⟩
  · rw [hsame] at hreceipts
    have hlength := congrArg List.length hreceipts
    simp at hlength
  · have hid : request.id = executionId :=
      (getRequest_eq_some hcompared.request_found).2.1
    by_cases hclean : found.isEmpty = true
    · obtain rfl := List.isEmpty_iff.mp hclean
      unfold finalized at hend
      simp only [if_pos hclean, hid] at hend
      exact ⟨request, receipt, hcompared, hend⟩
    · unfold finalized at hend
      simp only [if_neg hclean] at hend
      rw [hend] at hreceipts
      have hrow := List.append_cancel_left hreceipts
      rw [List.cons.injEq] at hrow
      rw [← hrow.1] at hverified
      exact absurd hverified hclean

/-- Nothing differs, and the receipt is new. -/
theorem recordsVerified_of_compared {request : ExecutionRequestRecord}
    {receipt : ClientReceipt}
    (h : Compared rt client companyId executionId authorized request receipt
      [] db)
    (hnew : receiptVerificationTable.lookup uuid db = none)
    (hallowed : resultAllowed request.id db = true) :
    RecordsVerified rt client companyId executionId authorized now uuid
      db := by
  refine ⟨recordOf authorized request receipt [] now uuid, ?_, rfl⟩
  rw [verifyAndFinalize_of_compared h hnew hallowed]
  unfold finalized
  simp only [List.isEmpty_nil, if_true]
  cases findHold companyId request.id [.reserved] db with
  | none => rfl
  | some res => exact (preserves_receipts_commit res.id).apply _

end

/-! ## The status before a verification decides -/

/-- The reservation belongs to the company and has one of the statuses. -/
def In (companyId : String) (statuses : List ReservationStatus)
    (res : FinancialReservation) : Prop :=
  res.companyId = companyId ∧ res.status ∈ statuses

def everyStatus : List ReservationStatus :=
  [.reserved, .committed, .released, .unknown]

theorem mem_everyStatus (status : ReservationStatus) :
    status ∈ everyStatus := by
  cases status <;> decide

theorem settle_companyId (kind : Completion) (now : ℤ)
    (res : FinancialReservation) :
    (kind.settle now res).companyId = res.companyId := by
  cases kind <;> rfl

theorem lasting_everyStatus (companyId : String) :
    Lasting (In companyId everyStatus) := by
  constructor
  · intro kind now id res hin _ _
    exact ⟨(settle_companyId kind now res).trans hin.1, mem_everyStatus _⟩
  · intro id res hin _
    exact ⟨hin.1, mem_everyStatus _⟩

/-- A COMMITTED reservation stays COMMITTED. -/
theorem lasting_committed (companyId : String) :
    Lasting (In companyId [.committed]) := by
  constructor
  · intro kind now id res hin haccepted hunfinished
    have hstatus : res.status = .committed := List.mem_singleton.mp hin.2
    rw [hstatus] at haccepted hunfinished
    cases kind with
    | commit => exact absurd rfl hunfinished
    | release => simp [Completion.refusal] at haccepted
    | reconcileRelease => simp [Completion.refusal] at haccepted
  · intro id res hin hmarked
    have hstatus : res.status = .committed := List.mem_singleton.mp hin.2
    rw [hstatus] at hmarked
    simp [Financial.unknownRefusal] at hmarked

/-- A reservation that is UNKNOWN or RELEASED is never COMMITTED. -/
theorem lasting_uncommitted (companyId : String) :
    Lasting (In companyId [.unknown, .released]) := by
  constructor
  · intro kind now id res hin haccepted hunfinished
    refine ⟨(settle_companyId kind now res).trans hin.1, ?_⟩
    cases kind with
    | commit =>
        have hstatus := hin.2
        simp only [List.mem_cons, List.not_mem_nil, or_false] at hstatus
        rcases hstatus with hstatus | hstatus <;> rw [hstatus] at haccepted <;>
          simp [Completion.refusal] at haccepted
    | release => simp [Completion.settle]
    | reconcileRelease => simp [Completion.settle]
  · intro id res hin hmarked
    exact ⟨hin.1, by simp [Financial.setUnknown]⟩

section

variable {requestId id companyId : String} {db : Database}
  {known : FinancialReservation → Prop} {res : FinancialReservation}

/-- What the search finds is the bound reservation. -/
theorem lookup_of_findHold (h : BoundHold requestId id known db)
    {statuses : List ReservationStatus}
    (hfind : findHold companyId requestId statuses db = some res) :
    lookupReservation id db = some res ∧ res.status ∈ statuses := by
  obtain ⟨hmem, _, hbound, hstatus⟩ := findHold_eq_some hfind
  have hid := h.only res hmem hbound
  have hsame : lookupReservation res.id db = some res :=
    KeyedTable.lookup_of_mem h.ledger.reservations hmem
  exact ⟨hid ▸ hsame, hstatus⟩

theorem findHold_of_bound (h : BoundHold requestId id known db)
    (hlookup : lookupReservation id db = some res)
    (hbound : res.executionRequestId = some requestId)
    (hcompany : res.companyId = companyId)
    {statuses : List ReservationStatus} (hstatus : res.status ∈ statuses) :
    findHold companyId requestId statuses db = some res := by
  have hmem := KeyedTable.mem_of_lookup hlookup
  cases hfind : findHold companyId requestId statuses db with
  | none =>
      have hnone := List.find?_eq_none.mp hfind res hmem
      exact absurd (decide_eq_true ⟨hcompany, hbound, hstatus⟩) hnone
  | some found =>
      obtain ⟨hsame, _⟩ := lookup_of_findHold h hfind
      exact (hlookup.symm.trans hsame).symm

theorem findHold_none_of_bound (h : BoundHold requestId id known db)
    (hlookup : lookupReservation id db = some res)
    {statuses : List ReservationStatus} (hstatus : res.status ∉ statuses) :
    findHold companyId requestId statuses db = none := by
  cases hfind : findHold companyId requestId statuses db with
  | none => rfl
  | some found =>
      obtain ⟨hsame, hfound⟩ := lookup_of_findHold h hfind
      rw [hlookup, Option.some.injEq] at hsame
      exact absurd hfound (hsame ▸ hstatus)

end


/-- A reservation of the company is found under its id. -/
theorem findReservation_of_lookup {db : Database} (hdb : WellFormed db)
    {id : String} {res : FinancialReservation}
    (hlookup : lookupReservation id db = some res) :
    findReservation res.companyId res.id db = some res := by
  have hmem := KeyedTable.mem_of_lookup hlookup
  cases hfind : findReservation res.companyId res.id db with
  | none =>
      have hnone := List.find?_eq_none.mp hfind res hmem
      exact absurd (decide_eq_true ⟨rfl, rfl⟩) hnone
  | some found =>
      unfold findReservation at hfind
      have hpred := List.find?_some hfind
      have hfacts := of_decide_eq_true hpred
      have hfound := KeyedTable.lookup_of_mem hdb.reservations
        (List.mem_of_find?_eq_some hfind)
      have hsame := KeyedTable.lookup_of_mem hdb.reservations hmem
      rw [hfacts.1, hsame] at hfound
      exact hfound.symm

section

variable {rt : Runtime} {client : ExecutionClient}
  {companyId requestId id uuid : String} {authorized : AuthorizedReceipt}
  {now : ℤ} {db : Database}

/-- Committing the bound reservation where it is RESERVED. -/
theorem committed_of_reserved
    (h : BoundHold requestId id (In companyId everyStatus) db)
    {res : FinancialReservation} (hsums : HoldSums rt .commit res db)
    (hlookup : lookupReservation id db = some res)
    (hreserved : res.status = .reserved) (now : ℤ) :
    BoundHold requestId id (In companyId [.committed])
      (Financial.commit rt companyId res.id now db).2 := by
  obtain ⟨found, hfound, hbound, hcompany, _⟩ := h.bound
  obtain rfl : found = res := Option.some.inj (hfound.symm.trans hlookup)
  have hid : found.id = id := KeyedTable.key_of_lookup hlookup
  have hread : findReservation companyId found.id db = some found := by
    rw [← hcompany]
    exact findReservation_of_lookup h.ledger hlookup
  obtain ⟨row, change, hcompletes⟩ :=
    Financial.completes_of_sums hsums h.ledger hread
      (by simp [hreserved, Completion.refusal])
      (by simp [hreserved, Completion.final])
  have hrun := Completion.run_of_completes h.ledger hcompletes now
  have hkeep := (Financial.totalsOnly_accountChange
    hcompletes.row_change).keepsKey
  unfold Financial.commit
  rw [hrun]
  refine (h.updateAccount hkeep).updateReservation
    (Financial.sameHold_settle .commit now) (settle_requestId .commit now) ?_
  intro other hother hin
  rw [if_pos hid.symm]
  exact ⟨(settle_companyId .commit now other).trans hin.1,
    List.mem_singleton_self _⟩

end


theorem runCalls_append (rt : Runtime) (before later : List ResultCall)
    (db : Database) :
    runCalls rt (before ++ later) db =
      runCalls rt later (runCalls rt before db) :=
  List.foldl_append

/-- The bound reservation is RESERVED, or COMMITTED already. -/
def Chargeable (id : String) (db : Database) : Prop :=
  ∃ res, lookupReservation id db = some res ∧
    (res.status = .reserved ∨ res.status = .committed)

section

variable {rt : Runtime} {client : ExecutionClient}
  {companyId requestId id uuid : String} {authorized : AuthorizedReceipt}
  {now : ℤ} {db : Database}

/-- Verifying commits a reservation that is chargeable, where the sums can be
stored, and leaves every other one as it was. -/
theorem verified_step
    (h : BoundHold requestId id (In companyId everyStatus) db)
    (hverified : RecordsVerified rt client companyId requestId authorized
      now uuid db) :
    (BoundSums rt .commit requestId db → Chargeable id db →
      BoundHold requestId id (In companyId [.committed])
        (verifyAndFinalize rt client companyId requestId authorized now uuid
          db).2) ∧
    (¬ Chargeable id db →
      BoundHold requestId id (In companyId [.unknown, .released])
        (verifyAndFinalize rt client companyId requestId authorized now uuid
          db).2) := by
  obtain ⟨request, receipt, _, hend⟩ := compared_of_verified hverified
  obtain ⟨res, hlookup, hbound, hcompany, _⟩ := h.bound
  have hinsert : ∀ {known : FinancialReservation → Prop},
      BoundHold requestId id known db →
        BoundHold requestId id known (receiptVerificationTable.insert
          (recordOf authorized request receipt [] now uuid) db) :=
    fun hdb => hdb.of_ledger rfl
  have hknown : ∀ {statuses : List ReservationStatus},
      res.status ∈ statuses →
        BoundHold requestId id (In companyId statuses) db :=
    fun hstatus => ⟨h.ledger, ⟨res, hlookup, hbound, hcompany, hstatus⟩,
      h.only⟩
  rw [hend]
  by_cases hreserved : res.status = .reserved
  · have hheld : res.status ∈ [ReservationStatus.reserved] := by
      simp [hreserved]
    have hfind := findHold_of_bound h hlookup hbound hcompany hheld
    rw [hfind]
    constructor
    · intro hsums _
      have hheldSums : HoldSums rt .commit res db :=
        hsums res (KeyedTable.mem_of_lookup hlookup) hbound
          (Or.inl hreserved)
      exact committed_of_reserved (hinsert h)
        (holdSums_of_ledger hheldSums rfl) hlookup hreserved now
    · intro hnot
      exact absurd ⟨res, hlookup, Or.inl hreserved⟩ hnot
  · have hnotHeld : res.status ∉ [ReservationStatus.reserved] := by
      simp [hreserved]
    have hfind := @findHold_none_of_bound _ _ companyId _ _ _ h hlookup _
      hnotHeld
    rw [hfind]
    constructor
    · intro _ hchargeable
      obtain ⟨other, hother, hstatus⟩ := hchargeable
      obtain rfl : res = other := Option.some.inj (hlookup.symm.trans hother)
      have hcommitted : res.status = .committed :=
        hstatus.resolve_left hreserved
      exact hinsert (hknown (by simp [hcommitted]))
    · intro hnot
      have huncommitted : res.status ≠ .committed :=
        fun hcommitted => hnot ⟨res, hlookup, Or.inr hcommitted⟩
      refine hinsert (hknown ?_)
      cases hstatus : res.status <;> simp_all

/-- In every run of the three calls, a payment whose receipt is recorded as
VERIFIED is charged from then on only if its reservation was RESERVED or
COMMITTED at that moment, and then always if no sum of the run is rounded. -/
theorem verified_charged_iff (hdb : Balanced db)
    (h : BoundHold requestId id (In companyId everyStatus) db)
    (before later : List ResultCall)
    (hverified : RecordsVerified rt client companyId requestId authorized
      now uuid (runCalls rt before db)) :
    (Charged id (runCalls rt (before ++ .verifyAndFinalize client companyId
        requestId authorized now uuid :: later) db) →
      Chargeable id (runCalls rt before db)) ∧
    (RunSums rt (before ++ .verifyAndFinalize client companyId
        requestId authorized now uuid :: later) db →
      Chargeable id (runCalls rt before db) →
      Charged id (runCalls rt (before ++ .verifyAndFinalize client companyId
        requestId authorized now uuid :: later) db)) := by
  have hbefore : BoundHold requestId id (In companyId everyStatus)
      (runCalls rt before db) :=
    h.runCalls (lasting_everyStatus companyId) before
  obtain ⟨hcharge, hspare⟩ := verified_step hbefore hverified
  constructor
  · intro hcharged
    by_contra hnot
    have hlast := @BoundHold.runCalls rt _ _ _
      (lasting_uncommitted companyId) later _ (hspare hnot)
    obtain ⟨res, hlookup, _, _, hstatus⟩ := hlast.bound
    obtain ⟨charged, account, hto⟩ := hcharged
    rw [runCalls_append] at hto
    obtain rfl : res = charged :=
      Option.some.inj (hlookup.symm.trans hto.row)
    rw [hto.committed] at hstatus
    simp at hstatus
  · intro hsums hchargeable
    have hend := hdb.runCalls hsums
    have hverify : BoundSums rt .commit requestId (runCalls rt before db) :=
      (Along.append.mp hsums).2.1
    have hlast := @BoundHold.runCalls rt _ _ _
      (lasting_committed companyId) later _ (hcharge hverify hchargeable)
    obtain ⟨res, hlookup, _, _, hstatus⟩ := hlast.bound
    rw [runCalls_append] at hend ⊢
    exact charged_of_committed hend hlookup (List.mem_singleton.mp hstatus)

end


/-! ## A payment whose outcome was unknown -/

def sampleRequest : ExecutionRequestRecord where
  id := "request-1"
  companyId := "acme"
  agentId := "agent-1"
  decisionId := "decision-1"
  transactionId := "transaction-1"
  policyVersionId := some "version-1"
  authorizationContextHash := "context-hash"
  idempotencyKey := "payload-hash"
  executorType := "SMART_ACCOUNT"
  network := "base"
  status := .authorized
  authorizedAt := some 0

def sampleHold : FinancialReservation where
  id := "reservation-1"
  companyId := "acme"
  agentId := some "agent-1"
  executionRequestId := some "request-1"
  financialAccountId := "account-1"
  amount := 10
  asset := "USDC"
  status := .reserved
  releasedAt := none
  committedAt := none

/-- A company with one authorized request for 10 USDC. -/
def authorizedDatabase : Database :=
  { Database.empty with
    companies := ["acme"]
    financialAccounts := [{ Revalidation.sampleAccount "base" with
      currentReserved := 10 }]
    financialReservations := [sampleHold]
    executionRequests := [sampleRequest] }

def sampleReceipt : AuthorizedReceipt := ⟨"0xshop", "USDC", "10", "base"⟩

/-- An executor that confirms the payment. -/
def confirmingClient : ExecutionClient where
  getResult _ := .ok .confirmed
  verify _ := .ok ⟨true, "0xhash", sampleReceipt⟩

def unknownThenConfirmed : List ResultCall :=
  [.ingestResult "acme"
      ⟨"request-1", .unknown, "base", none, none, none, true⟩ 0 "result-1",
    .reconcile confirmingClient "acme" "request-1" 1]

theorem balanced_authorized : Balanced authorizedDatabase := by
  refine ⟨⟨?_, ?_, ?_⟩, ?_⟩
  · simp [KeyedTable.UniqueKeys, authorizedDatabase]
  · simp [KeyedTable.UniqueKeys, authorizedDatabase]
  · decide
  · decide +kernel

theorem bound_authorized : BoundHold "request-1" "reservation-1"
    (In "acme" everyStatus) authorizedDatabase := by
  refine ⟨balanced_authorized.1, ⟨sampleHold, rfl, rfl, rfl, ?_⟩, ?_⟩
  · exact mem_everyStatus _
  · intro res hmem _
    rw [List.mem_singleton.mp hmem]
    rfl

/-- A list whose only row is verified. -/
theorem recordsVerified_of_map {rt : Runtime} {client : ExecutionClient}
    {companyId executionId uuid : String} {authorized : AuthorizedReceipt}
    {now : ℤ} {db : Database}
    (hbefore : db.receiptVerifications.length = 0)
    (hafter : (verifyAndFinalize rt client companyId executionId authorized
      now uuid db).2.receiptVerifications.map
        ReceiptVerificationRecord.verified = [true]) :
    RecordsVerified rt client companyId executionId authorized now uuid
      db := by
  obtain ⟨row, hrows, hverified⟩ := List.map_eq_singleton_iff.mp hafter
  refine ⟨row, ?_, hverified⟩
  rw [hrows, List.length_eq_zero_iff.mp hbefore, List.nil_append]

theorem sums_authorized : BoundSums Financial.twentyDigits .commit
    "request-1" authorizedDatabase := by
  intro res hres _ _ row hrow
  rw [List.mem_singleton.mp hres] at hrow ⊢
  obtain rfl : _ = row := Option.some.inj hrow
  have hzero : Financial.StoresExactly Financial.twentyDigits (10 - 10) :=
    (Financial.store_eq_self_iff Financial.twentyDigits_default
      ⟨0, by norm_num⟩).mpr (Financial.sumFits_of_hundredths 0 (by norm_num)
        (by norm_num) (by norm_num))
  have hten : Financial.StoresExactly Financial.twentyDigits (0 + 10) :=
    (Financial.store_eq_self_iff Financial.twentyDigits_default
      ⟨10 ^ 19, by norm_num⟩).mpr (Financial.sumFits_of_hundredths 1000
        (by norm_num) (by norm_num) (by norm_num))
  exact ⟨hzero, fun _ => hten⟩

/-- A payment is verified and its confirmation reconciled afterwards. -/
theorem verified_payment_charged :
    RecordsVerified Financial.twentyDigits confirmingClient "acme"
        "request-1" sampleReceipt 2 "receipt-1" authorizedDatabase ∧
      Charged "reservation-1" (runCalls Financial.twentyDigits
        [.verifyAndFinalize confirmingClient "acme" "request-1"
            sampleReceipt 2 "receipt-1",
          .reconcile confirmingClient "acme" "request-1" 3]
        authorizedDatabase) := by
  have hverified : RecordsVerified Financial.twentyDigits confirmingClient
      "acme" "request-1" sampleReceipt 2 "receipt-1" authorizedDatabase := by
    have hcompared : Compared Financial.twentyDigits confirmingClient "acme"
        "request-1" sampleReceipt sampleRequest
        ⟨true, "0xhash", sampleReceipt⟩ []
        authorizedDatabase := ⟨rfl, rfl, by decide⟩
    exact recordsVerified_of_compared hcompared rfl rfl
  refine ⟨hverified, (verified_charged_iff balanced_authorized
    bound_authorized [] [.reconcile confirmingClient "acme" "request-1" 3]
    hverified).2 ?_ ⟨sampleHold, rfl, Or.inl rfl⟩⟩
  refine ⟨sums_authorized, ?_, trivial⟩
  intro hfailed
  cases hfailed

/-- The outcome was unknown, reconciliation finds it confirmed, and the
verified payment stays uncharged. -/
theorem reconciled_payment_uncharged :
    Balanced authorizedDatabase ∧
    BoundHold "request-1" "reservation-1" (In "acme" everyStatus)
      authorizedDatabase ∧
    RecordsVerified .reference confirmingClient "acme" "request-1"
      sampleReceipt 2 "receipt-1"
      (runCalls .reference unknownThenConfirmed authorizedDatabase) ∧
    ¬ Charged "reservation-1" (runCalls .reference (unknownThenConfirmed ++
      [.verifyAndFinalize confirmingClient "acme" "request-1" sampleReceipt
        2 "receipt-1"]) authorizedDatabase) := by
  refine ⟨balanced_authorized, bound_authorized, ?_, ?_⟩
  · exact recordsVerified_of_map (by decide) (by decide)
  · rintro ⟨res, account, hto⟩
    have hstatus : (lookupReservation "reservation-1" (runCalls .reference
        (unknownThenConfirmed ++ [.verifyAndFinalize confirmingClient "acme"
          "request-1" sampleReceipt 2 "receipt-1"])
        authorizedDatabase)).map FinancialReservation.status =
          some .unknown := by
      decide
    rw [hto.row, Option.map_some, hto.committed] at hstatus
    exact absurd hstatus (by decide)


end ExecutionResults
end Orvex
