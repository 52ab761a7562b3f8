import Orvex.Execution.Pipeline
import Orvex.Execution.Recipients
import Orvex.Gate.Charges

/-!
# Two verdicts on one receipt

The executor verifies a receipt and reports what was actually paid, and the
core compares that report with what it authorized.  The executor reports the
recipient in its checksum form and the core compares texts, so the two agree
exactly when the recipient was authorized in that form or the receipt does
not pay.
-/

namespace Orvex
namespace Execution

open ExecutionResults (Compared verifyAndFinalize recordOf getRequest)

/-- The amount is written as digits, with at most one point among them. -/
def PlainAmount (amount : String) : Prop :=
  ∃ whole fraction, decimalGroups amount.toList = some (whole, fraction)

/-- The receipt pays what was authorized, on the network it was recorded
for. -/
def ReceiptPays (deps : PipelineDeps) (expectation : AuthorizedExpectation)
    (network : String) (receipt : RawReceipt) : Prop :=
  ∃ usdc, deps.registry.usdc expectation.network = .ok usdc ∧
    PaysAuthorized deps.viem (Pipeline.authorizedReceipt expectation usdc)
      (ReceiptParser.parse deps.viem receipt) network

/-- A verification as the core reads it. -/
def clientReceipt (verification : ReceiptVerification) :
    ExecutionResults.ClientReceipt where
  verified := verification.verified
  transactionHash := verification.transactionHash
  actual :=
    { recipient := verification.actual.recipient
      asset := verification.actual.asset
      amount := verification.actual.amount
      network := verification.actual.network }

/-- What the core authorized, as it compares it. -/
def authorizedOf (expectation : AuthorizedExpectation) :
    ExecutionResults.AuthorizedReceipt where
  recipient := expectation.recipient
  asset := expectation.asset
  amount := expectation.amount
  network := expectation.network

/-- The call of the core leaves one more receipt, with this status. -/
def Records (rt : Runtime) (client : ExecutionResults.ExecutionClient)
    (companyId executionId : String)
    (authorized : ExecutionResults.AuthorizedReceipt) (now : ℤ)
    (uuid : String) (db : Database) (status : ReceiptVerificationStatus) :
    Prop :=
  ∃ row, (verifyAndFinalize rt client companyId executionId authorized now
      uuid db).2.receiptVerifications = db.receiptVerifications ++ [row] ∧
    row.status = status

/-! ## What the core records -/

theorem receipts_of_compared {rt : Runtime}
    {client : ExecutionResults.ExecutionClient}
    {companyId executionId uuid : String}
    {authorized : ExecutionResults.AuthorizedReceipt} {now : ℤ}
    {db : Database} {request : ExecutionRequestRecord}
    {receipt : ExecutionResults.ClientReceipt} {found : List String}
    (h : Compared rt client companyId executionId authorized request receipt
      found db)
    (hnew : receiptVerificationTable.lookup uuid db = none) :
    (verifyAndFinalize rt client companyId executionId authorized now uuid
        db).2.receiptVerifications =
      db.receiptVerifications ++
        [recordOf authorized request receipt found now uuid] := by
  have hmem := (ExecutionResults.getRequest_eq_some h.request_found).1
  have hallowed : ExecutionResults.resultAllowed request.id db = true := by
    unfold ExecutionResults.resultAllowed
    rw [Option.isSome_iff_ne_none, ne_eq, Table.lookup,
      KeyedTable.lookup_eq_none_iff, not_not]
    exact List.mem_map_of_mem hmem
  rw [ExecutionResults.verifyAndFinalize_of_compared h hnew hallowed]
  unfold ExecutionResults.finalized
  simp only
  split
  next =>
    split
    next => rfl
    next res _ =>
      exact (ExecutionResults.preserves_receipts_commit res.id).apply _
  next => rfl

/-- The core records VERIFIED when it finds no difference, and else
MISMATCH. -/
theorem records_iff {rt : Runtime}
    {client : ExecutionResults.ExecutionClient}
    {companyId executionId uuid : String}
    {authorized : ExecutionResults.AuthorizedReceipt} {now : ℤ}
    {db : Database} {request : ExecutionRequestRecord}
    {receipt : ExecutionResults.ClientReceipt} {found : List String}
    (h : Compared rt client companyId executionId authorized request receipt
      found db)
    (hnew : receiptVerificationTable.lookup uuid db = none) :
    (Records rt client companyId executionId authorized now uuid db
        .verified ↔ found = []) ∧
      (Records rt client companyId executionId authorized now uuid db
        .mismatch ↔ found ≠ []) := by
  have hreceipts := @receipts_of_compared rt client companyId executionId uuid
    authorized now db request receipt found h hnew
  have hrow : ∀ status, Records rt client companyId executionId authorized
      now uuid db status ↔
        (if found.isEmpty then ReceiptVerificationStatus.verified
          else .mismatch) = status := by
    intro status
    unfold Records
    rw [hreceipts]
    constructor
    · rintro ⟨row, hrows, hstatus⟩
      have hsame := List.append_cancel_left hrows
      rw [List.cons.injEq] at hsame
      rw [← hstatus, ← hsame.1]
      rfl
    · exact fun hstatus => ⟨_, rfl, hstatus⟩
  rw [hrow, hrow]
  cases found <;> simp

/-! ## What the core finds in a report of the executor -/

section

variable {deps : PipelineDeps} {executionId : String}
  {record : ExecutionRecord} {expectation : AuthorizedExpectation}
  {receipt : RawReceipt} {now : ℤ} {verification : ReceiptVerification}

theorem verifyReceipt_eq_ok
    (h : Pipeline.verifyReceipt deps executionId record expectation receipt
      now = .ok verification) :
    ∃ usdc, deps.registry.usdc expectation.network = .ok usdc ∧
      ReceiptVerifier.verify deps.viem executionId
        (Pipeline.authorizedReceipt expectation usdc)
        (ReceiptParser.parse deps.viem receipt) record.result.chain
        (deps.rt.toISOString now) = .ok verification :=
  Fallible.result_bind_eq_ok.mp h

theorem verified_iff_pays (hviem : deps.viem.Lawful)
    (h : Pipeline.verifyReceipt deps executionId record expectation receipt
      now = .ok verification) :
    verification.verified = true ↔
      ReceiptPays deps expectation record.result.chain receipt := by
  obtain ⟨usdc, husdc, hverify⟩ := verifyReceipt_eq_ok h
  rw [verified_iff hviem hverify]
  constructor
  · exact fun hpays => ⟨usdc, husdc, hpays⟩
  · rintro ⟨found, hfound, hpays⟩
    rw [husdc, Except.ok.injEq] at hfound
    rwa [hfound]

/-- The amounts of the comparison can be read. -/
theorem amounts_read {rt : Runtime} (hreads : ReadsDecimals rt)
    (hamount : PlainAmount expectation.amount)
    (h : Pipeline.verifyReceipt deps executionId record expectation receipt
      now = .ok verification) :
    (∃ x, rt.toDecimal expectation.amount = some (.finite x)) ∧
      ∃ y, rt.toDecimal verification.actual.amount = some (.finite y) := by
  obtain ⟨usdc, -, hverify⟩ := verifyReceipt_eq_ok h
  obtain ⟨whole, fraction, hgroups⟩ := hamount
  have hauthorized := hreads _ _ _ hgroups
  refine ⟨⟨_, hauthorized⟩, ?_⟩
  rcases actual_amount hverify with hsame | hzero | ⟨units, hunits⟩
  · rw [hsame]
    exact ⟨_, hauthorized⟩
  · rw [hzero]
    exact ⟨_, hreads "0" ['0'] [] (by decide)⟩
  · rw [hunits]
    exact ⟨_, toDecimal_fromBaseUnits hreads units _⟩

/-- A report that is not verified differs from what was authorized. -/
theorem discrepancies_of_unverified {rt : Runtime}
    (hreads : ReadsDecimals rt) (hamount : PlainAmount expectation.amount)
    (h : Pipeline.verifyReceipt deps executionId record expectation receipt
      now = .ok verification)
    (hunverified : verification.verified = false) :
    ∃ found, ExecutionResults.discrepancies rt (authorizedOf expectation)
        (clientReceipt verification) = .ok found ∧ found ≠ [] := by
  obtain ⟨⟨x, hx⟩, y, hy⟩ := amounts_read hreads hamount h
  unfold ExecutionResults.discrepancies
  simp only [authorizedOf, clientReceipt, hx, hy, decimalOf,
    Fallible.result_ok_bind, Fallible.result_pure]
  refine ⟨_, rfl, ?_⟩
  simp [ExecutionResults.nameIf, hunverified]

/-- A report that is verified differs in nothing, or in the spelling of the
recipient. -/
theorem discrepancies_of_verified {rt : Runtime} (hviem : deps.viem.Lawful)
    (hreads : ReadsDecimals rt) (hamount : PlainAmount expectation.amount)
    (h : Pipeline.verifyReceipt deps executionId record expectation receipt
      now = .ok verification)
    (hverified : verification.verified = true) :
    ∃ found, ExecutionResults.discrepancies rt (authorizedOf expectation)
        (clientReceipt verification) = .ok found ∧
      (found = [] ↔ deps.viem.getAddress expectation.recipient =
        some expectation.recipient) := by
  obtain ⟨usdc, -, hverify⟩ := verifyReceipt_eq_ok h
  obtain ⟨recipient, hrecipient, hactual⟩ :=
    actual_of_verified hviem hverify hverified
  obtain ⟨⟨x, hx⟩, -⟩ := amounts_read hreads hamount h
  have hspelled : deps.viem.getAddress expectation.recipient =
      some recipient := hrecipient
  unfold ExecutionResults.discrepancies
  simp only [authorizedOf, clientReceipt, hactual,
    Pipeline.authorizedReceipt, hx, decimalOf, Fallible.result_ok_bind,
    Fallible.result_pure, hverified]
  refine ⟨_, rfl, ?_⟩
  rw [hspelled]
  by_cases hsame : expectation.recipient = recipient
  · simp [ExecutionResults.nameIf, Decimal.equals, hsame]
  · have hsame' : ¬ recipient = expectation.recipient :=
      fun heq => hsame heq.symm
    simp [ExecutionResults.nameIf, hsame, hsame']

/-! ## Agreement -/

/-- The core records VERIFIED where the executor reports that the receipt
verifies, and MISMATCH where it reports that it does not, exactly when the
recipient was authorized in its checksum form or the receipt does not
pay. -/
theorem verdicts_agree_iff {rt : Runtime}
    {client : ExecutionResults.ExecutionClient} {companyId uuid : String}
    {later : ℤ} {db : Database} {request : ExecutionRequestRecord}
    (hviem : deps.viem.Lawful) (hreads : ReadsDecimals rt)
    (hamount : PlainAmount expectation.amount)
    (h : Pipeline.verifyReceipt deps executionId record expectation receipt
      now = .ok verification)
    (hclient : client.verify executionId = .ok (clientReceipt verification))
    (hrequest : getRequest companyId executionId db = some request)
    (hnew : receiptVerificationTable.lookup uuid db = none) :
    ((verification.verified = true →
        Records rt client companyId executionId (authorizedOf expectation)
          later uuid db .verified) ∧
      (verification.verified = false →
        Records rt client companyId executionId (authorizedOf expectation)
          later uuid db .mismatch)) ↔
      (deps.viem.getAddress expectation.recipient =
          some expectation.recipient ∨
        ¬ ReceiptPays deps expectation record.result.chain receipt) := by
  rw [← verified_iff_pays hviem h]
  cases hverified : verification.verified with
  | false =>
      obtain ⟨found, hfound, hne⟩ :=
        discrepancies_of_unverified hreads hamount h hverified
      have hrecords := @records_iff rt client companyId executionId uuid
        (authorizedOf expectation) later db request
        (clientReceipt verification) found
        ⟨hrequest, hclient, hfound⟩ hnew
      simp [hrecords.2, hne]
  | true =>
      obtain ⟨found, hfound, hnil⟩ :=
        discrepancies_of_verified hviem hreads hamount h hverified
      have hrecords := @records_iff rt client companyId executionId uuid
        (authorizedOf expectation) later db request
        (clientReceipt verification) found
        ⟨hrequest, hclient, hfound⟩ hnew
      simp [hrecords.1, hnil]

end

/-! ## A recipient authorized in small letters -/

/-- The topics of a transfer from the signer to the address. -/
def transferTopics : List String :=
  ["0xddf252ad1be2c89b69c2b068fc378daa952ba7f163c4a11628f55a4df523b3ef",
    "0x0000000000000000000000001111111111111111111111111111111111111111",
    "0x000000000000000000000000036cbd53842c5426634e7929541ec2318f3dcf7e"]

def tenUnits : String :=
  "0x0000000000000000000000000000000000000000000000000000000000989680"

def tenDeps : PipelineDeps where
  rt := .reference
  viem := .ofTables
    [(smallLetters, checksummed), (checksummed, checksummed),
      (baseToken, baseToken), (paymentSender, paymentSender)]
    [((checksummed, 10000000), tenCalldata)]
    [((transferTopics, tenUnits), ⟨paymentSender, smallLetters, 10000000⟩)]
  registry := ⟨none, none⟩
  rpc := ⟨baseMainnet, true, fun _ => rfl⟩
  sender := paymentSender
  timeoutMs := 60000

theorem tenDeps_lawful : tenDeps.viem.Lawful :=
  Viem.lawful_ofTables (by decide) (by decide)
    (by decide +kernel) (by decide +kernel)

/-- The receipt of a transfer of 10 USDC to the address. -/
def tenReceipt : RawReceipt where
  transactionHash := "0xhash"
  status := .success
  logs := [⟨baseToken, transferTopics, tenUnits⟩]

def tenExpectation (recipient : String) : AuthorizedExpectation where
  network := "base"
  chainId := 8453
  recipient := recipient
  asset := "USDC"
  amount := "10"
  allowedFunction := .transfer

def tenRecord (recipient : String) : ExecutionRecord where
  executionId := "request-1"
  idempotencyKey := "key-1"
  result :=
    { executionId := "request-1"
      status := .confirmed
      transactionHash := some "0xhash"
      chain := "base"
      submittedAt := none
      confirmedAt := none
      idempotencyKey := "key-1" }
  verification := none
  authorized := some (tenExpectation recipient)

/-- The request of the execution, as the core stores it. -/
def tenRequest : ExecutionRequestRecord where
  id := "request-1"
  companyId := "acme"
  agentId := "agent-1"
  decisionId := "decision-1"
  transactionId := "transaction-1"
  policyVersionId := none
  authorizationContextHash := ""
  idempotencyKey := "key-1"
  executorType := "SMART_ACCOUNT"
  network := "base"
  status := .confirmed
  authorizedAt := none

def tenDatabase : Database :=
  { Database.empty with executionRequests := [tenRequest] }

/-- The executor with this verification. -/
def tenClient (verification : ReceiptVerification) :
    ExecutionResults.ExecutionClient where
  getResult := fun _ => .ok .confirmed
  verify := fun _ => .ok (clientReceipt verification)

theorem ten_verifies {recipient : String}
    (hrecipient : recipient = smallLetters ∨ recipient = checksummed) :
    ∃ verification, Pipeline.verifyReceipt tenDeps "request-1"
        (tenRecord recipient) (tenExpectation recipient) tenReceipt 0 =
          .ok verification ∧
      verification.verified = true := by
  have hverified : (Pipeline.verifyReceipt tenDeps "request-1"
      (tenRecord recipient) (tenExpectation recipient) tenReceipt
        0).toOption.map ReceiptVerification.verified = some true := by
    rcases hrecipient with rfl | rfl
    · decide
    · decide
  obtain ⟨verification, hfound, hverified⟩ :=
    Option.map_eq_some_iff.mp hverified
  exact ⟨verification, eq_ok_of_toOption hfound, hverified⟩

theorem ten_plain (recipient : String) :
    PlainAmount (tenExpectation recipient).amount := by
  have hten : decimalGroups "10".toList = some (['1', '0'], []) := by
    decide
  exact ⟨['1', '0'], [], hten⟩

/-- The executor verifies the receipt of a payment that was authorized in
small letters, and the core records a mismatch. -/
theorem small_letters_mismatch :
    tenDeps.viem.isAddress smallLetters = true ∧
    ∃ verification,
      Pipeline.verifyReceipt tenDeps "request-1" (tenRecord smallLetters)
          (tenExpectation smallLetters) tenReceipt 0 = .ok verification ∧
      verification.verified = true ∧
      ¬ Records .reference (tenClient verification) "acme" "request-1"
        (authorizedOf (tenExpectation smallLetters)) 0 "receipt-1"
        tenDatabase .verified ∧
      Records .reference (tenClient verification) "acme" "request-1"
        (authorizedOf (tenExpectation smallLetters)) 0 "receipt-1"
        tenDatabase .mismatch := by
  obtain ⟨verification, hverify, hverified⟩ := ten_verifies (Or.inl rfl)
  obtain ⟨found, hfound, hnil⟩ := discrepancies_of_verified tenDeps_lawful
    reference_readsDecimals (ten_plain smallLetters) hverify hverified
  have hne : found ≠ [] := by
    rw [ne_eq, hnil]
    decide
  have hrecords := @records_iff .reference (tenClient verification) "acme"
    "request-1" "receipt-1" (authorizedOf (tenExpectation smallLetters)) 0
    tenDatabase tenRequest (clientReceipt verification) found
    ⟨rfl, rfl, hfound⟩ rfl
  refine ⟨by decide, verification, hverify, hverified, ?_, ?_⟩
  · rw [hrecords.1]
    exact hne
  · rw [hrecords.2]
    exact hne

/-- Authorized in its checksum form, the payment is VERIFIED by both. -/
theorem ten_agreed :
    ∃ verification,
      Pipeline.verifyReceipt tenDeps "request-1" (tenRecord checksummed)
          (tenExpectation checksummed) tenReceipt 0 = .ok verification ∧
      Records .reference (tenClient verification) "acme" "request-1"
        (authorizedOf (tenExpectation checksummed)) 0 "receipt-1"
        tenDatabase .verified := by
  obtain ⟨verification, hverify, hverified⟩ := ten_verifies (Or.inr rfl)
  have hagree := (@verdicts_agree_iff tenDeps "request-1"
    (tenRecord checksummed) (tenExpectation checksummed) tenReceipt 0
    verification .reference (tenClient verification) "acme" "receipt-1" 0
    tenDatabase tenRequest tenDeps_lawful reference_readsDecimals
    (ten_plain checksummed) hverify rfl rfl rfl).mpr
      (Or.inl (by decide))
  exact ⟨verification, hverify, hagree.1 hverified⟩

end Execution
end Orvex
