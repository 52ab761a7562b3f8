import Orvex.Core.Reference
import Orvex.Financial.Atomic
import Orvex.Financial.Calls
import Orvex.Gate.Revalidation

/-!
# The request that is minted and the budget that is held

A call that mints writes an idempotency record, a reservation on one account
and the request, and binds the reservation to the request.
-/

namespace Orvex
namespace Revalidation

open Financial (lookupAccount lookupReservation)

/-! ## How minting ends -/

/-- The state after a registration. -/
def Registered (db mid : Database) : Prop :=
  ∃ records, mid = { db with idempotencyRecords := records }

theorem registered_of_register {rt : Runtime}
    {input : Idempotency.RegisterInput} {uuid : String} {db : Database} :
    Registered db (Idempotency.register rt input uuid db).2 := by
  have hinsert : ∀ state record, Registered db state →
      Registered db (idempotencyTable.insert record state) := by
    rintro state record ⟨records, rfl⟩
    exact ⟨_, rfl⟩
  have hkeeps := Idempotency.keeps_register hinsert rt input uuid
  exact hkeeps db ⟨db.idempotencyRecords, rfl⟩

theorem mint_eq_ok {rt : Runtime} {input : RevalidateInput}
    {policy : PolicyReading} {now : ℤ} {ids : MintIds} {db db' : Database}
    {outcome : RevalidationOutcome}
    (h : mint rt input policy now ids db = (.ok outcome, db')) :
    ∃ mid, Registered db mid ∧
      ((∃ existing, findExisting rt input mid = some existing ∧
          outcome = reused existing ∧ db' = mid) ∨
        outcome = budgetExceeded ∨
        (findExisting rt input mid = none ∧ ∃ res held,
          Financial.reserve rt (reserveInput input) ids.account
            ids.reservation mid = (.ok res, held) ∧
          authorize rt input policy now ids.executionRequest res.id held =
            (.ok outcome, db'))) := by
  unfold mint at h
  obtain ⟨registered, mid, hregister, h⟩ := Fallible.bind_eq_ok.mp h
  have hmid : Registered db mid := by
    have := @registered_of_register rt (registration rt input)
      ids.idempotency db
    rwa [hregister] at this
  refine ⟨mid, hmid, ?_⟩
  rw [Fallible.query_bind] at h
  cases hexisting : findExisting rt input mid with
  | some existing =>
      simp only [hexisting, Fallible.pure_apply, Prod.mk.injEq,
        Except.ok.injEq] at h
      exact Or.inl ⟨existing, rfl, h.1.symm, h.2.symm⟩
  | none =>
      simp only [hexisting, Fallible.attempt_bind] at h
      cases hreserve : Financial.reserve rt (reserveInput input) ids.account
          ids.reservation mid with
      | mk result held =>
          rw [hreserve] at h
          cases result with
          | ok res => exact Or.inr (Or.inr ⟨rfl, res, held, rfl, h⟩)
          | error failure =>
              simp only at h
              split at h
              next =>
                rw [Fallible.pure_apply, Prod.mk.injEq, Except.ok.injEq] at h
                exact Or.inr (Or.inl h.1.symm)
              next => simp at h

/-- Binding a reservation to a request. -/
def bindTo (requestId : String) (res : FinancialReservation) :
    FinancialReservation :=
  { res with executionRequestId := some requestId }

theorem authorize_eq_ok {rt : Runtime} {input : RevalidateInput}
    {policy : PolicyReading} {now : ℤ} {uuid reservationId : String}
    {db db' : Database} {outcome : RevalidationOutcome}
    (h : authorize rt input policy now uuid reservationId db =
      (.ok outcome, db')) :
    executionRequestTable.lookup uuid db = none ∧
      requestAllowed (newRequest rt input policy now uuid) db = true ∧
      outcome = minted (newRequest rt input policy now uuid) reservationId ∧
      db' = reservationTable.modify reservationId (bindTo uuid)
        (executionRequestTable.insert
          (newRequest rt input policy now uuid) db) := by
  unfold authorize at h
  obtain ⟨request, mid, hcreate, h⟩ := Fallible.bind_eq_ok.mp h
  obtain ⟨hnew, hallowed, rfl, rfl⟩ := Table.create_eq_ok.mp hcreate
  obtain ⟨row, mid', hupdate, h⟩ := Fallible.bind_eq_ok.mp h
  obtain ⟨_, _, _, rfl⟩ := Table.update_eq_ok.mp hupdate
  rw [Fallible.pure_apply, Prod.mk.injEq, Except.ok.injEq] at h
  exact ⟨hnew, hallowed, h.1.symm, h.2.symm⟩

/-- `authorize` creates its request and binds the reservation to it; it stops
where the request is refused or the reservation is missing. -/
theorem authorize_state (rt : Runtime) (input : RevalidateInput)
    (policy : PolicyReading) (now : ℤ) (uuid reservationId : String)
    (db : Database) :
    (authorize rt input policy now uuid reservationId db).2 = db ∨
      (executionRequestTable.lookup uuid db = none ∧
        requestAllowed (newRequest rt input policy now uuid) db = true ∧
        ((authorize rt input policy now uuid reservationId db).2 =
            executionRequestTable.insert
              (newRequest rt input policy now uuid) db ∨
          (authorize rt input policy now uuid reservationId db).2 =
            reservationTable.modify reservationId (bindTo uuid)
              (executionRequestTable.insert
                (newRequest rt input policy now uuid) db))) := by
  unfold authorize
  rcases Table.create_bind_cases Failure.constraint
      (requestAllowed (newRequest rt input policy now uuid))
      (newRequest rt input policy now uuid) _ db with hend |
    ⟨hnew, hallowed, hnext⟩
  · exact Or.inl (congrArg Prod.snd hend)
  refine Or.inr ⟨hnew, hallowed, ?_⟩
  rcases Table.update_bind_cases (t := reservationTable)
      Failure.recordNotFound reservationId (bindTo uuid) _
      (executionRequestTable.insert
        (newRequest rt input policy now uuid) db) with
    ⟨_, hend⟩ | ⟨row, _, hbound⟩
  · exact Or.inl (congrArg Prod.snd (hnext.trans hend))
  · exact Or.inr (congrArg Prod.snd (hnext.trans hbound))

/-! ## The first payment -/

/-- The ledger grants the budget that the input asks for. -/
structure Grants (rt : Runtime) (input : RevalidateInput) (ids : MintIds)
    (account : FinancialAccount) (amount : Decimal) (stored : ℚ)
    (change : FinancialAccount → FinancialAccount) (db : Database) :
    Prop where
  account_found : Financial.findAccount (reserveInput input).toAccountKey
    db = some account
  account_row : lookupAccount account.id db = some account
  amount_read : rt.toDecimal input.amount = some amount
  accepted : Financial.budgetRefusal rt input.amount amount account = none
  amount_stored : rt.storeText input.amount = some stored
  reservation_new : lookupReservation ids.reservation db = none
  row_change : Financial.reserveChange rt account amount = some change

/-- Where nothing was ever registered or requested, minting succeeds once
the budget is granted. -/
theorem mint_first {rt : Runtime} {input : RevalidateInput}
    {policy : PolicyReading} {now : ℤ} {ids : MintIds} {db : Database}
    {account : FinancialAccount} {amount : Decimal} {stored : ℚ}
    {change : FinancialAccount → FinancialAccount}
    (hrecords : db.idempotencyRecords = [])
    (hrequests : db.executionRequests = [])
    (hcompany : companyExists input.companyId db = true)
    (hgrants : Grants rt input ids account amount stored change db) :
    ∃ db', mint rt input policy now ids db =
      (.ok (minted (newRequest rt input policy now ids.executionRequest)
        ids.reservation), db') := by
  let record := Idempotency.newRecord rt (registration rt input)
    ids.idempotency
  let res := Financial.newReservation (reserveInput input) account.id stored
    ids.reservation
  let request := newRequest rt input policy now ids.executionRequest
  let mid := idempotencyTable.insert record db
  let held := Financial.updateAccount account.id change
    (Financial.insertReservation res mid)
  have hregister : Idempotency.register rt (registration rt input)
      ids.idempotency db = (.ok (.new, record), mid) :=
    Idempotency.register_first hrecords
  have hexisting : findExisting rt input mid = none := by
    change db.executionRequests.find? _ = none
    rw [hrequests, List.find?_nil]
  have hreserve : Financial.reserve rt (reserveInput input) ids.account
      ids.reservation mid = (.ok res, held) :=
    Financial.reserve_of_budget
      (Financial.ensureAccount_of_found hgrants.account_found)
      hgrants.account_row hgrants.amount_read hgrants.accepted
      hgrants.amount_stored hgrants.reservation_new hgrants.row_change
  have hallowed : requestAllowed request held = true := by
    change (companyExists input.companyId db &&
      db.executionRequests.all _) = true
    rw [hcompany, hrequests, List.all_nil, Bool.and_true]
  have hcreate : executionRequestTable.create Failure.constraint
      (requestAllowed request) request held =
        (.ok request, executionRequestTable.insert request held) := by
    refine Table.create_eq_ok.mpr ⟨?_, hallowed, rfl, rfl⟩
    change KeyedTable.lookup _ _ db.executionRequests = none
    rw [hrequests]
    rfl
  have hbound : reservationTable.lookup res.id
      (executionRequestTable.insert request held) = some res := by
    change lookupReservation ids.reservation
      (Financial.insertReservation res db) = some res
    have hid : res.id = ids.reservation := rfl
    rw [Financial.lookupReservation_insertReservation,
      hgrants.reservation_new, if_pos hid, Option.none_or]
  have hbind : reservationTable.update Failure.recordNotFound res.id
      (bindTo request.id) (executionRequestTable.insert request held) =
        (.ok (bindTo request.id res), reservationTable.modify res.id
          (bindTo request.id) (executionRequestTable.insert request held)) :=
    Table.update_eq_ok.mpr ⟨res, hbound, rfl, rfl⟩
  have hauthorize : authorize rt input policy now ids.executionRequest
      res.id held = (.ok (minted request ids.reservation),
        reservationTable.modify res.id (bindTo request.id)
          (executionRequestTable.insert request held)) := by
    unfold authorize
    rw [Fallible.bind_of_ok hcreate]
    exact Fallible.bind_of_ok hbind
  refine ⟨reservationTable.modify res.id (bindTo request.id)
    (executionRequestTable.insert request held), ?_⟩
  unfold mint
  rw [Fallible.bind_of_ok hregister, Fallible.query_bind]
  simp only [hexisting, Fallible.attempt_bind, hreserve]
  exact hauthorize

/-! ## A payment that is authorized -/

def sampleAgent : Agent where
  id := "agent-1"
  companyId := "acme"
  name := "payer"
  purpose := "pay invoices"
  status := .active
  executionMode := .testnet
  activeConstitutionId := some "constitution-1"
  activePolicyId := some "policy-1"

def sampleConstitution : Constitution where
  id := "constitution-1"
  companyId := "acme"
  agentId := "agent-1"
  version := 1
  status := .active
  purpose := "pay invoices"
  configurationJson := .object []
  hash := "constitution-hash"
  createdBy := none
  activatedAt := some 0
  deactivatedAt := none

def sampleCapability : Capability where
  id := "capability-1"
  companyId := "acme"
  agentId := "agent-1"
  parentCapabilityId := none
  action := "PAY"
  asset := some "USDC"
  network := some "base"
  categoryScopeJson := none
  recipientScopeJson := none
  singleTransactionLimit := some 50
  dailyLimit := none
  weeklyLimit := none
  monthlyLimit := none
  validFrom := 0
  expiresAt := none
  status := .active
  createdBy := none
  createdAt := 0
  revokedAt := none

def samplePolicy : Policy where
  id := "policy-1"
  companyId := "acme"
  agentId := some "agent-1"
  name := "spending"
  description := ""
  currentVersion := 1
  status := .active
  createdBy := none

def sampleVersion (rules : List CompiledRule) : PolicyVersion where
  id := "version-1"
  policyId := "policy-1"
  version := 1
  status := .active
  compiledPolicyJson := ⟨some rules⟩
  hash := "version-hash"
  sourceType := none
  sourceReference := none
  activatedAt := some 0
  deactivatedAt := none
  approvedBy := none

def sampleAccount (network : String) : FinancialAccount where
  id := "account-1"
  companyId := "acme"
  agentId := some "agent-1"
  scope := .agent
  scopeKey := "agent-1"
  asset := "USDC"
  network := some network
  currentReserved := 0
  currentCommitted := 0
  limitAmount := some 100

/-- A company with one agent that may pay under the given rules. -/
def sampleDatabase (rules : List CompiledRule) : Database :=
  { Database.empty with
    companies := ["acme"]
    agents := [sampleAgent]
    constitutions := [sampleConstitution]
    capabilities := [sampleCapability]
    policies := [samplePolicy]
    policyVersions := [sampleVersion rules]
    financialAccounts := [sampleAccount "base"] }

def sampleIntent : Intent where
  intentId := "intent-1"
  agentId := "agent-1"
  userGoal := "pay the invoice"
  purpose := "invoice"
  desiredOutcome := "paid"
  autonomyLevel := .automatic
  validFrom := "2026-01-01T00:00:00.000Z"
  validUntil := "2030-01-01T00:00:00.000Z"
  status := .valid
  document := .object []

def sampleProposal : ActionProposal where
  proposalId := "proposal-1"
  intentId := "intent-1"
  agentId := "agent-1"
  actionType := .pay
  purpose := "invoice"
  recipient := some ⟨none, some "0xshop", some "base"⟩
  amount := some ⟨"10", "USDC"⟩
  paymentMethod := none
  network := some "base"
  evidenceIds := []
  trajectoryEventIds := []
  document := .object []

def sampleAssessment : SecurityAssessment where
  assessmentId := "assessment-1"
  proposalId := "proposal-1"
  overallAssessment := ⟨.lowRisk, .proceedCandidate⟩
  modelMetadata := none
  createdAt := "2026-01-01T00:00:00.000Z"
  document := .object []

def sampleAnalysis : TransactionAnalysis where
  transactionId := "transaction-1"
  contract := none
  function := none
  recipient := "0xshop"
  amount := "10"
  asset := "USDC"
  riskFlags := []
  status := .valid

/-- The simulation recorded against the payload of the input. -/
def simulated (rt : Runtime) (input : RevalidateInput) : RevalidateInput :=
  { input with simulatedPayloadHash := payloadHash rt input }

def sampleInput : RevalidateInput where
  companyId := "acme"
  agentId := "agent-1"
  decisionId := "decision-1"
  intent := sampleIntent
  proposal := sampleProposal
  securityAssessment := sampleAssessment
  transactionId := "transaction-1"
  analysis := sampleAnalysis
  expectedNetwork := "base"
  actualNetwork := "base"
  simulation := ⟨"transaction-1", .pass⟩
  simulatedPayloadHash := ""
  approvalId := none
  decisionContextHash := ""
  financialScopeKey := "agent-1"
  asset := "USDC"
  amount := "10"
  assessmentMaxAgeMs := none
  simulationRequired := true

def samplePayment : RevalidateInput := simulated .reference sampleInput

/-- 2026-01-01T12:00:00Z. -/
def sampleNow : ℤ := 1767268800000

def sampleIds : MintIds :=
  ⟨"record-1", "account-2", "reservation-1", "request-1"⟩

/-- The account of the sample grants every amount up to its limit. -/
theorem sample_grants (digest : String → String) {input : RevalidateInput}
    {ids : MintIds} {db : Database} {x : ℚ}
    (haccounts : db.financialAccounts = [sampleAccount input.actualNetwork])
    (hreservations : db.financialReservations = [])
    (hbucket : input.companyId = "acme" ∧
      input.financialScopeKey = "agent-1" ∧ input.asset = "USDC")
    (hamount : Reference.decimal? input.amount = some x) (hx : x ≤ 100) :
    Grants (.digesting digest) input ids (sampleAccount input.actualNetwork)
      (.finite x) x
      (fun account => { account with currentReserved := x }) db := by
  have hdecimal : (Runtime.digesting digest).toDecimal input.amount =
      some (.finite x) := by
    change (Reference.decimal? input.amount).map _ = _
    rw [hamount, Option.map_some]
  obtain ⟨hcompany, hscope, hasset⟩ := hbucket
  constructor
  · unfold Financial.findAccount
    rw [haccounts, List.find?_cons_of_pos]
    exact decide_eq_true
      ⟨hcompany.symm, rfl, hscope.symm, hasset.symm, rfl⟩
  · unfold lookupAccount
    rw [haccounts]
    rfl
  · exact hdecimal
  · simp [Financial.budgetRefusal, Financial.projected, sampleAccount,
      Runtime.digesting, Runtime.reference, hx]
  · unfold Runtime.storeText
    rw [hdecimal]
    rfl
  · unfold lookupReservation
    rw [hreservations]
    rfl
  · simp [Financial.reserveChange, Runtime.store, sampleAccount,
      Runtime.digesting, Runtime.reference]

/-- A payment of the sample within its limit is minted, whatever the
digest. -/
theorem minted_digesting (digest : String → String)
    {input : RevalidateInput} {ids : MintIds} {db : Database} {x : ℚ}
    {now : ℤ}
    (hledger : db.financialAccounts = [sampleAccount input.actualNetwork] ∧
      db.financialReservations = [] ∧ db.idempotencyRecords = [] ∧
        db.executionRequests = [] ∧ db.companies = ["acme"])
    (hbucket : input.companyId = "acme" ∧
      input.financialScopeKey = "agent-1" ∧ input.asset = "USDC")
    (hamount : Reference.decimal? input.amount = some x) (hx : x ≤ 100)
    (policy : PolicyReading) :
    ∃ db', mint (.digesting digest) input policy now ids db =
      (.ok (minted (newRequest (.digesting digest) input policy now
        ids.executionRequest) ids.reservation), db') := by
  obtain ⟨haccounts, hreservations, hrecords, hrequests, hcompanies⟩ :=
    hledger
  have hcompany : companyExists input.companyId db = true := by
    rw [companyExists, hcompanies, hbucket.1]
    rfl
  exact mint_first hrecords hrequests hcompany
    (sample_grants digest haccounts hreservations hbucket hamount hx)

theorem sample_mint {input : RevalidateInput} {ids : MintIds}
    {db : Database} {x : ℚ} {now : ℤ}
    (hledger : db.financialAccounts = [sampleAccount input.actualNetwork] ∧
      db.financialReservations = [] ∧ db.idempotencyRecords = [] ∧
        db.executionRequests = [] ∧ db.companies = ["acme"])
    (hbucket : input.companyId = "acme" ∧
      input.financialScopeKey = "agent-1" ∧ input.asset = "USDC")
    (hamount : Reference.decimal? input.amount = some x) (hx : x ≤ 100)
    (policy : PolicyReading) :
    ∃ db', mint .reference input policy now ids db =
      (.ok (minted (newRequest .reference input policy now
        ids.executionRequest) ids.reservation), db') :=
  minted_digesting Reference.sha256Hex hledger hbucket hamount hx policy

end Revalidation
end Orvex
