import Orvex.Core.Coercion
import Orvex.Core.Contracts

/-!
# The transaction gate

The gate compares the proposal with the transaction that will execute, and
binds a simulation to the exact payload it was run on.
-/

namespace Orvex

inductive TransactionGateStatus where
  | matched | mismatch
  deriving DecidableEq

structure FieldMismatch where
  field : String
  expected : Option String
  actual : Option String
  deriving DecidableEq

structure TransactionGateResult where
  status : TransactionGateStatus
  mismatches : List FieldMismatch
  deriving DecidableEq

inductive SimulationBindingStatus where
  | valid | stale | wrongTransaction | wrongPayload
  deriving DecidableEq

def SimulationBindingStatus.text : SimulationBindingStatus → String
  | .valid => "VALID"
  | .stale => "STALE"
  | .wrongTransaction => "WRONG_TRANSACTION"
  | .wrongPayload => "WRONG_PAYLOAD"

structure SimulationBindingResult where
  status : SimulationBindingStatus
  reason : Option String
  deriving DecidableEq

inductive SimulationOutcome where
  | continues | deny | review | failClosed
  deriving DecidableEq

namespace Gate

/-- Exact decimal equality; texts that cannot be read are not equal. -/
def amountsEqual (rt : Runtime) (a b : Option String) : Bool :=
  match a, b with
  | none, none => true
  | some x, some y =>
      match rt.toDecimal x, rt.toDecimal y with
      | some d, some e => d.equals e
      | _, _ => false
  | _, _ => false

structure GateContext where
  expectedNetwork : String
  actualNetwork : String
  /-- For a simple payment an arbitrary contract call is a mismatch. -/
  expectSimplePayment : Bool
  deriving DecidableEq

def mismatchIf (condition : Bool) (field : String)
    (expected actual : Option String) : List FieldMismatch :=
  if condition then [⟨field, expected, actual⟩] else []

def paymentFunctions : List String := ["transfer", "transferFrom", "pay"]

def paymentMismatches (analysis : TransactionAnalysis) :
    List FieldMismatch :=
  let name := analysis.function.map FunctionRef.name
  mismatchIf (truthy name && !paymentFunctions.contains (name.getD ""))
      "function" (some "transfer|pay") name ++
    mismatchIf (!analysis.riskFlags.isEmpty) "risk_flags" (some "none")
      (some (",".intercalate analysis.riskFlags))

def fieldMismatches (rt : Runtime) (proposal : ActionProposal)
    (analysis : TransactionAnalysis) (context : GateContext) :
    List FieldMismatch :=
  let expectedRecipient := proposalRecipient proposal
  let expectedAmount := proposal.amount.map Money.value
  let expectedAsset := proposal.amount.map Money.currency
  mismatchIf (expectedRecipient != some analysis.recipient) "recipient"
      expectedRecipient (some analysis.recipient) ++
    mismatchIf (!amountsEqual rt expectedAmount (some analysis.amount))
      "amount" expectedAmount (some analysis.amount) ++
    mismatchIf (expectedAsset != some analysis.asset) "asset" expectedAsset
      (some analysis.asset) ++
    mismatchIf (context.expectedNetwork != context.actualNetwork) "network"
      (some context.expectedNetwork) (some context.actualNetwork) ++
    mismatchIf (analysis.status != .valid) "analysis.status" (some "VALID")
      (some analysis.status.text) ++
    if context.expectSimplePayment then paymentMismatches analysis else []

def compareProposalVsTransaction (rt : Runtime) (proposal : ActionProposal)
    (analysis : TransactionAnalysis) (context : GateContext) :
    TransactionGateResult :=
  let mismatches := fieldMismatches rt proposal analysis context
  ⟨if mismatches.length = 0 then .matched else .mismatch, mismatches⟩

structure PayloadInput where
  transactionId : String
  network : String
  recipient : String
  amount : String
  asset : String
  contractAddress : Option String
  functionSelector : Option String
  deriving DecidableEq

def transactionPayloadHash (rt : Runtime) (input : PayloadInput) : String :=
  sha256Json rt (.object
    [("transactionId", .string input.transactionId),
      ("network", .string input.network),
      ("recipient", .string input.recipient),
      ("amount", .string input.amount), ("asset", .string input.asset),
      ("contractAddress", nullable input.contractAddress),
      ("functionSelector", nullable input.functionSelector)])

/-! ## Simulation -/

def validateSimulationBinding (simulation : SimulationResult)
    (transactionId simulatedPayloadHash currentPayloadHash : String) :
    SimulationBindingResult :=
  if simulation.transactionId ≠ transactionId then
    ⟨.wrongTransaction,
      some ("Simulation is for transaction " ++ simulation.transactionId ++
        ", not " ++ transactionId ++ ".")⟩
  else if simulatedPayloadHash ≠ currentPayloadHash then
    ⟨.stale, some
      "Transaction payload changed after simulation; simulation is stale."⟩
  else ⟨.valid, none⟩

def classifySimulation (simulation : SimulationResult) : SimulationOutcome :=
  match simulation.status with
  | .pass => .continues
  | .revert => .deny
  | .insufficientFunds => .deny
  | .unexpectedStateChange => .review
  | .error => .failClosed
  | .unsupported => .failClosed

/-! ## What the gate guarantees -/

@[simp] theorem mismatchIf_eq_nil {condition : Bool} {field : String}
    {expected actual : Option String} :
    mismatchIf condition field expected actual = [] ↔ condition = false := by
  unfold mismatchIf
  split
  next h => simp [h]
  next h => simp [h]

/-- Two texts stand for the same decimal. -/
def SameDecimal (rt : Runtime) (a b : String) : Prop :=
  ∃ d e, rt.toDecimal a = some d ∧ rt.toDecimal b = some e ∧
    d.equals e = true

theorem amountsEqual_some {rt : Runtime} {a : Option String} {b : String} :
    amountsEqual rt a (some b) = true ↔
      ∃ text, a = some text ∧ SameDecimal rt text b := by
  cases a with
  | none => simp [amountsEqual]
  | some text =>
      simp only [amountsEqual, Option.some.injEq, exists_eq_left',
        SameDecimal]
      cases rt.toDecimal text with
      | none => simp
      | some d =>
          cases rt.toDecimal b with
          | none => simp
          | some e => simp

/-- The function of a simple payment: absent, unnamed, or a transfer. -/
def PlainPayment (analysis : TransactionAnalysis) : Prop :=
  analysis.riskFlags = [] ∧
    ∀ fn, analysis.function = some fn →
      fn.name = "" ∨ fn.name ∈ paymentFunctions

theorem paymentMismatches_eq_nil {analysis : TransactionAnalysis} :
    paymentMismatches analysis = [] ↔ PlainPayment analysis := by
  unfold paymentMismatches PlainPayment
  simp only [List.append_eq_nil_iff, mismatchIf_eq_nil, Bool.not_eq_false',
    List.isEmpty_iff, Bool.and_eq_false_iff]
  cases hfunction : analysis.function with
  | none => simp
  | some fn =>
      simp only [Option.map_some, Option.getD_some, Option.some.injEq,
        forall_eq', truthy, bne_eq_false_iff_eq]
      rw [List.contains_iff_mem]
      tauto

/-- The transaction is the one that the proposal asked for. -/
structure Matches (rt : Runtime) (proposal : ActionProposal)
    (analysis : TransactionAnalysis) (context : GateContext) : Prop where
  recipient : proposalRecipient proposal = some analysis.recipient
  amount : ∃ money, proposal.amount = some money ∧
    SameDecimal rt money.value analysis.amount ∧
      money.currency = analysis.asset
  network : context.expectedNetwork = context.actualNetwork
  status : analysis.status = .valid
  payment : context.expectSimplePayment = true → PlainPayment analysis

theorem fieldMismatches_eq_nil {rt : Runtime} {proposal : ActionProposal}
    {analysis : TransactionAnalysis} {context : GateContext} :
    fieldMismatches rt proposal analysis context = [] ↔
      Matches rt proposal analysis context := by
  unfold fieldMismatches
  simp only [List.append_eq_nil_iff, mismatchIf_eq_nil,
    bne_eq_false_iff_eq, Bool.not_eq_false', amountsEqual_some]
  constructor
  · rintro ⟨⟨⟨⟨⟨hrecipient, hamount⟩, hasset⟩, hnetwork⟩, hstatus⟩,
      hpayment⟩
    obtain ⟨text, htext, hsame⟩ := hamount
    obtain ⟨money, hmoney, rfl⟩ := Option.map_eq_some_iff.mp htext
    rw [hmoney, Option.map_some, Option.some.injEq] at hasset
    refine ⟨hrecipient, ⟨money, hmoney, hsame, hasset⟩, hnetwork, hstatus,
      fun hsimple => ?_⟩
    rw [if_pos hsimple] at hpayment
    exact paymentMismatches_eq_nil.mp hpayment
  · intro h
    obtain ⟨money, hmoney, hsame, hasset⟩ := h.amount
    refine ⟨⟨⟨⟨⟨h.recipient, money.value, ?_, hsame⟩, ?_⟩, h.network⟩,
      h.status⟩, ?_⟩
    · rw [hmoney, Option.map_some]
    · rw [hmoney, Option.map_some, hasset]
    · split
      next hsimple => exact paymentMismatches_eq_nil.mpr (h.payment hsimple)
      next => rfl

theorem compare_mismatch_iff {rt : Runtime} {proposal : ActionProposal}
    {analysis : TransactionAnalysis} {context : GateContext} :
    (compareProposalVsTransaction rt proposal analysis context).status ≠
        .mismatch ↔ Matches rt proposal analysis context := by
  rw [← fieldMismatches_eq_nil]
  simp only [compareProposalVsTransaction, List.length_eq_zero_iff]
  split
  next h => simp [h]
  next h => simp [h]

theorem binding_valid_iff {simulation : SimulationResult}
    {transactionId simulated current : String} :
    (validateSimulationBinding simulation transactionId simulated
        current).status = .valid ↔
      simulation.transactionId = transactionId ∧ simulated = current := by
  unfold validateSimulationBinding
  split
  next h => simp [h]
  next h =>
    split
    next h' => simp [h']
    next h' => simp_all

end Gate
end Orvex
