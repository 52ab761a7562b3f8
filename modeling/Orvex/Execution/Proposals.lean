import Orvex.Execution.Client
import Orvex.Execution.Transactions
import Orvex.Gate.TransactionGate

/-!
# From a proposal to a transaction

The core normalizes an approved proposal into an intent, the executor builds
the transaction of the intent, and the core compares the analysis of that
transaction with the proposal.

The core names its action types in capitals and the builder expects them in
small letters, so no proposal is ever built.
-/

namespace Orvex
namespace Execution

def normalizeToTransactionIntent (proposal : ActionProposal)
    (transactionId : String) : TransactionIntent :=
  { transactionId := transactionId
    proposalId := proposal.proposalId
    actionType := proposal.actionType.text
    network := (proposalNetwork proposal).getD ""
    asset := ⟨(proposal.amount.map Money.currency).getD "", none, none⟩
    amount := (proposal.amount.map Money.value).getD "0"
    recipient := ⟨(proposalRecipient proposal).getD ""⟩
    paymentMethod := proposal.paymentMethod }

/-- The intent is built, and its transaction matches the proposal. -/
def Survives (rt : Runtime) (viem : Viem) (registry : ChainRegistry)
    (proposal : ActionProposal) (intent : TransactionIntent)
    (ctx : BuildContext) (createdAt : String) (simple : Bool) : Prop :=
  ∃ tx analysis,
    TransactionBuilder.build viem registry intent ctx createdAt = .ok tx ∧
    TransactionAnalyzer.analyze viem registry tx = .ok analysis ∧
    (Gate.compareProposalVsTransaction rt proposal analysis
      { expectedNetwork := (proposalNetwork proposal).getD ""
        actualNetwork := tx.chain.name
        expectSimplePayment := simple }).status = .matched

/-- What a transferable proposal is: its recipient, currency, network and
amount are ones that the executor can send. -/
structure Transferable (viem : Viem) (registry : ChainRegistry)
    (proposal : ActionProposal) : Prop where
  action : proposal.actionType = .pay ∨ proposal.actionType = .transfer
  recipient : ∃ address, proposalRecipient proposal = some address ∧
    viem.isAddress address = true
  network : ∃ network usdc address,
    proposalNetwork proposal = some network ∧
      registry.usdc network = .ok usdc ∧ usdc.address = some address ∧
      viem.isAddress address = true
  amount : ∃ money value places, proposal.amount = some money ∧
    money.currency = "USDC" ∧ Reads money.value value places ∧
    places ≤ usdcDecimals ∧ 0 < value

theorem build_of_other_action {viem : Viem} {registry : ChainRegistry}
    {intent : TransactionIntent} {ctx : BuildContext} {createdAt : String}
    (hpayment : intent.actionType ≠ "payment")
    (htransfer : intent.actionType ≠ "transfer") :
    TransactionBuilder.build viem registry intent ctx createdAt =
      .error (.of .buildError
        "Unsupported action_type for V1 USDC transfer."
        [("action_type", .string intent.actionType)]) := by
  unfold TransactionBuilder.build
  rw [if_pos ⟨hpayment, htransfer⟩]

/-- No action type of the core is one that the builder expects. -/
theorem actionType_text_ne (action : ActionType) :
    action.text ≠ "payment" ∧ action.text ≠ "transfer" := by
  cases action <;> decide

/-- The builder refuses the intent of every proposal. -/
theorem build_normalized (viem : Viem) (registry : ChainRegistry)
    (proposal : ActionProposal) (transactionId : String)
    (ctx : BuildContext) (createdAt : String) :
    TransactionBuilder.build viem registry
        (normalizeToTransactionIntent proposal transactionId) ctx createdAt =
      .error (.of .buildError
        "Unsupported action_type for V1 USDC transfer."
        [("action_type", .string proposal.actionType.text)]) :=
  build_of_other_action (actionType_text_ne proposal.actionType).1
    (actionType_text_ne proposal.actionType).2

/-- No proposal survives the trip to the executor. -/
theorem proposals_never_survive (rt : Runtime) (viem : Viem)
    (registry : ChainRegistry) (proposal : ActionProposal)
    (transactionId : String) (ctx : BuildContext) (createdAt : String)
    (simple : Bool) :
    ¬ Survives rt viem registry proposal
      (normalizeToTransactionIntent proposal transactionId) ctx createdAt
      simple := by
  rintro ⟨tx, analysis, hbuild, -, -⟩
  rw [build_normalized] at hbuild
  simp at hbuild

def paymentProposal : ActionProposal :=
  { proposalId := "prop-1"
    intentId := "intent-1"
    agentId := "agent-1"
    actionType := .pay
    purpose := "invoice"
    recipient := some
      ⟨none, some "0x2222222222222222222222222222222222222222", none⟩
    amount := some ⟨"5.25", "USDC"⟩
    paymentMethod := none
    network := some "base-sepolia"
    evidenceIds := []
    trajectoryEventIds := []
    document := .null }

theorem reads_payment_amount : Reads "5.25" (21 / 4) 2 := by
  refine ⟨['5'], ['2', '5'], by decide, ?_, rfl⟩
  have hdigits : bigInt (['5'] ++ ['2', '5']) = 525 := by
    simp [bigInt, Nat.ofDigitChars]
  rw [decimalValue, hdigits]
  norm_num

/-- A payment of 5.25 USDC on Base Sepolia is refused by the builder. -/
theorem payment_is_not_built :
    let registry : ChainRegistry := ⟨none, none⟩
    Transferable letterlessViem registry paymentProposal ∧
    ∀ rt transactionId ctx createdAt simple,
      ¬ Survives rt letterlessViem registry paymentProposal
        (normalizeToTransactionIntent paymentProposal transactionId) ctx
        createdAt simple := by
  intro registry
  have hasset : registry.usdc "base-sepolia" = .ok
      { symbol := "USDC"
        address := some "0x036CbD53842c5426634e7929541eC2318f3dCF7e"
        decimals := usdcDecimals } := by
    have hget : registry.getByNetwork "base-sepolia" = .ok baseSepolia :=
      ChainRegistry.getByNetwork_eq_ok.mpr (by decide)
    simp only [ChainRegistry.usdc, hget, Fallible.result_ok_bind]
    rfl
  constructor
  · exact
      { action := Or.inl rfl
        recipient := ⟨_, rfl, rfl⟩
        network := ⟨_, _, _, rfl, hasset, rfl, rfl⟩
        amount := ⟨_, 21 / 4, 2, rfl, rfl, reads_payment_amount, by decide,
          by norm_num⟩ }
  · rintro rt transactionId ctx createdAt simple ⟨tx, analysis, hbuild, -, -⟩
    rw [build_normalized] at hbuild
    simp at hbuild

end Execution
end Orvex
