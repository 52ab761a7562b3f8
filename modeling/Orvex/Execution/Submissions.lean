import Orvex.Execution.Client
import Orvex.Execution.Recipients
import Orvex.Execution.Steps

/-!
# Calls that reach the signer

A call whose transaction can be prepared, and whose questions are answered
well, hands the transaction to the signer, whatever other calls are waiting.
-/

namespace Orvex
namespace Execution

open Awaits (Task Pool Move Program)

/-- The request can be prepared and simulated. -/
structure Acceptable (deps : PipelineDeps) (request : ExecutionRequest)
    (ctx : AuthorizedContext) (now : ℤ) (tx : TransactionRequest)
    (sim : SimulatedTransfer) : Prop where
  chain : ∃ chain, deps.registry.getByNetwork request.network = .ok chain ∧
    chain.chainId = deps.rpc.chain.chainId
  prepared : Pipeline.prepare deps request ctx now = .ok tx
  simulated : simulatedTransfer deps tx = .ok (some sim)
  sender : assertSender deps tx = .ok ()

/-- The call with the index begins, and the RPC answers it well. -/
def wellAnswered (deps : PipelineDeps) (call : Call) (index : ℕ)
    (cached : Bool) (sim : SimulatedTransfer) (now : ℤ) :
    List (Move Call Reply) :=
  [.start call ⟨.tick, now⟩,
    .resume index ⟨if cached then .tick
      else .chainId (some deps.rpc.chain.chainId), now⟩,
    .resume index ⟨.tick, now⟩,
    .resume index ⟨.balance (some sim.amountUnits), now⟩,
    .resume index ⟨.simulated, now⟩, .resume index ⟨.gas none, now⟩]

variable {deps : PipelineDeps} {request : ExecutionRequest}
  {ctx : AuthorizedContext} {now : ℤ} {tx : TransactionRequest}
  {sim : SimulatedTransfer} {shared : Shared}

/-- What the chain check makes of a good answer. -/
theorem configuredChain_answered (shared : Shared) :
    ∃ next : Shared,
      Pipeline.configuredChain deps shared.verifiedChainId.isSome
          (if shared.verifiedChainId.isSome then .tick
            else .chainId (some deps.rpc.chain.chainId)) shared =
        some (.ok (), next) ∧
      next.store = shared.store ∧ next.verifiedChainId.isSome = true := by
  cases hcached : shared.verifiedChainId.isSome with
  | true => exact ⟨shared, rfl, rfl, hcached⟩
  | false =>
      refine ⟨{ shared with
        verifiedChainId := some deps.rpc.chain.chainId }, ?_, rfl, rfl⟩
      simp [Pipeline.configuredChain]

theorem submit_passed (hsender : assertSender deps tx = .ok ()) :
    Pipeline.submit deps (Pipeline.simulation deps tx .pass none) tx =
      .sending tx := by
  unfold Pipeline.submit assertFresh Pipeline.simulation
  simp only [ne_eq, not_true_eq_false, if_false, hsender]

theorem reaches_signer (h : Acceptable deps request ctx now tx sim)
    (hnew : shared.store.byKey request.idempotencyKey = none)
    (tasks : List (Task Call Point Reply)) :
    ∃ (next : Shared) (past : List (Point × Reply)),
      (Pipeline.program deps).run ⟨shared, tasks⟩
          (wellAnswered deps (.execute request ctx) tasks.length
            shared.verifiedChainId.isSome sim now) =
        some ⟨next, tasks ++ [⟨.execute request ctx, .sending tx, past⟩]⟩ ∧
      next.store = shared.store ∧ next.verifiedChainId.isSome = true := by
  obtain ⟨chain, hchain, hid⟩ := h.chain
  obtain ⟨next, hconfigured, hstore, hverified⟩ :=
    @configuredChain_answered deps shared
  have hbegin : Pipeline.begin deps request shared =
      .checkingChain shared.verifiedChainId.isSome := by
    unfold Pipeline.begin
    rw [hnew]
    simp only [hchain, Fallible.result_ok_bind]
    rw [assertRequestedChain_eq_ok.mpr hid]
  have hchecked : Pipeline.step deps request ctx
      (.checkingChain shared.verifiedChainId.isSome)
      ⟨if shared.verifiedChainId.isSome then .tick
        else .chainId (some deps.rpc.chain.chainId), now⟩ shared =
      some (next, .recheckingChain next.verifiedChainId.isSome tx) := by
    simp only [Pipeline.step, hconfigured, Option.map_some, h.prepared]
  have hrechecked : Pipeline.step deps request ctx
      (.recheckingChain next.verifiedChainId.isSome tx) ⟨.tick, now⟩ next =
      some (next, .readingBalance tx sim) := by
    simp only [Pipeline.step, hverified, Pipeline.configuredChain,
      Option.map_some, Pipeline.beginSimulation, h.simulated]
  have hbalance : Pipeline.step deps request ctx (.readingBalance tx sim)
      ⟨.balance (some sim.amountUnits), now⟩ next =
      some (next, .simulatingTransfer tx sim) := by
    simp [Pipeline.step]
  have hsimulated : Pipeline.step deps request ctx
      (.simulatingTransfer tx sim) ⟨.simulated, now⟩ next =
      some (next, .estimatingGas tx) := rfl
  have hgas : Pipeline.step deps request ctx (.estimatingGas tx)
      ⟨.gas none, now⟩ next = some (next, .sending tx) := by
    simp only [Pipeline.step, submit_passed h.sender]
  unfold wellAnswered
  rw [Program.run_cons Program.move_start]
  change ∃ final past, (Pipeline.program deps).run ⟨shared, tasks ++
    [⟨.execute request ctx, Pipeline.begin deps request shared, []⟩]⟩ _ =
      some ⟨final, _⟩ ∧ _
  rw [hbegin, Program.run_resume_last hchecked,
    Program.run_resume_last hrechecked, Program.run_resume_last hbalance,
    Program.run_resume_last hsimulated, Program.run_resume_last hgas]
  exact ⟨next, _, rfl, hstore, hverified⟩

/-! ## A payment of 10 USDC on Base Sepolia -/

def payee : String := "0x2222222222222222222222222222222222222222"

def sepoliaToken : String := "0x036CbD53842c5426634e7929541eC2318f3dCF7e"

/-- The calldata of a transfer of 10 USDC to the payee. -/
def payeeCalldata : String :=
  "0xa9059cbb" ++
    "0000000000000000000000002222222222222222222222222222222222222222" ++
    "0000000000000000000000000000000000000000000000000000000000989680"

def sepoliaDeps : PipelineDeps where
  rt := .reference
  viem := .ofTables
    [(paymentSender, paymentSender), (payee, payee),
      (sepoliaToken, sepoliaToken)]
    [((payee, 10000000), payeeCalldata)] []
  registry := ⟨none, none⟩
  rpc := ⟨baseSepolia, false, by decide⟩
  sender := paymentSender
  timeoutMs := 60000

theorem sepoliaDeps_lawful : sepoliaDeps.viem.Lawful :=
  Viem.lawful_ofTables (by decide) (by decide)
    (by decide +kernel) (by decide +kernel)

def payeeContext : AuthorizedContext := paymentContext payee "10"

theorem payee_acceptable :
    ∃ tx sim, Acceptable sepoliaDeps firstRequest payeeContext 0 tx sim := by
  have hchain : sepoliaDeps.registry.getByNetwork firstRequest.network =
      .ok (sepoliaDeps.registry.baseSepoliaChain) :=
    ChainRegistry.getByNetwork_eq_ok.mpr (by decide)
  have hanswers :
      ((Pipeline.prepare sepoliaDeps firstRequest payeeContext
        0).toOption.bind (fun tx =>
          (simulatedTransfer sepoliaDeps tx).toOption.bind (fun sim =>
            sim.bind (fun _ => (assertSender sepoliaDeps tx).toOption)))) =
        some () := by
    decide +kernel
  obtain ⟨tx, hprepared, hrest⟩ := Option.bind_eq_some_iff.mp hanswers
  rw [Option.bind_eq_some_iff] at hrest
  obtain ⟨answer, hsimulated, hsender⟩ := hrest
  rw [Option.bind_eq_some_iff] at hsender
  obtain ⟨sim, rfl, hsender⟩ := hsender
  exact ⟨tx, sim, ⟨_, hchain, rfl⟩, eq_ok_of_toOption hprepared,
    eq_ok_of_toOption hsimulated, eq_ok_of_toOption hsender⟩

/-! ## A payment whose receipt came too late -/

/-- The RPC fails to give a receipt before the deadline of the call. -/
def lateReceipt (sim : SimulatedTransfer) : List (Move Call Reply) :=
  wellAnswered sepoliaDeps (.execute firstRequest payeeContext) 0 false sim 0
    ++ [.resume 0 ⟨.sent "0xhash", 0⟩, .resume 0 ⟨.tick, 0⟩,
      .resume 0 ⟨.receiptError, 60000⟩]

def unknownResult : ExecutionResult :=
  Pipeline.mkResult sepoliaDeps firstRequest .unknown (some "0xhash") 60000

/-- The record that the call leaves. -/
def unknownRecorded (shared : Shared) : Shared :=
  { shared with
    store := (shared.store.put (Pipeline.recordOf firstRequest payeeContext
      (Pipeline.mkResult sepoliaDeps firstRequest .pending (some "0xhash")
        0))).update "exec-1" (Pipeline.setResult unknownResult) }

theorem byExecutionId_unknownRecorded (shared : Shared) :
    (unknownRecorded shared).store.byExecutionId "exec-1" =
      some (Pipeline.recordOf firstRequest payeeContext unknownResult) := by
  unfold unknownRecorded
  simp only [IdempotencyStore.byExecutionId_update, if_true,
    IdempotencyStore.byExecutionId_put]
  rfl

theorem lateReceipt_ends :
    ∃ tx sim past shared,
      (Pipeline.program sepoliaDeps).run ⟨⟨.empty, none⟩, []⟩
          (lateReceipt sim) =
        some ⟨unknownRecorded shared,
          [⟨.execute firstRequest payeeContext,
            Pipeline.returning unknownResult, past⟩]⟩ ∧
      (.sending tx, ⟨.sent "0xhash", 0⟩) ∈ past := by
  obtain ⟨tx, sim, hacceptable⟩ := payee_acceptable
  obtain ⟨next, past, hrun, -, -⟩ :=
    @reaches_signer sepoliaDeps firstRequest payeeContext 0 tx sim
      ⟨.empty, none⟩ hacceptable rfl []
  have hsending : (Pipeline.program sepoliaDeps).resume
      (.execute firstRequest payeeContext) (.sending tx)
      ⟨.sent "0xhash", 0⟩ next =
      some (next, .submitted (.hash "0xhash")) := rfl
  have hrecord : (Pipeline.program sepoliaDeps).resume
      (.execute firstRequest payeeContext) (.submitted (.hash "0xhash"))
      ⟨.tick, 0⟩ next =
      some ({ next with
        store := next.store.put (Pipeline.recordOf firstRequest payeeContext
          (Pipeline.mkResult sepoliaDeps firstRequest .pending
            (some "0xhash") 0)) }, .waitingForReceipt "0xhash" 60000) := rfl
  have hlate : (Pipeline.program sepoliaDeps).resume
      (.execute firstRequest payeeContext)
      (.waitingForReceipt "0xhash" 60000) ⟨.receiptError, 60000⟩
      { next with
        store := next.store.put (Pipeline.recordOf firstRequest payeeContext
          (Pipeline.mkResult sepoliaDeps firstRequest .pending
            (some "0xhash") 0)) } =
      some (unknownRecorded next, Pipeline.returning unknownResult) := rfl
  refine ⟨tx, sim, past ++ [(.sending tx, ⟨.sent "0xhash", 0⟩)] ++
    [(.submitted (.hash "0xhash"), ⟨.tick, 0⟩)] ++
    [(.waitingForReceipt "0xhash" 60000, ⟨.receiptError, 60000⟩)], next, ?_,
    by simp⟩
  have hfirst : (Pipeline.program sepoliaDeps).run ⟨⟨.empty, none⟩, []⟩
      (wellAnswered sepoliaDeps (.execute firstRequest payeeContext) 0 false
        sim 0) = some ⟨next, [] ++ [⟨.execute firstRequest payeeContext,
          .sending tx, past⟩]⟩ := hrun
  rw [lateReceipt, Program.run_append, hfirst, Option.bind_some]
  have hsecond := @Program.run_resume_last _ _ _ _
    (Pipeline.program sepoliaDeps) next _ []
    ⟨.execute firstRequest payeeContext, .sending tx, past⟩ _ _
    [.resume 0 ⟨.tick, 0⟩, .resume 0 ⟨.receiptError, 60000⟩] hsending
  rw [List.length_nil] at hsecond
  rw [hsecond]
  have hthird := @Program.run_resume_last _ _ _ _
    (Pipeline.program sepoliaDeps) next _ []
    (Task.next ⟨.execute firstRequest payeeContext, .sending tx, past⟩
      ⟨.sent "0xhash", 0⟩ (.submitted (.hash "0xhash"))) _ _
    [.resume 0 ⟨.receiptError, 60000⟩] hrecord
  rw [List.length_nil] at hthird
  rw [hthird]
  exact Program.run_resume_last hlate

end Execution
end Orvex
