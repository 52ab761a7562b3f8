import Orvex.Execution.Pipeline

/-!
# What the steps of an execution do

Until it has recorded its submission a call leaves the store alone; then it
waits for the receipt of one hash, and at the end updates its record.  Later
proofs use these rules and never unfold a step again.
-/

namespace Orvex
namespace Execution

/-- The call has not yet handed a transaction to the signer. -/
def Preparing : Point → Prop
  | .checkingChain _ => True
  | .recheckingChain _ _ => True
  | .readingBalance _ _ => True
  | .simulatingTransfer _ _ => True
  | .estimatingGas _ => True
  | _ => False

/-- The call waits for the receipt of this hash. -/
def WaitsFor (txHash : String) : Point → Prop
  | .waitingForReceipt found _ => found = txHash
  | .gettingReceipt found _ => found = txHash
  | .sleeping found _ => found = txHash
  | _ => False

/-- The receipt says that the transaction was reverted. -/
def Reverted : Answer → Prop
  | .receipt receipt => receipt.status = .reverted
  | _ => False

section

variable {deps : PipelineDeps} {request : ExecutionRequest}
  {ctx : AuthorizedContext} {reply : Reply} {shared shared' : Shared}
  {point point' : Point}

/-! ## Before the submission -/

theorem begin_cases (shared : Shared) :
    (∃ prior, shared.store.byKey request.idempotencyKey = some prior ∧
        Pipeline.begin deps request shared =
          Pipeline.returning prior.result) ∨
      shared.store.byKey request.idempotencyKey = none ∧
        (Preparing (Pipeline.begin deps request shared) ∨
          ∃ thrown, Pipeline.begin deps request shared =
            Pipeline.throwing thrown) := by
  unfold Pipeline.begin
  cases hprior : shared.store.byKey request.idempotencyKey with
  | some prior => exact Or.inl ⟨prior, rfl, rfl⟩
  | none =>
      right
      refine ⟨rfl, ?_⟩
      simp only
      split
      next thrown _ => exact Or.inr ⟨thrown, rfl⟩
      next => exact Or.inl trivial

/-- A simulation that did not pass ends the call. -/
theorem submit_of_not_pass {tx : TransactionRequest}
    {status : SimulationStatus} {reason : Option String}
    (hstatus : status ≠ .pass) :
    ∃ thrown, Pipeline.submit deps
      (Pipeline.simulation deps tx status reason) tx =
        Pipeline.throwing thrown := by
  unfold Pipeline.submit assertFresh Pipeline.simulation
  simp only [ne_eq, not_true_eq_false, if_false, hstatus,
    not_false_eq_true, if_true]
  exact ⟨_, rfl⟩

/-- A simulation that passed leads to the signer, or to a submission that
failed before. -/
theorem submit_of_pass {tx : TransactionRequest} {reason : Option String} :
    Pipeline.submit deps (Pipeline.simulation deps tx .pass reason) tx =
        .sending tx ∨
      ∃ thrown, Pipeline.submit deps
        (Pipeline.simulation deps tx .pass reason) tx =
          .submitted (.failed thrown) := by
  unfold Pipeline.submit assertFresh Pipeline.simulation
  simp only [ne_eq, not_true_eq_false, if_false]
  split
  next thrown _ => exact Or.inr ⟨thrown, rfl⟩
  next => exact Or.inl rfl

theorem beginSimulation_cases (tx : TransactionRequest) :
    (∃ sim, simulatedTransfer deps tx = .ok (some sim) ∧
        Pipeline.beginSimulation deps tx = .readingBalance tx sim) ∨
      ∃ thrown, Pipeline.beginSimulation deps tx =
        Pipeline.throwing thrown := by
  unfold Pipeline.beginSimulation
  split
  next thrown _ => exact Or.inr ⟨thrown, rfl⟩
  next =>
    right
    exact submit_of_not_pass (by decide)
  next sim hsim => exact Or.inl ⟨sim, hsim, rfl⟩

theorem assertRequestedChain_eq_ok {requested : ℤ} :
    Pipeline.assertRequestedChain deps requested = .ok () ↔
      requested = deps.rpc.chain.chainId := by
  unfold Pipeline.assertRequestedChain
  split
  next h => simp [h]
  next h => simpa using h

theorem configuredChain_store {cached : Bool} {answer : Answer}
    {checked : Except Thrown Unit × Shared}
    (h : Pipeline.configuredChain deps cached answer shared =
      some checked) : checked.2.store = shared.store := by
  unfold Pipeline.configuredChain at h
  split at h
  next =>
    rw [Option.some.injEq] at h
    rw [← h]
  next =>
    rw [Option.some.injEq] at h
    rw [← h]
  next =>
    split at h
    next =>
      rw [Option.some.injEq] at h
      rw [← h]
    next =>
      rw [Option.some.injEq] at h
      rw [← h]
  next => simp at h

/-- How a step before the submission ends. -/
inductive Prepares (deps : PipelineDeps) (request : ExecutionRequest)
    (ctx : AuthorizedContext) : Point → Reply → Point → Prop
  | thrown (point : Point) (reply : Reply) (thrown : Thrown) :
      Prepares deps request ctx point reply (Pipeline.throwing thrown)
  | prepared (cached again : Bool) (reply : Reply)
      (tx : TransactionRequest)
      (h : Pipeline.prepare deps request ctx reply.now = .ok tx) :
      Prepares deps request ctx (.checkingChain cached) reply
        (.recheckingChain again tx)
  | simulation (cached : Bool) (reply : Reply) (tx : TransactionRequest)
      (sim : SimulatedTransfer)
      (h : simulatedTransfer deps tx = .ok (some sim)) :
      Prepares deps request ctx (.recheckingChain cached tx) reply
        (.readingBalance tx sim)
  | balance (reply : Reply) (tx : TransactionRequest)
      (sim : SimulatedTransfer) :
      Prepares deps request ctx (.readingBalance tx sim) reply
        (.simulatingTransfer tx sim)
  | simulated (reply : Reply) (tx : TransactionRequest)
      (sim : SimulatedTransfer) (h : reply.answer = .simulated) :
      Prepares deps request ctx (.simulatingTransfer tx sim) reply
        (.estimatingGas tx)
  | sending (reply : Reply) (tx : TransactionRequest) :
      Prepares deps request ctx (.estimatingGas tx) reply (.sending tx)
  | refused (reply : Reply) (tx : TransactionRequest) (cause : Thrown) :
      Prepares deps request ctx (.estimatingGas tx) reply
        (.submitted (.failed cause))

/-- A step before the submission leaves the store alone. -/
theorem step_preparing (hpoint : Preparing point)
    (h : Pipeline.step deps request ctx point reply shared =
      some (shared', point')) :
    shared'.store = shared.store ∧
      Prepares deps request ctx point reply point' := by
  unfold Pipeline.step at h
  split at h
  next cached answer _ =>
    obtain ⟨⟨checked, next⟩, hchecked, hnext⟩ := Option.map_eq_some_iff.mp h
    have hstore := configuredChain_store hchecked
    simp only at hnext hstore
    split at hnext
    next =>
      rw [Prod.mk.injEq] at hnext
      obtain ⟨rfl, rfl⟩ := hnext
      exact ⟨hstore, .thrown _ _ _⟩
    next =>
      split at hnext
      next =>
        rw [Prod.mk.injEq] at hnext
        obtain ⟨rfl, rfl⟩ := hnext
        exact ⟨hstore, .thrown _ _ _⟩
      next tx htx =>
        rw [Prod.mk.injEq] at hnext
        obtain ⟨rfl, rfl⟩ := hnext
        exact ⟨hstore, .prepared _ _ _ tx htx⟩
  next tx =>
    obtain ⟨⟨checked, next⟩, hchecked, hnext⟩ := Option.map_eq_some_iff.mp h
    have hstore := configuredChain_store hchecked
    simp only at hnext hstore
    split at hnext
    next =>
      rw [Prod.mk.injEq] at hnext
      obtain ⟨rfl, rfl⟩ := hnext
      exact ⟨hstore, .thrown _ _ _⟩
    next =>
      rw [Prod.mk.injEq] at hnext
      obtain ⟨rfl, rfl⟩ := hnext
      refine ⟨hstore, ?_⟩
      rcases @beginSimulation_cases deps tx with ⟨sim, hsim, heq⟩ |
        ⟨thrown, heq⟩
      · rw [heq]
        exact .simulation _ _ tx sim hsim
      · rw [heq]
        exact .thrown _ _ _
  next tx sim units hanswer =>
    split at h
    next =>
      rw [Option.some.injEq, Prod.mk.injEq] at h
      obtain ⟨rfl, rfl⟩ := h
      obtain ⟨thrown, hsubmit⟩ := @submit_of_not_pass deps tx
        .insufficientFunds (some "insufficient_balance") (by decide)
      rw [hsubmit]
      exact ⟨rfl, .thrown _ _ _⟩
    next =>
      rw [Option.some.injEq, Prod.mk.injEq] at h
      obtain ⟨rfl, rfl⟩ := h
      exact ⟨rfl, .balance _ _ _⟩
  next tx sim hanswer =>
    rw [Option.some.injEq, Prod.mk.injEq] at h
    obtain ⟨rfl, rfl⟩ := h
    exact ⟨rfl, .simulated _ _ _ hanswer⟩
  next tx sim message hanswer =>
    rw [Option.some.injEq, Prod.mk.injEq] at h
    obtain ⟨rfl, rfl⟩ := h
    obtain ⟨thrown, hsubmit⟩ := @submit_of_not_pass deps tx
      (if insufficientReason message then .insufficientFunds else .revert)
      (some message) (by split <;> decide)
    rw [hsubmit]
    exact ⟨rfl, .thrown _ _ _⟩
  next tx units hanswer =>
    rw [Option.some.injEq, Prod.mk.injEq] at h
    obtain ⟨rfl, rfl⟩ := h
    refine ⟨rfl, ?_⟩
    rcases @submit_of_pass deps tx none with hsending | ⟨thrown, hfailed⟩
    · rw [hsending]
      exact .sending _ _
    · rw [hfailed]
      exact .refused _ _ _
  all_goals first
    | exact absurd hpoint id
    | simp at h

/-- The signer answers with a hash, or with an error. -/
theorem step_sending {tx : TransactionRequest}
    (h : Pipeline.step deps request ctx (.sending tx) reply shared =
      some (shared', point')) :
    shared' = shared ∧
      ((∃ txHash, reply.answer = .sent txHash ∧
          point' = .submitted (.hash txHash)) ∨
        ∃ accepted, reply.answer = .sendFailed accepted ∧
          point' = .submitted (.failed (broadcastFailed tx))) := by
  unfold Pipeline.step at h
  cases hanswer : reply.answer with
  | sent txHash =>
      simp only [hanswer, Option.some.injEq, Prod.mk.injEq] at h
      exact ⟨h.1.symm, Or.inl ⟨txHash, rfl, h.2.symm⟩⟩
  | sendFailed accepted =>
      simp only [hanswer, Option.some.injEq, Prod.mk.injEq] at h
      exact ⟨h.1.symm, Or.inr ⟨accepted, rfl, h.2.symm⟩⟩
  | _ => simp [hanswer] at h

theorem step_submitted {submission : Submission}
    (h : Pipeline.step deps request ctx (.submitted submission) reply
      shared = some (shared', point')) :
    (shared', point') =
      Pipeline.record deps request ctx submission reply.now shared := by
  unfold Pipeline.step at h
  cases hanswer : reply.answer with
  | tick =>
      simp only [hanswer, Option.some.injEq] at h
      exact h.symm
  | _ => simp [hanswer] at h

/-! ## After the submission -/

/-- How a step that waits for a receipt ends: it waits on, it throws, or it
records the status that the receipt gives, or UNKNOWN. -/
inductive Waits (deps : PipelineDeps) (request : ExecutionRequest)
    (txHash : String) (reply : Reply) (shared : Shared) :
    Shared → Point → Prop
  | waiting (point' : Point) (h : WaitsFor txHash point') :
      Waits deps request txHash reply shared shared point'
  | thrown (thrown : Thrown) :
      Waits deps request txHash reply shared shared
        (Pipeline.throwing thrown)
  | unknown :
      Waits deps request txHash reply shared
        (Pipeline.finish deps request .unknown txHash reply.now shared).1
        (Pipeline.finish deps request .unknown txHash reply.now shared).2
  | received (receipt : RpcReceipt) (raw : RawReceipt)
      (hanswer : reply.answer = .receipt receipt)
      (hraw : normalizeReceipt deps.viem receipt = some raw) :
      Waits deps request txHash reply shared
        (Pipeline.finish deps request
          (Pipeline.receiptStatus deps.viem raw) txHash reply.now shared).1
        (Pipeline.finish deps request
          (Pipeline.receiptStatus deps.viem raw) txHash reply.now shared).2

theorem poll_waits (txHash : String) (deadline : ℤ) :
    Waits deps request txHash reply shared
      (Pipeline.poll deps request txHash deadline reply.now shared).1
      (Pipeline.poll deps request txHash deadline reply.now shared).2 := by
  unfold Pipeline.poll
  split
  next => exact .waiting _ rfl
  next => exact .unknown

theorem step_waiting {txHash : String} (hpoint : WaitsFor txHash point)
    (h : Pipeline.step deps request ctx point reply shared =
      some (shared', point')) :
    Waits deps request txHash reply shared shared' point' := by
  cases point with
  | waitingForReceipt found deadline =>
      obtain rfl : found = txHash := hpoint
      unfold Pipeline.step at h
      cases hanswer : reply.answer with
      | receipt receipt =>
          simp only [hanswer] at h
          split at h
          next raw hraw =>
            rw [Option.some.injEq] at h
            have hwaits := @Waits.received deps request found reply shared
              receipt raw hanswer hraw
            rw [h] at hwaits
            exact hwaits
          next =>
            rw [Option.some.injEq] at h
            have hwaits := @poll_waits deps request reply shared found
              deadline
            rw [h] at hwaits
            exact hwaits
      | receiptError =>
          simp only [hanswer, Option.some.injEq] at h
          have hwaits := @poll_waits deps request reply shared found deadline
          rw [h] at hwaits
          exact hwaits
      | _ => simp [hanswer] at h
  | gettingReceipt found deadline =>
      obtain rfl : found = txHash := hpoint
      unfold Pipeline.step at h
      simp only at h
      obtain ⟨answer, hfound, hnext⟩ := Option.map_eq_some_iff.mp h
      split at hnext
      next thrown =>
        rw [Prod.mk.injEq] at hnext
        obtain ⟨rfl, rfl⟩ := hnext
        exact .thrown _
      next =>
        rw [Prod.mk.injEq] at hnext
        obtain ⟨rfl, rfl⟩ := hnext
        exact .waiting _ rfl
      next raw =>
        have hreceipt : ∃ receipt, reply.answer = .receipt receipt ∧
            normalizeReceipt deps.viem receipt = some raw := by
          unfold Pipeline.receiptOf at hfound
          split at hfound
          next receipt heq =>
            split at hfound
            next found' hraw =>
              simp only [Option.some.injEq, Except.ok.injEq] at hfound
              exact ⟨receipt, heq, by rw [hraw, hfound]⟩
            next => simp at hfound
          all_goals simp at hfound
        obtain ⟨receipt, hanswer, hraw⟩ := hreceipt
        have hwaits := @Waits.received deps request found reply shared
          receipt raw hanswer hraw
        rw [hnext] at hwaits
        exact hwaits
  | sleeping found deadline =>
      obtain rfl : found = txHash := hpoint
      unfold Pipeline.step at h
      cases hanswer : reply.answer with
      | tick =>
          simp only [hanswer, Option.some.injEq] at h
          have hwaits := @poll_waits deps request reply shared found deadline
          rw [h] at hwaits
          exact hwaits
      | _ => simp [hanswer] at h
  | _ => exact absurd hpoint id

/-- A call that has ended takes no further step. -/
theorem step_done {outcome : Outcome} :
    Pipeline.step deps request ctx (.done outcome) reply shared = none := by
  unfold Pipeline.step
  simp

/-- An execution never waits as a verification does. -/
theorem step_verifying {record : ExecutionRecord} {txHash : String}
    {expectation : AuthorizedExpectation} :
    Pipeline.step deps request ctx (.verifying record txHash expectation)
      reply shared = none := by
  unfold Pipeline.step
  simp

/-- A receipt gives FAILED when it says that the transaction was
reverted. -/
theorem reverted_of_failed {receipt : RpcReceipt} {raw : RawReceipt}
    (hraw : normalizeReceipt deps.viem receipt = some raw)
    (hfailed : Pipeline.receiptStatus deps.viem raw = .failed) :
    receipt.status = .reverted := by
  have hsame : raw.status = receipt.status := by
    unfold normalizeReceipt at hraw
    simp only [Option.bind_eq_bind, Option.pure_def,
      Option.bind_eq_some_iff, Option.some.injEq] at hraw
    obtain ⟨logs, -, rfl⟩ := hraw
    rfl
  rw [← hsame]
  cases hstatus : raw.status with
  | reverted => rfl
  | success =>
      simp [Pipeline.receiptStatus, ReceiptParser.parse, hstatus] at hfailed

/-! ## What a step does to the store -/

@[simp] theorem transactionHash_mkResult (status : ExecutionStatus)
    (txHash : Option String) (now : ℤ) :
    (Pipeline.mkResult deps request status txHash now).transactionHash =
      txHash := rfl

@[simp] theorem executionId_mkResult (status : ExecutionStatus)
    (txHash : Option String) (now : ℤ) :
    (Pipeline.mkResult deps request status txHash now).executionId =
      request.executionId := rfl

@[simp] theorem status_mkResult (status : ExecutionStatus)
    (txHash : Option String) (now : ℤ) :
    (Pipeline.mkResult deps request status txHash now).status = status := rfl

theorem byExecutionId_put_recordOf {store : IdempotencyStore}
    {result : ExecutionResult} (id : String) :
    (store.put (Pipeline.recordOf request ctx result)).byExecutionId id =
      if id = request.executionId then
        some (Pipeline.recordOf request ctx result)
      else store.byExecutionId id :=
  IdempotencyStore.byExecutionId_put _ id

/-- The submission is recorded under the execution and its key: as PENDING
with the hash, after which the call waits, or without a hash, and the call
returns what it recorded. -/
theorem record_cases (submission : Submission) (now : ℤ)
    (shared : Shared) :
    ∃ result,
      (Pipeline.record deps request ctx submission now
          shared).1.store.keyIndex =
        shared.store.keyIndex.set request.idempotencyKey
          request.executionId ∧
      (∀ id, (Pipeline.record deps request ctx submission now
          shared).1.store.byExecutionId id =
        if id = request.executionId then
          some (Pipeline.recordOf request ctx result)
        else shared.store.byExecutionId id) ∧
      result.executionId = request.executionId ∧
      ((∃ txHash deadline, submission = .hash txHash ∧
          result.transactionHash = some txHash ∧ result.status = .pending ∧
          (Pipeline.record deps request ctx submission now shared).2 =
            .waitingForReceipt txHash deadline) ∨
        ∃ cause, submission = .failed cause ∧
          result.transactionHash = none ∧
          (Pipeline.record deps request ctx submission now shared).2 =
            Pipeline.returning result) := by
  unfold Pipeline.record
  cases submission with
  | hash txHash =>
      exact ⟨_, rfl, byExecutionId_put_recordOf, rfl,
        Or.inl ⟨txHash, _, rfl, rfl, rfl, rfl⟩⟩
  | failed cause =>
      simp only
      split
      next =>
        refine ⟨_, ?_, ?_, rfl, Or.inr ⟨cause, rfl, rfl, rfl⟩⟩
        · rw [IdempotencyStore.keyIndex_update]
          rfl
        · intro id
          rw [IdempotencyStore.byExecutionId_update]
          by_cases hsame : id = request.executionId
          · rw [if_pos hsame, if_pos hsame, byExecutionId_put_recordOf,
              if_pos rfl]
            rfl
          · rw [if_neg hsame, if_neg hsame, byExecutionId_put_recordOf,
              if_neg hsame]
      next =>
        exact ⟨_, rfl, byExecutionId_put_recordOf, rfl,
          Or.inr ⟨cause, rfl, rfl, rfl⟩⟩

/-- A step of an execution leaves the records of other executions and the
index of other keys. -/
structure Frame (request : ExecutionRequest) (shared shared' : Shared) :
    Prop where
  records : ∀ id, id ≠ request.executionId →
    shared'.store.byExecutionId id = shared.store.byExecutionId id
  keys : ∀ key, key ≠ request.idempotencyKey →
    shared'.store.keyIndex.get key = shared.store.keyIndex.get key

theorem Frame.of_store (h : shared'.store = shared.store) :
    Frame request shared shared' :=
  ⟨fun id _ => by rw [h], fun key _ => by rw [h]⟩

theorem frame_record (submission : Submission) (now : ℤ) (shared : Shared) :
    Frame request shared
      (Pipeline.record deps request ctx submission now shared).1 := by
  obtain ⟨result, hkeys, hrecords, -⟩ :=
    @record_cases deps request ctx submission now shared
  constructor
  · intro id hid
    rw [hrecords, if_neg hid]
  · intro key hkey
    rw [hkeys, Entries.get_set_of_ne _ _ hkey]

@[simp] theorem keyIndex_finish (status : ExecutionStatus) (txHash : String)
    (now : ℤ) (shared : Shared) :
    (Pipeline.finish deps request status txHash now
      shared).1.store.keyIndex = shared.store.keyIndex := by
  unfold Pipeline.finish
  simp only [IdempotencyStore.keyIndex_update]

@[simp] theorem byExecutionId_finish (status : ExecutionStatus)
    (txHash : String) (now : ℤ) (shared : Shared) (id : String) :
    (Pipeline.finish deps request status txHash now
        shared).1.store.byExecutionId id =
      if id = request.executionId then
        (shared.store.byExecutionId request.executionId).map
          (Pipeline.setResult
            (Pipeline.mkResult deps request status (some txHash) now))
      else shared.store.byExecutionId id := by
  unfold Pipeline.finish
  simp only [IdempotencyStore.byExecutionId_update]

theorem frame_finish (status : ExecutionStatus) (txHash : String) (now : ℤ)
    (shared : Shared) :
    Frame request shared
      (Pipeline.finish deps request status txHash now shared).1 := by
  constructor
  · intro id hid
    rw [byExecutionId_finish, if_neg hid]
  · intro key _
    rw [keyIndex_finish]

/-- A wait goes on or throws and changes nothing, or it ends with a status
that is recorded and returned. -/
theorem Waits.cases {txHash : String}
    (h : Waits deps request txHash reply shared shared' point') :
    (shared' = shared ∧ (WaitsFor txHash point' ∨
        ∃ thrown, point' = Pipeline.throwing thrown)) ∨
      ∃ status,
        shared' = (Pipeline.finish deps request status txHash reply.now
          shared).1 ∧
        point' = Pipeline.returning
          (Pipeline.mkResult deps request status (some txHash) reply.now) ∧
        (status = .unknown ∨ ∃ receipt raw,
          reply.answer = .receipt receipt ∧
            normalizeReceipt deps.viem receipt = some raw ∧
            status = Pipeline.receiptStatus deps.viem raw) := by
  cases h with
  | waiting _ hwaits => exact Or.inl ⟨rfl, Or.inl hwaits⟩
  | thrown thrown => exact Or.inl ⟨rfl, Or.inr ⟨thrown, rfl⟩⟩
  | unknown => exact Or.inr ⟨.unknown, rfl, rfl, Or.inl rfl⟩
  | received receipt raw hanswer hraw =>
      exact Or.inr ⟨_, rfl, rfl, Or.inr ⟨receipt, raw, hanswer, hraw, rfl⟩⟩

theorem Waits.frame {txHash : String}
    (h : Waits deps request txHash reply shared shared' point') :
    Frame request shared shared' := by
  cases h with
  | waiting _ _ => exact .of_store rfl
  | thrown _ => exact .of_store rfl
  | unknown => exact frame_finish _ _ _ _
  | received _ _ _ _ => exact frame_finish _ _ _ _

theorem step_frame
    (h : Pipeline.step deps request ctx point reply shared =
      some (shared', point')) :
    Frame request shared shared' := by
  cases point with
  | checkingChain | recheckingChain | readingBalance | simulatingTransfer
  | estimatingGas => exact .of_store (step_preparing (by exact trivial) h).1
  | sending tx => exact .of_store (congrArg Shared.store (step_sending h).1)
  | submitted submission =>
      have hrecord := congrArg Prod.fst (step_submitted h)
      simp only at hrecord
      rw [hrecord]
      exact frame_record submission reply.now shared
  | waitingForReceipt txHash | gettingReceipt txHash | sleeping txHash =>
      exact (@step_waiting _ _ _ _ _ _ _ _ txHash (by exact rfl) h).frame
  | verifying =>
      rw [step_verifying] at h
      simp at h
  | done =>
      rw [step_done] at h
      simp at h

/-- A verification changes no result and no key. -/
theorem resume_verify {executionId : String}
    (h : Pipeline.resume deps (.verify executionId) point reply shared =
      some (shared', point')) :
    shared'.store.keyIndex = shared.store.keyIndex ∧
      ∀ id, (shared'.store.byExecutionId id).map ExecutionRecord.result =
        (shared.store.byExecutionId id).map ExecutionRecord.result := by
  unfold Pipeline.resume at h
  cases point with
  | verifying record txHash expectation =>
      simp only at h
      obtain ⟨found, -, hend⟩ := Option.map_eq_some_iff.mp h
      unfold Pipeline.endVerify at hend
      split at hend
      next =>
        rw [Prod.mk.injEq] at hend
        rw [← hend.1]
        exact ⟨rfl, fun _ => rfl⟩
      next =>
        rw [Prod.mk.injEq] at hend
        rw [← hend.1]
        exact ⟨rfl, fun _ => rfl⟩
      next =>
        split at hend
        next =>
          rw [Prod.mk.injEq] at hend
          rw [← hend.1]
          exact ⟨rfl, fun _ => rfl⟩
        next verification _ =>
          rw [Prod.mk.injEq] at hend
          rw [← hend.1]
          refine ⟨IdempotencyStore.keyIndex_update _ _, fun id => ?_⟩
          simp only [IdempotencyStore.byExecutionId_update]
          by_cases hsame : id = executionId
          · rw [if_pos hsame, hsame, Option.map_map]
            rfl
          · rw [if_neg hsame]
  | _ => simp at h

end

end Execution
end Orvex
