import Orvex.Execution.Failures

/-!
# Outcomes that stay unknown

`getResult` answers from the record, and only the call that broadcast writes
its status.  Once that call has ended with PENDING or UNKNOWN on record,
nothing reads the chain for it again.
-/

namespace Orvex
namespace Execution

open Awaits (Task Pool Move Program)
open Awaits.Program (mem_set_cases)

/-- The result that a receipt of the transaction calls for. -/
def Resolves (receipt : RpcReceipt) (result : ExecutionResult) : Prop :=
  result.status =
    if receipt.status = .success then .confirmed else .failed

/-- The core asks this pipeline, and is answered with what is recorded. -/
def Answers (client : ExecutionResults.ExecutionClient) (shared : Shared) :
    Prop :=
  ∀ id result, Pipeline.getResult shared id = .ok result →
    client.getResult id = .ok (clientStatus result.status)

/-- The calls for the execution have ended. -/
def Ended (id : String) (pool : Pool Shared Call Point Reply) : Prop :=
  ∀ task ∈ pool.tasks, task.call.executionId = some id →
    ∃ outcome, task.point = .done outcome

/-- A further call for the execution is answered from the store. -/
def AnsweredFromStore (id : String) (pool : Pool Shared Call Point Reply) :
    Move Call Reply → Prop
  | .start (.execute request _) _ => request.executionId = id →
      pool.shared.store.byKey request.idempotencyKey ≠ none
  | _ => True

/-- What is recorded of the execution, whose calls have ended. -/
structure Settled (id : String) (result : ExecutionResult)
    (pool : Pool Shared Call Point Reply) : Prop where
  recorded : (pool.shared.store.byExecutionId id).map
    ExecutionRecord.result = some result
  ended : Ended id pool

variable {deps : PipelineDeps} {id : String} {result : ExecutionResult}
  {pool pool' : Pool Shared Call Point Reply}

theorem Settled.getResult (h : Settled id result pool) :
    Pipeline.getResult pool.shared id = .ok result := by
  obtain ⟨record, hrecord, hsame⟩ := Option.map_eq_some_iff.mp h.recorded
  simp only [Pipeline.getResult, hrecord, hsame]

theorem Settled.start (h : Settled id result pool) {call : Call}
    {reply : Reply} (hanswered : AnsweredFromStore id pool (.start call reply))
    (hmove : (Pipeline.program deps).move pool (.start call reply) =
      some pool') : Settled id result pool' := by
  rw [Program.move_start, Option.some.injEq] at hmove
  subst hmove
  cases call with
  | verify executionId =>
      refine ⟨h.recorded, fun task hmem hid => ?_⟩
      rcases List.mem_append.mp hmem with hold | hnew
      · exact h.ended task hold hid
      · rw [List.mem_singleton.mp hnew] at hid
        simp [Call.executionId] at hid
  | execute request ctx =>
      refine ⟨h.recorded, fun task hmem hid => ?_⟩
      rcases List.mem_append.mp hmem with hold | hnew
      · exact h.ended task hold hid
      · rw [List.mem_singleton.mp hnew] at hid ⊢
        have hsome := hanswered (Option.some.inj hid)
        obtain ⟨prior, hprior⟩ := Option.ne_none_iff_exists'.mp hsome
        change ∃ outcome, Pipeline.begin deps request pool.shared =
          .done outcome
        rw [Pipeline.begin, hprior]
        exact ⟨_, rfl⟩

/-- No step changes what is recorded of an execution whose calls have
ended. -/
theorem Settled.resume (h : Settled id result pool) {index : ℕ}
    {reply : Reply}
    (hmove : (Pipeline.program deps).move pool (.resume index reply) =
      some pool') : Settled id result pool' := by
  obtain ⟨task, shared, point, htask, hresume, rfl⟩ :=
    Program.move_resume.mp hmove
  have hmem := List.mem_of_getElem? htask
  cases hcall : task.call with
  | verify executionId =>
      rw [hcall] at hresume
      refine ⟨?_, fun other hother hid => ?_⟩
      · rw [(resume_verify hresume).2 id]
        exact h.recorded
      · rcases mem_set_cases hother with rfl | ⟨position, -, hold⟩
        · change task.call.executionId = some id at hid
          rw [hcall] at hid
          simp [Call.executionId] at hid
        · exact h.ended other (List.mem_of_getElem? hold) hid
  | execute request ctx =>
      rw [hcall] at hresume
      have hother : id ≠ request.executionId := by
        rintro rfl
        obtain ⟨outcome, hdone⟩ :=
          h.ended task hmem (by rw [hcall]; rfl)
        change Pipeline.step deps request ctx task.point reply pool.shared =
          some _ at hresume
        rw [hdone, step_done] at hresume
        simp at hresume
      refine ⟨?_, fun other hmem hid => ?_⟩
      · rw [(step_frame hresume).records id hother]
        exact h.recorded
      · rcases mem_set_cases hmem with rfl | ⟨position, -, hold⟩
        · change task.call.executionId = some id at hid
          rw [hcall] at hid
          exact absurd (Option.some.inj hid).symm hother
        · exact h.ended other (List.mem_of_getElem? hold) hid

theorem Settled.run (h : Settled id result pool)
    {moves : List (Move Call Reply)}
    (hmeets : (Pipeline.program deps).Meets (AnsweredFromStore id) pool
      moves)
    (hrun : (Pipeline.program deps).run pool moves = some pool') :
    Settled id result pool' := by
  refine Program.run_induction (fun pool m pool' hinv hcond hmove => ?_) h
    hmeets hrun
  cases m with
  | start call reply => exact hinv.start hcond hmove
  | resume index reply => exact hinv.resume hmove

/-- Neither PENDING nor UNKNOWN is what a receipt calls for. -/
theorem not_resolves (receipt : RpcReceipt)
    (hopen : result.status = .pending ∨ result.status = .unknown) :
    ¬ Resolves receipt result := by
  unfold Resolves
  intro hresolves
  split at hresolves
  · rcases hopen with hstatus | hstatus
    · rw [hstatus] at hresolves
      simp at hresolves
    · rw [hstatus] at hresolves
      simp at hresolves
  · rcases hopen with hstatus | hstatus
    · rw [hstatus] at hresolves
      simp at hresolves
    · rw [hstatus] at hresolves
      simp at hresolves

/-- Once its calls have ended with PENDING or UNKNOWN on record, an
execution is reported so in every later state, whatever receipt the chain
has, and every reconciliation answers STILL_UNKNOWN. -/
theorem unknown_stays_unknown {moves : List (Move Call Reply)}
    (hsettled : Settled id result pool)
    (hopen : result.status = .pending ∨ result.status = .unknown)
    (hmeets : (Pipeline.program deps).Meets (AnsweredFromStore id) pool
      moves)
    (hrun : (Pipeline.program deps).run pool moves = some pool') :
    Pipeline.getResult pool'.shared id = .ok result ∧
      (∀ receipt, ¬ Resolves receipt result) ∧
      ∀ rt client companyId now db request, Answers client pool'.shared →
        ExecutionResults.getRequest companyId id db = some request →
        ExecutionResults.reconcile rt client companyId id now db =
          (.ok .stillUnknown, db) := by
  have hlater := (hsettled.run hmeets hrun).getResult
  refine ⟨hlater, fun receipt => not_resolves receipt hopen, ?_⟩
  intro rt client companyId now db request hanswers hrequest
  refine ExecutionResults.reconcile_of_open hrequest
    (hanswers id result hlater) ?_
  rcases hopen with hstatus | hstatus
  · rw [hstatus]
    exact Or.inl rfl
  · rw [hstatus]
    exact Or.inr rfl

/-! ## A payment whose receipt came too late -/

/-- The receipt of the payment, which was mined. -/
def minedReceipt : RpcReceipt where
  transactionHash := "0xhash"
  status := .success
  logs := []

/-- A verification gets the receipt afterwards. -/
def verification : List (Move Call Reply) :=
  [.start (.verify "exec-1") ⟨.tick, 60001⟩,
    .resume 1 ⟨.receipt minedReceipt, 60001⟩]

theorem getResult_unknownRecorded (shared : Shared) :
    Pipeline.getResult (unknownRecorded shared) "exec-1" =
      .ok unknownResult := by
  simp only [Pipeline.getResult, byExecutionId_unknownRecorded]
  rfl

/-- The payment was mined, and the execution is reported UNKNOWN. -/
theorem mined_payment_reported_unknown :
    ∃ sim shared task,
      (Pipeline.program sepoliaDeps).run ⟨⟨.empty, none⟩, []⟩
        (lateReceipt sim) = some ⟨shared, [task]⟩ ∧
      Pipeline.getResult shared "exec-1" = .ok unknownResult ∧
      unknownResult.transactionHash = some minedReceipt.transactionHash ∧
      unknownResult.status = .unknown ∧
      ¬ Resolves minedReceipt unknownResult := by
  obtain ⟨_, sim, past, shared, hrun, _⟩ := lateReceipt_ends
  exact ⟨sim, unknownRecorded shared, _, hrun,
    getResult_unknownRecorded shared, rfl, rfl,
    not_resolves minedReceipt (Or.inr rfl)⟩

/-- A verification reads the receipt of the mined payment, and the execution
stays UNKNOWN. -/
theorem verified_payment_stays_unknown :
    ∃ sim pool pool',
      (Pipeline.program sepoliaDeps).run ⟨⟨.empty, none⟩, []⟩
        (lateReceipt sim) = some pool ∧
      (Pipeline.program sepoliaDeps).run pool verification = some pool' ∧
      (Pipeline.getResult pool'.shared "exec-1" = .ok unknownResult ∧
        (∀ receipt, ¬ Resolves receipt unknownResult) ∧
        ∀ rt client companyId now db request, Answers client pool'.shared →
          ExecutionResults.getRequest companyId "exec-1" db = some request →
          ExecutionResults.reconcile rt client companyId "exec-1" now db =
            (.ok .stillUnknown, db)) := by
  obtain ⟨_, sim, past, shared, hrun, _⟩ := lateReceipt_ends
  have hsettled : Settled "exec-1" unknownResult ⟨unknownRecorded shared,
      [⟨.execute firstRequest payeeContext, Pipeline.returning unknownResult,
        past⟩]⟩ := by
    refine ⟨?_, fun task hmem _ => ?_⟩
    · rw [byExecutionId_unknownRecorded]
      rfl
    · rw [List.mem_singleton.mp hmem]
      exact ⟨_, rfl⟩
  have hmeets : (Pipeline.program sepoliaDeps).Meets
      (AnsweredFromStore "exec-1") ⟨unknownRecorded shared,
        [⟨.execute firstRequest payeeContext,
          Pipeline.returning unknownResult, past⟩]⟩ verification := by
    apply Program.meets_of_forall
    simp [verification, AnsweredFromStore]
  have hverifying : Pipeline.beginVerify "exec-1" (unknownRecorded shared) =
      .verifying (Pipeline.recordOf firstRequest payeeContext unknownResult)
        "0xhash" payeeContext.expectation := by
    simp only [Pipeline.beginVerify, byExecutionId_unknownRecorded]
    rfl
  have hstarted : (Pipeline.program sepoliaDeps).move ⟨unknownRecorded shared,
      [⟨.execute firstRequest payeeContext, Pipeline.returning unknownResult,
        past⟩]⟩ (.start (.verify "exec-1") ⟨.tick, 60001⟩) =
      some ⟨unknownRecorded shared,
        [⟨.execute firstRequest payeeContext,
          Pipeline.returning unknownResult, past⟩] ++
        [⟨.verify "exec-1", .verifying (Pipeline.recordOf firstRequest
          payeeContext unknownResult) "0xhash" payeeContext.expectation,
          []⟩]⟩ := by
    rw [Program.move_start]
    change some (Pool.mk (unknownRecorded shared) (_ ++
      [⟨_, Pipeline.beginVerify "exec-1" (unknownRecorded shared), _⟩])) = _
    rw [hverifying]
  obtain ⟨next, hnext⟩ : ∃ next, (Pipeline.program sepoliaDeps).resume
      (.verify "exec-1") (.verifying (Pipeline.recordOf firstRequest
        payeeContext unknownResult) "0xhash" payeeContext.expectation)
      ⟨.receipt minedReceipt, 60001⟩ (unknownRecorded shared) = some next :=
    ⟨_, rfl⟩
  have hverified := @Program.run_resume_last _ _ _ _
    (Pipeline.program sepoliaDeps) (unknownRecorded shared) next.1
    [⟨.execute firstRequest payeeContext, Pipeline.returning unknownResult,
      past⟩] ⟨.verify "exec-1", .verifying (Pipeline.recordOf firstRequest
        payeeContext unknownResult) "0xhash" payeeContext.expectation, []⟩
    ⟨.receipt minedReceipt, 60001⟩ next.2 [] hnext
  have hverification := (Program.run_cons hstarted).trans hverified
  exact ⟨sim, _, _, hrun, hverification,
    unknown_stays_unknown hsettled (Or.inr rfl) hmeets hverification⟩

end Execution
end Orvex
