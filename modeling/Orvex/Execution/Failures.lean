import Orvex.Execution.Idempotency
import Orvex.Gate.Charges
import Orvex.Gate.Releases

/-!
# When FAILED is reported

An error of the signer is reported as FAILED, whether the network had
accepted the transaction or not.  Where it had not, and the calls of a key
do not overlap, FAILED is reported only of a payment that did not move, and
only then does the core release its reservation.
-/

namespace Orvex
namespace Execution

open Awaits (Task Pool Move Program)
open Awaits.Program (mem_set_cases mem_set_of_mem)
open ExecutionResults (Releases)

/-- The network accepted the transaction that the signer was handed. -/
def Accepted : Answer → Prop
  | .sent _ => True
  | .sendFailed accepted => accepted = true
  | _ => False

/-- No transaction of the call was accepted, and none is at the signer. -/
def Unmoved (task : Task Call Point Reply) : Prop :=
  (∀ tx, task.point ≠ .sending tx) ∧
    ∀ tx reply, (.sending tx, reply) ∈ task.past → ¬ Accepted reply.answer

/-- The receipt of the call's transaction says that it was reverted. -/
def ReceiptReverted (past : List (Point × Reply)) : Prop :=
  ∃ txHash point reply, Sent txHash past ∧ (point, reply) ∈ past ∧
    WaitsFor txHash point ∧ Reverted reply.answer

/-- Nothing moved for the key: no transaction of its calls was accepted, or
the receipt of one says that it was reverted. -/
def NothingMoved (key : String) (pool : Pool Shared Call Point Reply) :
    Prop :=
  (∀ task ∈ pool.tasks, task.call.idempotencyKey = some key →
    Unmoved task) ∨
  ∃ task ∈ pool.tasks, task.call.idempotencyKey = some key ∧
    ReceiptReverted task.past

/-- The signer raises no error after the network has accepted the
transaction of a call with the key. -/
def Admits (key : String) (pool : Pool Shared Call Point Reply) :
    Move Call Reply → Prop
  | .start _ _ => True
  | .resume index reply => ∀ task, pool.tasks[index]? = some task →
      task.call.idempotencyKey = some key →
      reply.answer ≠ .sendFailed true

/-- FAILED is reported of the key: by its record, or by a call that
returns. -/
def ReportsFailed (key : String) (pool : Pool Shared Call Point Reply) :
    Prop :=
  (∃ record, pool.shared.store.byKey key = some record ∧
    record.result.status = .failed) ∨
  ∃ task ∈ pool.tasks, ∃ result, task.call.idempotencyKey = some key ∧
    task.point = Pipeline.returning result ∧ result.status = .failed

variable {deps : PipelineDeps} {key : String}
  {pool pool' : Pool Shared Call Point Reply}

/-! ## Nothing moves after the record -/

theorem ReceiptReverted.append {past : List (Point × Reply)}
    (h : ReceiptReverted past) (more : List (Point × Reply)) :
    ReceiptReverted (past ++ more) := by
  obtain ⟨txHash, point, reply, ⟨tx, found, hmem, hanswer⟩, hentry, hrest⟩ := h
  exact ⟨txHash, point, reply,
    ⟨tx, found, List.mem_append_left _ hmem, hanswer⟩,
    List.mem_append_left _ hentry, hrest⟩

theorem not_sending_of_not_open {point : Point} (h : ¬ Open point)
    (tx : TransactionRequest) : point ≠ .sending tx := by
  rintro rfl
  exact h trivial

theorem NothingMoved.append (h : NothingMoved key pool)
    {task : Task Call Point Reply} (hpast : task.past = [])
    (hclosed : task.call.idempotencyKey = some key → ¬ Open task.point)
    (shared : Shared) : NothingMoved key ⟨shared, pool.tasks ++ [task]⟩ := by
  rcases h with hnone | ⟨other, hmem, hkey, hreverted⟩
  · refine Or.inl (fun other hmem hkey => ?_)
    rcases List.mem_append.mp hmem with hold | hnew
    · exact hnone other hold hkey
    · rw [List.mem_singleton.mp hnew] at hkey ⊢
      refine ⟨not_sending_of_not_open (hclosed hkey), fun tx reply hentry => ?_⟩
      rw [hpast] at hentry
      exact absurd hentry List.not_mem_nil
  · exact Or.inr ⟨other, List.mem_append_left _ hmem, hkey, hreverted⟩

/-- A call that was handed nothing stays unmoved while it is closed. -/
theorem Unmoved.next {task : Task Call Point Reply} (h : Unmoved task)
    {point : Point} {reply : Reply} (hclosed : ¬ Open point) :
    Unmoved (task.next reply point) := by
  refine ⟨not_sending_of_not_open hclosed, fun tx found hmem => ?_⟩
  rcases List.mem_append.mp hmem with hold | hnew
  · exact h.2 tx found hold
  · have hsame := List.mem_singleton.mp hnew
    rw [Prod.mk.injEq] at hsame
    exact absurd hsame.1.symm (h.1 tx)

theorem NothingMoved.set (h : NothingMoved key pool) {index : ℕ}
    {task : Task Call Point Reply} (htask : pool.tasks[index]? = some task)
    {point : Point} {reply : Reply}
    (hclosed : task.call.idempotencyKey = some key → ¬ Open point)
    (shared : Shared) :
    NothingMoved key
      ⟨shared, pool.tasks.set index (task.next reply point)⟩ := by
  have hmem := List.mem_of_getElem? htask
  rcases h with hnone | ⟨other, hother, hkey, hreverted⟩
  · refine Or.inl (fun other hother hkey => ?_)
    rcases mem_set_cases hother with rfl | ⟨position, -, hold⟩
    · exact (hnone task hmem hkey).next (hclosed hkey)
    · exact hnone other (List.mem_of_getElem? hold) hkey
  · right
    rcases mem_set_of_mem htask hother with hstays | ⟨rfl, hnext⟩
    · exact ⟨other, hstays, hkey, hreverted⟩
    · exact ⟨_, hnext, hkey, hreverted.append _⟩

/-! ## What is reported -/

theorem Unrecorded.not_reportsFailed (h : Unrecorded key pool) :
    ¬ ReportsFailed key pool := by
  rintro (⟨record, hrecord, -⟩ | ⟨task, hmem, result, hkey, hreturned, -⟩)
  · rw [h.byKey] at hrecord
    simp at hrecord
  · exact (h.silent task hmem hkey).2 result hreturned

/-- Where FAILED is reported of the key, it is recorded, and no call with it
is open. -/
theorem closed_of_reportsFailed (h : Orderly key pool)
    (hfailed : ReportsFailed key pool) :
    ∀ task ∈ pool.tasks, task.call.idempotencyKey = some key →
      ¬ Open task.point := by
  rcases h.serial.state with hstate | ⟨id, txHash, hstate⟩
  · exact absurd hfailed hstate.not_reportsFailed
  · exact hstate.closed

/-- A step after which the key is recorded with no other result, and whose
call does not return FAILED, adds no report of FAILED. -/
theorem reportsFailed_of_set {shared : Shared} {index : ℕ}
    {next : Task Call Point Reply}
    (hrecord : ∀ record, shared.store.byKey key = some record →
      record.result.status = .failed → ReportsFailed key pool)
    (hnext : next.call.idempotencyKey = some key → ∀ result,
      next.point = Pipeline.returning result → result.status ≠ .failed)
    (h : ReportsFailed key ⟨shared, pool.tasks.set index next⟩) :
    ReportsFailed key pool := by
  rcases h with ⟨record, hfound, hstatus⟩ |
    ⟨task, hmem, result, hkey, hreturned, hstatus⟩
  · exact hrecord record hfound hstatus
  · rcases mem_set_cases hmem with rfl | ⟨position, -, hold⟩
    · exact absurd hstatus (hnext hkey result hreturned)
    · exact Or.inr ⟨task, List.mem_of_getElem? hold, result, hkey, hreturned,
        hstatus⟩

theorem reportsFailed_of_result {shared : Shared}
    (hresult : (shared.store.byKey key).map ExecutionRecord.result =
      (pool.shared.store.byKey key).map ExecutionRecord.result)
    {record : ExecutionRecord} (hfound : shared.store.byKey key = some record)
    (hstatus : record.result.status = .failed) : ReportsFailed key pool := by
  rw [hfound, Option.map_some] at hresult
  obtain ⟨old, hold, hsame⟩ := Option.map_eq_some_iff.mp hresult.symm
  exact Or.inl ⟨old, hold, by rw [hsame, hstatus]⟩

/-- A step of a call without the key leaves the result that is recorded
under the key. -/
theorem result_byKey_of_other (h : Serial key pool) {index : ℕ}
    {task : Task Call Point Reply} {shared : Shared}
    (htask : pool.tasks[index]? = some task)
    (hother : task.call.idempotencyKey ≠ some key)
    (hindex : shared.store.keyIndex.get key =
      pool.shared.store.keyIndex.get key)
    (hresult : ∀ id, task.call.executionId ≠ some id →
      (shared.store.byExecutionId id).map ExecutionRecord.result =
        (pool.shared.store.byExecutionId id).map ExecutionRecord.result) :
    (shared.store.byKey key).map ExecutionRecord.result =
      (pool.shared.store.byKey key).map ExecutionRecord.result := by
  rcases h.state with hstate | ⟨id, txHash, hstate⟩
  · have hnone : shared.store.byKey key = none := by
      rw [IdempotencyStore.byKey, hindex, hstate.index]
    rw [hnone, hstate.byKey]
  · obtain ⟨owner, howner, hkeyed, hexecution, -⟩ := hstate.owner
    have hapart : task.call.executionId ≠ some id := by
      intro hsame
      exact hother (h.apart owner howner task (List.mem_of_getElem? htask) id
        hexecution hsame hkeyed)
    have hsame : shared.store.byKey key =
        shared.store.byExecutionId id := by
      rw [IdempotencyStore.byKey, hindex, hstate.index]
      simp [hstate.nonempty, IdempotencyStore.byExecutionId]
    rw [hsame, hstate.byKey, hresult id hapart]

/-! ## The invariant -/

/-- Orderly calls, none of which had an error of the signer for a
transaction that was accepted; and what is reported FAILED did not move. -/
structure Truthful (key : String) (pool : Pool Shared Call Point Reply) :
    Prop where
  orderly : Orderly key pool
  admitted : ∀ task ∈ pool.tasks, task.call.idempotencyKey = some key →
    ∀ tx reply, (.sending tx, reply) ∈ task.past →
      reply.answer ≠ .sendFailed true
  failed : ReportsFailed key pool → NothingMoved key pool

theorem admitted_move (h : Truthful key pool) {m : Move Call Reply}
    (hadmits : Admits key pool m)
    (hmove : (Pipeline.program deps).move pool m = some pool') :
    ∀ task ∈ pool'.tasks, task.call.idempotencyKey = some key →
      ∀ tx reply, (.sending tx, reply) ∈ task.past →
        reply.answer ≠ .sendFailed true := by
  intro task hmem hkey tx reply hentry
  cases m with
  | start call answer =>
      rw [Program.move_start, Option.some.injEq] at hmove
      subst hmove
      rcases List.mem_append.mp hmem with hold | hnew
      · exact h.admitted task hold hkey tx reply hentry
      · rw [List.mem_singleton.mp hnew] at hentry
        exact absurd hentry List.not_mem_nil
  | resume index answer =>
      obtain ⟨old, shared, point, hold, -, rfl⟩ := Program.move_resume.mp hmove
      rcases mem_set_cases hmem with rfl | ⟨position, -, hother⟩
      · rcases List.mem_append.mp hentry with hbefore | hnew
        · exact h.admitted old (List.mem_of_getElem? hold) hkey tx reply
            hbefore
        · have hsame := List.mem_singleton.mp hnew
          rw [Prod.mk.injEq] at hsame
          rw [hsame.2]
          exact hadmits old hold hkey
      · exact h.admitted task (List.mem_of_getElem? hother) hkey tx reply
          hentry

/-- A call that begins returns FAILED only where the record says so. -/
theorem reportsFailed_of_start {call : Call} {reply : Reply}
    (h : ReportsFailed key
      ⟨pool.shared, pool.tasks ++
        [⟨call, ((Pipeline.program deps).enter call reply pool.shared).2,
          []⟩]⟩) : ReportsFailed key pool := by
  rcases h with hrecord | ⟨task, hmem, result, hkey, hreturned, hstatus⟩
  · exact Or.inl hrecord
  · rcases List.mem_append.mp hmem with hold | hnew
    · exact Or.inr ⟨task, hold, result, hkey, hreturned, hstatus⟩
    · rw [List.mem_singleton.mp hnew] at hkey hreturned
      cases call with
      | verify executionId => simp [Call.idempotencyKey] at hkey
      | execute request ctx =>
          obtain rfl : request.idempotencyKey = key := Option.some.inj hkey
          change Pipeline.begin deps request pool.shared = _ at hreturned
          cases hprior : pool.shared.store.byKey request.idempotencyKey with
          | none => exact absurd hreturned (begin_not_returning hprior result)
          | some prior =>
              have hresult : prior.result = result := by
                rw [Pipeline.begin, hprior] at hreturned
                simpa [Pipeline.returning] using hreturned
              rw [← hresult] at hstatus
              exact Or.inl ⟨prior, hprior, hstatus⟩

section

variable {request : ExecutionRequest} {ctx : AuthorizedContext}
  {point' : Point} {reply : Reply} {shared : Shared} {index : ℕ}
  {task : Task Call Point Reply}

/-- The submission is recorded as FAILED only where nothing moved. -/
theorem nothingMoved_of_record (h : Truthful key pool)
    (htask : pool.tasks[index]? = some task)
    (hkeyed : task.call.idempotencyKey = some key) {submission : Submission}
    (hpoint : task.point = .submitted submission)
    (hunrecorded : Unrecorded key pool)
    {cause : Thrown} (hfailed : submission = .failed cause)
    {next : Task Call Point Reply} {result : ExecutionResult}
    (hnext : next = task.next reply (Pipeline.returning result)) :
    NothingMoved key ⟨shared, pool.tasks.set index next⟩ := by
  have hmem := List.mem_of_getElem? htask
  have hopen : Open task.point := by
    rw [hpoint]
    trivial
  refine Or.inl (fun other hother hkey => ?_)
  rcases mem_set_cases hother with rfl | ⟨position, hne, hold⟩
  · subst hnext
    refine Unmoved.next ⟨fun tx heq => ?_, fun tx found hentry => ?_⟩ id
    · rw [hpoint] at heq
      simp at heq
    · have hhistory := history_of_key h.orderly.kept hmem hkeyed
      have hadmitted := h.admitted task hmem hkeyed tx found hentry
      intro haccepted
      cases hanswer : found.answer with
      | sent txHash =>
          have hsent : submission = .hash txHash :=
            (hhistory.heard submission hpoint txHash).mp
              ⟨tx, found, hentry, hanswer⟩
          rw [hfailed] at hsent
          simp at hsent
      | sendFailed accepted =>
          rw [hanswer] at haccepted hadmitted
          have haccept : accepted = true := haccepted
          exact hadmitted (by rw [haccept])
      | _ =>
          rw [hanswer] at haccepted
          exact haccepted
  · obtain ⟨hclosed, -, hnone⟩ := hunrecorded.others h.orderly.serial
      h.orderly.kept htask hkeyed hopen hne hold hkey
    refine ⟨not_sending_of_not_open hclosed, fun tx found hentry _ => ?_⟩
    exact absurd rfl (List.countP_eq_zero.mp hnone _ hentry)

/-- A wait ends with FAILED only on a receipt that was reverted. -/
theorem nothingMoved_of_wait (h : Truthful key pool)
    (htask : pool.tasks[index]? = some task)
    (hkeyed : task.call.idempotencyKey = some key) {txHash : String}
    (hwaits : WaitsFor txHash task.point) {receipt : RpcReceipt}
    {raw : RawReceipt} (hanswer : reply.answer = .receipt receipt)
    (hraw : normalizeReceipt deps.viem receipt = some raw)
    (hfailed : Pipeline.receiptStatus deps.viem raw = .failed) :
    NothingMoved key
      ⟨shared, pool.tasks.set index (task.next reply point')⟩ := by
  have hmem := List.mem_of_getElem? htask
  have hlt := (List.getElem?_eq_some_iff.mp htask).1
  have hhistory := history_of_key h.orderly.kept hmem hkeyed
  obtain ⟨tx, found, hentry, hsent⟩ := (hhistory.waits txHash hwaits).2
  refine Or.inr ⟨_, List.mem_set hlt _, hkeyed, txHash, task.point, reply,
    ⟨tx, found, List.mem_append_left _ hentry, hsent⟩,
    List.mem_append_right _ (List.mem_singleton_self _), hwaits, ?_⟩
  rw [hanswer]
  exact reverted_of_failed hraw hfailed

theorem nothingMoved_of_step (h : Truthful key pool)
    (htask : pool.tasks[index]? = some task)
    (hcall : task.call = .execute request ctx)
    (hkey : request.idempotencyKey = key)
    (hstep : Pipeline.step deps request ctx task.point reply pool.shared =
      some (shared, point'))
    (hnew : ¬ ReportsFailed key pool)
    (hfailed : ReportsFailed key
      ⟨shared, pool.tasks.set index (task.next reply point')⟩) :
    NothingMoved key
      ⟨shared, pool.tasks.set index (task.next reply point')⟩ := by
  have hmem := List.mem_of_getElem? htask
  have hkeyed : task.call.idempotencyKey = some key := by
    rw [hcall, ← hkey]
    rfl
  have hhistory := history_of_key h.orderly.kept hmem hkeyed
  have hprogress := open_or_waits_of_step hstep
  rcases h.orderly.serial.state with hstate | ⟨id, txHash, hstate⟩
  · have hunrecorded := (hstate.silent task hmem hkeyed).1
    have hopen : Open task.point := by
      refine hprogress.resolve_right ?_
      rintro ⟨txHash, hwaits⟩
      exact hunrecorded (hhistory.waits txHash hwaits).1
    cases hpoint : task.point with
    | submitted submission =>
        rw [hpoint] at hstep
        have hrecord := step_submitted hstep
        rw [Prod.mk.injEq] at hrecord
        obtain ⟨rfl, rfl⟩ := hrecord
        obtain ⟨result, hkeys, hrecords, -, hends⟩ :=
          @record_cases deps request ctx submission reply.now pool.shared
        rcases hends with ⟨txHash, deadline, -, -, hpending, hnext⟩ |
          ⟨cause, hcause, -, hnext⟩
        · refine absurd (reportsFailed_of_set (fun record hfound hstatus => ?_)
            (fun _ returned hreturned => ?_) hfailed) hnew
          · have hsame : record = Pipeline.recordOf request ctx result := by
              obtain ⟨found, -, hindex, hrecord⟩ :=
                IdempotencyStore.byKey_eq_some.mp hfound
              rw [hkeys, hkey, Entries.get_set_self, Option.some.injEq]
                at hindex
              rw [hrecords, if_pos hindex.symm, Option.some.injEq] at hrecord
              exact hrecord.symm
            rw [hsame] at hstatus
            change result.status = _ at hstatus
            rw [hpending] at hstatus
            simp at hstatus
          · change (Pipeline.record deps request ctx submission reply.now
              pool.shared).2 = _ at hreturned
            rw [hnext] at hreturned
            simp [Pipeline.returning] at hreturned
        · exact nothingMoved_of_record h htask hkeyed hpoint hstate hcause
            (by rw [hnext])
    | _ =>
        refine absurd hfailed (hstate.step hhistory ?_ hstep).not_reportsFailed
        rw [hpoint] at hopen ⊢
        exact hopen
  · have hclosed := hstate.closed task hmem hkeyed
    obtain ⟨found, hwaits⟩ := hprogress.resolve_left hclosed
    obtain ⟨rfl, hexecution⟩ :=
      (hstate.reports task hmem hkeyed).waits found hwaits
    obtain rfl : request.executionId = id := by
      rw [hcall] at hexecution
      exact Option.some.inj hexecution
    rcases (step_waiting hwaits hstep).cases with ⟨rfl, hnext⟩ |
      ⟨status, rfl, rfl, hstatus⟩
    · refine absurd (reportsFailed_of_set
        (fun record hfound hstatus => Or.inl ⟨record, hfound, hstatus⟩)
        (fun _ returned hreturned => ?_) hfailed) hnew
      change point' = _ at hreturned
      rcases hnext with hwaiting | ⟨thrown, hthrown⟩
      · rw [hreturned] at hwaiting
        exact absurd hwaiting not_waitsFor_returning
      · rw [hreturned] at hthrown
        simp [Pipeline.returning, Pipeline.throwing] at hthrown
    · by_cases hreverted : status = .failed
      · rcases hstatus with hunknown | ⟨receipt, raw, hanswer, hraw, hsame⟩
        · rw [hreverted] at hunknown
          simp at hunknown
        · exact nothingMoved_of_wait h htask hkeyed hwaits hanswer hraw
            (by rw [← hsame, hreverted])
      · refine absurd (reportsFailed_of_set (fun record hfound hrecorded => ?_)
          (fun _ returned hreturned => ?_) hfailed) hnew
        · obtain ⟨old, hold, -, -⟩ := hstate.record
          have hbyKey : (Pipeline.finish deps request status found reply.now
              pool.shared).1.store.byKey key =
                some (Pipeline.setResult (Pipeline.mkResult deps request
                  status (some found) reply.now) old) := by
            refine IdempotencyStore.byKey_eq_some.mpr
              ⟨request.executionId, hstate.nonempty, ?_, ?_⟩
            · rw [keyIndex_finish, hstate.index]
            · rw [byExecutionId_finish, if_pos rfl, hold]
              rfl
          rw [hbyKey, Option.some.injEq] at hfound
          rw [← hfound] at hrecorded
          exact absurd hrecorded hreverted
        · have hsame : Pipeline.mkResult deps request status (some found)
              reply.now = returned := by
            change Pipeline.returning _ = _ at hreturned
            simpa [Pipeline.returning] using hreturned
          rw [← hsame]
          exact hreverted

end

theorem Truthful.move (h : Truthful key pool) {m : Move Call Reply}
    (hbegins : Begins key pool m) (hadmits : Admits key pool m)
    (hmove : (Pipeline.program deps).move pool m = some pool') :
    Truthful key pool' := by
  have horderly := h.orderly.move hbegins hmove
  refine ⟨horderly, admitted_move h hadmits hmove, fun hfailed => ?_⟩
  have hclosed := closed_of_reportsFailed horderly hfailed
  cases m with
  | start call reply =>
      rw [Program.move_start, Option.some.injEq] at hmove
      subst hmove
      have hshared : ((Pipeline.program deps).enter call reply
          pool.shared).1 = pool.shared := by
        cases call with
        | verify => rfl
        | execute => rfl
      rw [hshared] at hfailed
      have hmoved := h.failed (reportsFailed_of_start hfailed)
      exact hmoved.append rfl (fun hkey => hclosed _
        (List.mem_append_right _ (List.mem_singleton_self _)) hkey) _
  | resume index reply =>
      obtain ⟨task, shared, point, htask, hresume, rfl⟩ :=
        Program.move_resume.mp hmove
      have hlt := (List.getElem?_eq_some_iff.mp htask).1
      have hkeep : ReportsFailed key pool → NothingMoved key
          ⟨shared, pool.tasks.set index (task.next reply point)⟩ :=
        fun hbefore => (h.failed hbefore).set htask
          (fun hkey => hclosed _ (List.mem_set hlt _) hkey) shared
      have hother : task.call.idempotencyKey ≠ some key →
          (shared.store.byKey key).map ExecutionRecord.result =
            (pool.shared.store.byKey key).map ExecutionRecord.result →
          ReportsFailed key pool := by
        intro hne hresult
        refine reportsFailed_of_set
          (fun record hfound => reportsFailed_of_result hresult hfound)
          (fun hkey => ?_) hfailed
        exact absurd hkey hne
      by_cases hbefore : ReportsFailed key pool
      · exact hkeep hbefore
      · cases hcall : task.call with
        | verify executionId =>
            rw [hcall] at hresume
            obtain ⟨hindex, hresult⟩ := resume_verify hresume
            have hne : task.call.idempotencyKey ≠ some key := by
              simp [hcall, Call.idempotencyKey]
            exact absurd (hother hne (result_byKey_of_other h.orderly.serial
              htask hne (by rw [hindex]) fun id _ => hresult id)) hbefore
        | execute request ctx =>
            rw [hcall] at hresume
            by_cases hkey : request.idempotencyKey = key
            · exact nothingMoved_of_step h htask hcall hkey hresume hbefore
                hfailed
            · have hframe := step_frame hresume
              have hne : task.call.idempotencyKey ≠ some key := by
                simpa [hcall, Call.idempotencyKey] using hkey
              refine absurd (hother hne (result_byKey_of_other
                h.orderly.serial htask hne ?_ fun id hid => ?_)) hbefore
              · exact hframe.keys key fun heq => hkey heq.symm
              · rw [hframe.records id]
                rintro rfl
                exact hid (by rw [hcall]; rfl)

/-! ## The record of an execution -/

/-- What is recorded of an execution, a call for it has recorded. -/
def Stored (pool : Pool Shared Call Point Reply) : Prop :=
  ∀ id, pool.shared.store.byExecutionId id ≠ none →
    ∃ task ∈ pool.tasks, task.call.executionId = some id ∧
      Recorded task.past

theorem Stored.set (h : Stored pool) {index : ℕ}
    {task : Task Call Point Reply} {shared : Shared} {point : Point}
    {reply : Reply} (htask : pool.tasks[index]? = some task)
    (hnew : ∀ id, shared.store.byExecutionId id ≠ none →
      pool.shared.store.byExecutionId id ≠ none ∨
        task.call.executionId = some id ∧
          ∃ submission, task.point = .submitted submission) :
    Stored ⟨shared, pool.tasks.set index (task.next reply point)⟩ := by
  intro id hid
  have hlt := (List.getElem?_eq_some_iff.mp htask).1
  rcases hnew id hid with hold | ⟨hexecution, hsubmitted⟩
  · obtain ⟨other, hmem, hother, hrecorded⟩ := h id hold
    rcases mem_set_of_mem htask hmem with hstays | ⟨rfl, hnext⟩
    · exact ⟨other, hstays, hother, hrecorded⟩
    · exact ⟨_, hnext, hother, recorded_append.mpr (Or.inl hrecorded)⟩
  · exact ⟨_, List.mem_set hlt _, hexecution,
      recorded_append.mpr (Or.inr hsubmitted)⟩

theorem stored_step {request : ExecutionRequest} {ctx : AuthorizedContext}
    {point point' : Point} {reply : Reply} {shared : Shared} {id : String}
    (h : Pipeline.step deps request ctx point reply pool.shared =
      some (shared, point'))
    (hid : shared.store.byExecutionId id ≠ none) :
    pool.shared.store.byExecutionId id ≠ none ∨
      request.executionId = id ∧
        ∃ submission, point = .submitted submission := by
  cases point with
  | checkingChain | recheckingChain | readingBalance | simulatingTransfer
  | estimatingGas =>
      rw [(step_preparing (by exact trivial) h).1] at hid
      exact Or.inl hid
  | sending tx =>
      rw [(step_sending h).1] at hid
      exact Or.inl hid
  | submitted submission =>
      by_cases hsame : id = request.executionId
      · exact Or.inr ⟨hsame.symm, submission, rfl⟩
      · rw [(step_frame h).records id hsame] at hid
        exact Or.inl hid
  | waitingForReceipt txHash | gettingReceipt txHash | sleeping txHash =>
      left
      have hwaits := @step_waiting _ _ _ _ _ _ _ _ txHash (by exact rfl) h
      rcases hwaits.cases with ⟨rfl, -⟩ | ⟨status, rfl, -, -⟩
      · exact hid
      · rw [byExecutionId_finish] at hid
        split at hid
        next hsame =>
          rw [hsame]
          simpa using hid
        next => exact hid
  | verifying =>
      rw [step_verifying] at h
      simp at h
  | done =>
      rw [step_done] at h
      simp at h

theorem Stored.move (h : Stored pool) {m : Move Call Reply}
    (hmove : (Pipeline.program deps).move pool m = some pool') :
    Stored pool' := by
  cases m with
  | start call reply =>
      rw [Program.move_start, Option.some.injEq] at hmove
      subst hmove
      intro id hid
      have hold : pool.shared.store.byExecutionId id ≠ none := by
        cases call with
        | verify => exact hid
        | execute => exact hid
      obtain ⟨task, hmem, htask⟩ := h id hold
      exact ⟨task, List.mem_append_left _ hmem, htask⟩
  | resume index reply =>
      obtain ⟨task, shared, point, htask, hresume, rfl⟩ :=
        Program.move_resume.mp hmove
      refine h.set htask fun id hid => ?_
      cases hcall : task.call with
      | verify executionId =>
          rw [hcall] at hresume
          have hsame := (resume_verify hresume).2 id
          left
          intro hnone
          rw [hnone, Option.map_none, Option.map_eq_none_iff] at hsame
          exact hid hsame
      | execute request ctx =>
          rw [hcall] at hresume
          refine (stored_step hresume hid).imp_right ?_
          rintro ⟨rfl, hsubmitted⟩
          exact ⟨rfl, hsubmitted⟩

/-- The record of the execution of a call is the record of its key. -/
theorem reportsFailed_of_getResult (h : Orderly key pool)
    (hstored : Stored pool) {task : Task Call Point Reply}
    (hmem : task ∈ pool.tasks)
    (hkey : task.call.idempotencyKey = some key) {id : String}
    (hid : task.call.executionId = some id) {result : ExecutionResult}
    (hresult : Pipeline.getResult pool.shared id = .ok result)
    (hfailed : result.status = .failed) : ReportsFailed key pool := by
  have hrecord : ∃ record,
      pool.shared.store.byExecutionId id = some record ∧
        record.result = result := by
    unfold Pipeline.getResult at hresult
    split at hresult
    next => simp at hresult
    next record hrecord =>
      rw [Except.ok.injEq] at hresult
      exact ⟨record, hrecord, hresult⟩
  obtain ⟨record, hrecord, hsame⟩ := hrecord
  obtain ⟨other, hother, hotherId, hrecorded⟩ :=
    hstored id (by rw [hrecord]; simp)
  have hotherKey := h.serial.apart task hmem other hother id hid hotherId hkey
  rcases h.serial.state with hstate | ⟨found, txHash, hstate⟩
  · exact absurd hrecorded (hstate.silent other hother hotherKey).1
  · obtain ⟨owner, howner, hownerKey, hownerId, hownerRecorded⟩ :=
      hstate.owner
    obtain ⟨i, hi⟩ := List.mem_iff_getElem?.mp hother
    obtain ⟨j, hj⟩ := List.mem_iff_getElem?.mp howner
    have hij := h.serial.single i j other owner hi hj hotherKey hownerKey
      (Or.inr hrecorded) (Or.inr hownerRecorded)
    rw [hij, hj, Option.some.injEq] at hi
    rw [← hi, hownerId, Option.some.injEq] at hotherId
    refine Or.inl ⟨record, ?_, by rw [hsame, hfailed]⟩
    rw [hstate.byKey, hotherId, hrecord]

/-! ## What the core does with it -/

def clientStatus : ExecutionStatus → ExecutionResults.ClientStatus
  | .confirmed => .confirmed
  | .pending => .pending
  | .failed => .failed
  | .unknown => .unknown

/-- The core asks this pipeline. -/
def Asks (client : ExecutionResults.ExecutionClient) (shared : Shared) :
    Prop :=
  ∀ id status, client.getResult id = .ok status →
    ∃ result, Pipeline.getResult shared id = .ok result ∧
      clientStatus result.status = status

/-- The result of an execution of the key, from a call that returns or from
`getResult`. -/
def Reported (key : String) (pool : Pool Shared Call Point Reply)
    (result : ExecutionResult) : Prop :=
  ∃ task ∈ pool.tasks, task.call.idempotencyKey = some key ∧
    (task.point = Pipeline.returning result ∨
      ∃ id, task.call.executionId = some id ∧
        Pipeline.getResult pool.shared id = .ok result)

/-- The input is FAILED only where the result is. -/
def Ingests (input : ExecutionResults.ExecutionResultInput)
    (result : ExecutionResult) : Prop :=
  input.status = .failed → result.status = .failed

/-- FAILED is reported, and a reservation released, only where nothing
moved. -/
structure FailedOnlyIfUnmoved (key : String)
    (pool : Pool Shared Call Point Reply) : Prop where
  reported : ∀ result, Reported key pool result →
    result.status = .failed → NothingMoved key pool
  ingested : ∀ result, Reported key pool result →
    ∀ rt companyId input now uuid db, Ingests input result →
      Releases db (ExecutionResults.ingestResult rt companyId input now uuid
        db).2 →
      NothingMoved key pool
  reconciled : ∀ task ∈ pool.tasks, task.call.idempotencyKey = some key →
    ∀ id, task.call.executionId = some id →
    ∀ rt client companyId now db, Asks client pool.shared →
      Releases db (ExecutionResults.reconcile rt client companyId id now
        db).2 →
      NothingMoved key pool

theorem failedOnlyIfUnmoved_of_truthful (h : Truthful key pool)
    (hstored : Stored pool) : FailedOnlyIfUnmoved key pool := by
  have hreported : ∀ result, Reported key pool result →
      result.status = .failed → NothingMoved key pool := by
    rintro result ⟨task, hmem, hkey, hreturned | ⟨id, hid, hresult⟩⟩ hfailed
    · exact h.failed (Or.inr ⟨task, hmem, result, hkey, hreturned, hfailed⟩)
    · exact h.failed (reportsFailed_of_getResult h.orderly hstored hmem hkey
        hid hresult hfailed)
  refine ⟨hreported, ?_, ?_⟩
  · intro result hresult rt companyId input now uuid db hinput hreleases
    exact hreported result hresult
      (hinput (ExecutionResults.ingestResult_releases hreleases))
  · intro task hmem hkey id hid rt client companyId now db hasks hreleases
    obtain ⟨result, hresult, hstatus⟩ :=
      hasks id _ (ExecutionResults.reconcile_releases hreleases)
    refine hreported result ⟨task, hmem, hkey, Or.inr ⟨id, hid, hresult⟩⟩ ?_
    cases hfailed : result.status with
    | failed => rfl
    | _ =>
        rw [hfailed] at hstatus
        simp [clientStatus] at hstatus

/-- Where the signer raises no error after the network has accepted a
transaction, and the calls of the key do not overlap, FAILED is reported
only of what did not move, and the core releases only then. -/
theorem failed_only_if_unmoved {moves : List (Move Call Reply)}
    (hbegins : (Pipeline.program deps).Meets (Begins key)
      ⟨⟨.empty, none⟩, []⟩ moves)
    (hadmits : (Pipeline.program deps).Meets (Admits key)
      ⟨⟨.empty, none⟩, []⟩ moves)
    (hrun : (Pipeline.program deps).run ⟨⟨.empty, none⟩, []⟩ moves =
      some pool) : FailedOnlyIfUnmoved key pool := by
  have hempty : Truthful key ⟨⟨.empty, none⟩, []⟩ :=
    { orderly := orderly_empty key
      admitted := fun _ hmem => absurd hmem List.not_mem_nil
      failed := fun _ =>
        Or.inl fun _ hmem => absurd hmem List.not_mem_nil }
  have hnone : Stored ⟨⟨.empty, none⟩, []⟩ := fun _ hid => absurd rfl hid
  have hkeeps : ∀ pool m pool', Truthful key pool ∧ Stored pool →
      Begins key pool m ∧ Admits key pool m →
      (Pipeline.program deps).move pool m = some pool' →
      Truthful key pool' ∧ Stored pool' :=
    fun _ _ _ h hmeets hmove =>
      ⟨h.1.move hmeets.1 hmeets.2 hmove, h.2.move hmove⟩
  obtain ⟨htruthful, hstored⟩ := Program.run_induction hkeeps
    ⟨hempty, hnone⟩ (hbegins.and hadmits) hrun
  exact failedOnlyIfUnmoved_of_truthful htruthful hstored

/-! ## An error of the signer -/

/-- The signer raises an error for the payment of the sample. -/
def failedSubmission (sim : SimulatedTransfer) (accepted : Bool) :
    List (Move Call Reply) :=
  wellAnswered sepoliaDeps (.execute firstRequest payeeContext) 0 false sim 0
    ++ [.resume 0 ⟨.sendFailed accepted, 0⟩, .resume 0 ⟨.tick, 0⟩]

/-- The result that is recorded and returned. -/
def failedResult : ExecutionResult :=
  Pipeline.mkResult sepoliaDeps firstRequest .failed none 0

/-- The failure is recorded in the place of an unknown outcome. -/
def failureRecorded (shared : Shared) : Shared :=
  { shared with
    store := (shared.store.put (Pipeline.recordOf firstRequest payeeContext
      (Pipeline.mkResult sepoliaDeps firstRequest .unknown none 0))).update
        "exec-1" (Pipeline.setResult failedResult) }

theorem failedSubmission_ends (accepted : Bool) :
    ∃ tx sim past shared,
      (Pipeline.program sepoliaDeps).run ⟨⟨.empty, none⟩, []⟩
          (failedSubmission sim accepted) =
        some ⟨shared, [⟨.execute firstRequest payeeContext,
          Pipeline.returning failedResult, past⟩]⟩ ∧
      Pipeline.getResult shared "exec-1" = .ok failedResult ∧
      (.sending tx, ⟨.sendFailed accepted, 0⟩) ∈ past ∧
      ∀ txHash, ¬ Sent txHash past := by
  obtain ⟨tx, sim, hacceptable⟩ := payee_acceptable
  obtain ⟨next, past, hrun, hstore, -⟩ :=
    @reaches_signer sepoliaDeps firstRequest payeeContext 0 tx sim
      ⟨.empty, none⟩ hacceptable rfl []
  have hkept := (histories_kept.run
    ⟨trivial, fun _ hmem => absurd hmem List.not_mem_nil⟩ hrun).2 _
      (List.mem_singleton_self _)
  have hnone : answersOfSigner past = 0 := History.unsent hkept trivial
  have hsending : (Pipeline.program sepoliaDeps).resume
      (.execute firstRequest payeeContext) (.sending tx)
      ⟨.sendFailed accepted, 0⟩ next =
      some (next, .submitted (.failed (broadcastFailed tx))) := rfl
  have hrecord : (Pipeline.program sepoliaDeps).resume
      (.execute firstRequest payeeContext)
      (.submitted (.failed (broadcastFailed tx))) ⟨.tick, 0⟩ next =
      some (failureRecorded next, Pipeline.returning failedResult) := rfl
  refine ⟨tx, sim, past ++ [(.sending tx, ⟨.sendFailed accepted, 0⟩)] ++
    [(.submitted (.failed (broadcastFailed tx)), ⟨.tick, 0⟩)],
    failureRecorded next, ?_, ?_, ?_, ?_⟩
  · have hfirst : (Pipeline.program sepoliaDeps).run ⟨⟨.empty, none⟩, []⟩
        (wellAnswered sepoliaDeps (.execute firstRequest payeeContext) 0 false
          sim 0) = some ⟨next, [] ++ [⟨.execute firstRequest payeeContext,
            .sending tx, past⟩]⟩ := hrun
    rw [failedSubmission, Program.run_append, hfirst, Option.bind_some]
    have hlast := @Program.run_resume_last _ _ _ _
      (Pipeline.program sepoliaDeps) next _ []
      ⟨.execute firstRequest payeeContext, .sending tx, past⟩ _ _
      [.resume 0 ⟨.tick, 0⟩] hsending
    rw [List.length_nil] at hlast
    rw [hlast]
    exact Program.run_resume_last hrecord
  · have hrecord : (failureRecorded next).store.byExecutionId "exec-1" =
        some (Pipeline.recordOf firstRequest payeeContext failedResult) := by
      unfold failureRecorded
      simp only [IdempotencyStore.byExecutionId_update, if_true,
        IdempotencyStore.byExecutionId_put]
      rfl
    simp only [Pipeline.getResult, hrecord]
    rfl
  · simp
  · intro txHash
    rw [sent_append, sent_append]
    simp [not_sent_of_answersOfSigner hnone txHash]

/-- Where the network had not accepted the transaction, nothing moved. -/
theorem refused_payment_unmoved :
    ∃ sim shared task,
      (Pipeline.program sepoliaDeps).Meets (Begins "key-1")
        ⟨⟨.empty, none⟩, []⟩ (failedSubmission sim false) ∧
      (Pipeline.program sepoliaDeps).Meets (Admits "key-1")
        ⟨⟨.empty, none⟩, []⟩ (failedSubmission sim false) ∧
      (Pipeline.program sepoliaDeps).run ⟨⟨.empty, none⟩, []⟩
        (failedSubmission sim false) = some ⟨shared, [task]⟩ ∧
      Pipeline.getResult shared "exec-1" = .ok failedResult ∧
      FailedOnlyIfUnmoved "key-1" ⟨shared, [task]⟩ := by
  obtain ⟨tx, sim, past, shared, hrun, hresult, -, -⟩ :=
    failedSubmission_ends false
  have hbegins : (Pipeline.program sepoliaDeps).Meets (Begins "key-1")
      ⟨⟨.empty, none⟩, []⟩ (failedSubmission sim false) := by
    refine ⟨⟨fun _ => ⟨by decide, ?_⟩, ?_⟩, fun next _ =>
      Program.meets_of_forall ?_ next⟩
    · exact fun task hmem => absurd hmem List.not_mem_nil
    · exact fun task hmem => absurd hmem List.not_mem_nil
    · simp [Begins]
  have hadmits : (Pipeline.program sepoliaDeps).Meets (Admits "key-1")
      ⟨⟨.empty, none⟩, []⟩ (failedSubmission sim false) := by
    apply Program.meets_of_forall
    simp [failedSubmission, wellAnswered, Admits]
  exact ⟨sim, shared, _, hbegins, hadmits, hrun, hresult,
    failed_only_if_unmoved hbegins hadmits hrun⟩

/-- The core's records of the execution: 10 USDC are held for it. -/
def heldDatabase : Database :=
  { ExecutionResults.authorizedDatabase with
    financialReservations := [{ ExecutionResults.sampleHold with
      executionRequestId := some "exec-1" }]
    executionRequests := [{ ExecutionResults.sampleRequest with
      id := "exec-1" }] }

/-- An executor that reports the execution FAILED. -/
def failingClient : ExecutionResults.ExecutionClient where
  getResult id := if id = "exec-1" then .ok .failed else .error .language
  verify _ := .error .language

theorem failingClient_releases :
    Releases heldDatabase (ExecutionResults.reconcile .reference failingClient
      "acme" "exec-1" 0 heldDatabase).2 := by
  have hafter : (Financial.lookupReservation "reservation-1"
      (ExecutionResults.reconcile .reference failingClient "acme" "exec-1" 0
        heldDatabase).2).map FinancialReservation.status = some .released := by
    decide
  obtain ⟨res, hlookup, hstatus⟩ := Option.map_eq_some_iff.mp hafter
  refine ⟨"reservation-1", ⟨res, hlookup, hstatus⟩, ?_⟩
  rintro ⟨held, hheld, hreleased⟩
  have hbefore : (Financial.lookupReservation "reservation-1"
      heldDatabase).map FinancialReservation.status = some .reserved := by
    decide
  rw [hheld, Option.map_some, hreleased] at hbefore
  exact absurd hbefore (by decide)

/-- The network accepted the payment, the signer raised an error, the
execution is reported FAILED, and the core releases the reservation. -/
theorem accepted_payment_reported_failed :
    ∃ sim shared task,
      (Pipeline.program sepoliaDeps).run ⟨⟨.empty, none⟩, []⟩
        (failedSubmission sim true) = some ⟨shared, [task]⟩ ∧
      task.point = Pipeline.returning failedResult ∧
      failedResult.status = .failed ∧
      Pipeline.getResult shared "exec-1" = .ok failedResult ∧
      ¬ NothingMoved "key-1" ⟨shared, [task]⟩ ∧
      Asks failingClient shared ∧
      Releases heldDatabase (ExecutionResults.reconcile .reference
        failingClient "acme" "exec-1" 0 heldDatabase).2 := by
  obtain ⟨tx, sim, past, shared, hrun, hresult, hentry, hsent⟩ :=
    failedSubmission_ends true
  refine ⟨sim, shared, _, hrun, rfl, rfl, hresult, ?_, ?_,
    failingClient_releases⟩
  · rintro (hunmoved | ⟨task, hmem, hkey, txHash, point, reply, hheard, -⟩)
    · obtain ⟨-, hanswers⟩ :=
        hunmoved _ (List.mem_singleton_self _) rfl
      exact hanswers tx _ hentry rfl
    · rw [List.mem_singleton.mp hmem] at hheard
      exact hsent txHash hheard
  · intro id status hstatus
    by_cases hid : id = "exec-1"
    · subst hid
      refine ⟨failedResult, hresult, ?_⟩
      simpa [failingClient, failedResult, clientStatus] using hstatus
    · simp [failingClient, hid] at hstatus

end Execution
end Orvex
