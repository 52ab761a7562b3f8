import Orvex.Execution.Histories
import Orvex.Execution.Submissions

/-!
# One broadcast per idempotency key

The key is looked up when a call begins and written when its submission is
recorded.  Calls that overlap between the two look the key up in vain and
all reach the signer.  Where no call begins while another with its key is
between the two, the key has one broadcast, and every call that returns
reports its record.
-/

namespace Orvex
namespace Execution

open Awaits (Task Pool Move Program)
open Awaits.Program (getElem?_append_cases mem_set_cases mem_set_of_mem)

/-! ## Calls of a key -/

def Call.idempotencyKey : Call → Option String
  | .execute request _ => some request.idempotencyKey
  | .verify _ => none

def Call.executionId : Call → Option String
  | .execute request _ => some request.executionId
  | .verify _ => none

/-- How often the calls with the key have called the signer. -/
def broadcasts (key : String) (pool : Pool Shared Call Point Reply) : ℕ :=
  ((pool.tasks.filter
    (fun task => task.call.idempotencyKey = some key)).map sends).sum

/-- A call with the key begins only with an execution id, and while no call
with the key is open; and calls with other keys are for other executions. -/
def Begins (key : String) (pool : Pool Shared Call Point Reply) :
    Move Call Reply → Prop
  | .start call _ =>
      (call.idempotencyKey = some key → call.executionId ≠ some "" ∧
        ∀ task ∈ pool.tasks, task.call.idempotencyKey = some key →
          ¬ Open task.point) ∧
      ∀ task ∈ pool.tasks, ∀ id, call.executionId = some id →
        task.call.executionId = some id →
        (call.idempotencyKey = some key ↔
          task.call.idempotencyKey = some key)
  | .resume _ _ => True

/-- The call reports this execution with this hash, or waits for its
receipt. -/
structure Reports (id : String) (txHash : Option String)
    (task : Task Call Point Reply) : Prop where
  returned : ∀ result, task.point = Pipeline.returning result →
    result.executionId = id ∧ result.transactionHash = txHash
  waits : ∀ found, WaitsFor found task.point →
    txHash = some found ∧ task.call.executionId = some id

/-- The key is recorded, and the calls with it report its record. -/
structure RecordedAs (key id : String) (txHash : Option String)
    (pool : Pool Shared Call Point Reply) : Prop where
  nonempty : id ≠ ""
  index : pool.shared.store.keyIndex.get key = some id
  record : ∃ record, pool.shared.store.byExecutionId id = some record ∧
    record.result.executionId = id ∧ record.result.transactionHash = txHash
  owner : ∃ task ∈ pool.tasks, task.call.idempotencyKey = some key ∧
    task.call.executionId = some id ∧ Recorded task.past
  closed : ∀ task ∈ pool.tasks, task.call.idempotencyKey = some key →
    ¬ Open task.point
  reports : ∀ task ∈ pool.tasks, task.call.idempotencyKey = some key →
    Reports id txHash task
  sent : ∀ found, txHash = some found ↔
    ∃ task ∈ pool.tasks, task.call.idempotencyKey = some key ∧
      Sent found task.past

/-- The key is not recorded, and no call with it has recorded anything or
returned. -/
structure Unrecorded (key : String) (pool : Pool Shared Call Point Reply) :
    Prop where
  index : pool.shared.store.keyIndex.get key = none
  silent : ∀ task ∈ pool.tasks, task.call.idempotencyKey = some key →
    ¬ Recorded task.past ∧ ∀ result, task.point ≠ Pipeline.returning result

/-- The call is open or has recorded its submission. -/
def Contends (task : Task Call Point Reply) : Prop :=
  Open task.point ∨ Recorded task.past

/-- What orderly calls of a key keep: at most one of them contends for the
signer, and the store tells whether it has recorded its submission. -/
structure Serial (key : String) (pool : Pool Shared Call Point Reply) :
    Prop where
  named : ∀ task ∈ pool.tasks, task.call.idempotencyKey = some key →
    task.call.executionId ≠ some ""
  apart : ∀ task ∈ pool.tasks, ∀ other ∈ pool.tasks, ∀ id,
    task.call.executionId = some id → other.call.executionId = some id →
      task.call.idempotencyKey = some key →
      other.call.idempotencyKey = some key
  single : ∀ (i j : ℕ) (task other : Task Call Point Reply),
    pool.tasks[i]? = some task → pool.tasks[j]? = some other →
    task.call.idempotencyKey = some key →
    other.call.idempotencyKey = some key → Contends task → Contends other →
    i = j
  state : Unrecorded key pool ∨ ∃ id txHash, RecordedAs key id txHash pool

variable {deps : PipelineDeps} {key : String}
  {pool pool' : Pool Shared Call Point Reply}

/-! ## Beginning a call -/

theorem Unrecorded.byKey (h : Unrecorded key pool) :
    pool.shared.store.byKey key = none := by
  rw [IdempotencyStore.byKey, h.index]

theorem RecordedAs.byKey {id : String} {txHash : Option String}
    (h : RecordedAs key id txHash pool) :
    pool.shared.store.byKey key = pool.shared.store.byExecutionId id := by
  obtain ⟨record, hrecord, -, -⟩ := h.record
  rw [hrecord]
  exact IdempotencyStore.byKey_eq_some.mpr
    ⟨id, h.nonempty, h.index, hrecord⟩

theorem not_contends_of_done {call : Call} {outcome : Outcome} :
    ¬ Contends ⟨call, .done outcome, []⟩ := by
  rintro (hopen | hrecorded)
  · exact hopen
  · exact not_recorded_nil hrecorded

/-- Where the key has no record, no call with it contends unless it is
open. -/
theorem Unrecorded.not_contends (h : Unrecorded key pool)
    {task : Task Call Point Reply} (hmem : task ∈ pool.tasks)
    (hkey : task.call.idempotencyKey = some key) (hclosed : ¬ Open task.point) :
    ¬ Contends task := by
  rintro (hopen | hrecorded)
  · exact hclosed hopen
  · exact (h.silent task hmem hkey).1 hrecorded

/-- A call that begins keeps the calls named, apart and single, where it
does not contend or is the only one that does. -/
theorem Serial.append (h : Serial key pool) {call : Call} {reply : Reply}
    {task : Task Call Point Reply} (hcall : task.call = call)
    (hbegins : Begins key pool (.start call reply))
    (honly : call.idempotencyKey = some key → Contends task →
      ∀ other ∈ pool.tasks, other.call.idempotencyKey = some key →
        ¬ Contends other)
    (hstate : Unrecorded key ⟨pool.shared, pool.tasks ++ [task]⟩ ∨
      ∃ id txHash, RecordedAs key id txHash
        ⟨pool.shared, pool.tasks ++ [task]⟩) :
    Serial key ⟨pool.shared, pool.tasks ++ [task]⟩ where
  named := by
    intro other hmem hkey
    rcases List.mem_append.mp hmem with hold | hnew
    · exact h.named other hold hkey
    · rw [List.mem_singleton.mp hnew, hcall] at hkey ⊢
      exact (hbegins.1 hkey).1
  apart := by
    intro one hone two htwo id hid hid' hkey
    rcases List.mem_append.mp hone with hone | hone
    · rcases List.mem_append.mp htwo with htwo | htwo
      · exact h.apart one hone two htwo id hid hid' hkey
      · rw [List.mem_singleton.mp htwo, hcall] at hid' ⊢
        exact (hbegins.2 one hone id hid' hid).mpr hkey
    · rw [List.mem_singleton.mp hone, hcall] at hid hkey
      rcases List.mem_append.mp htwo with htwo | htwo
      · exact (hbegins.2 two htwo id hid hid').mp hkey
      · rw [List.mem_singleton.mp htwo, hcall]
        exact hkey
  single := by
    intro i j one two hone htwo hkey hkey' hcontends hcontends'
    rcases getElem?_append_cases hone with hold | ⟨hi, hnew⟩
    · rcases getElem?_append_cases htwo with hold' | ⟨hj, hnew'⟩
      · exact h.single i j one two hold hold' hkey hkey' hcontends hcontends'
      · rw [hnew'] at hcontends'
        rw [hnew', hcall] at hkey'
        exact absurd hcontends (honly hkey' hcontends' one
          (List.mem_of_getElem? hold) hkey)
    · rcases getElem?_append_cases htwo with hold' | ⟨hj, -⟩
      · rw [hnew] at hcontends
        rw [hnew, hcall] at hkey
        exact absurd hcontends' (honly hkey hcontends two
          (List.mem_of_getElem? hold') hkey')
      · rw [hi, hj]
  state := hstate

/-- The call that begins is not open and returns nothing but the record of
its key. -/
theorem RecordedAs.append {id : String} {txHash : Option String}
    (h : RecordedAs key id txHash pool) {task : Task Call Point Reply}
    (hpast : task.past = [])
    (hnew : task.call.idempotencyKey = some key →
      ¬ Open task.point ∧ Reports id txHash task) :
    RecordedAs key id txHash ⟨pool.shared, pool.tasks ++ [task]⟩ where
  nonempty := h.nonempty
  index := h.index
  record := h.record
  owner := by
    obtain ⟨owner, hmem, howner⟩ := h.owner
    exact ⟨owner, List.mem_append_left _ hmem, howner⟩
  closed := by
    intro other hmem hkey
    rcases List.mem_append.mp hmem with hold | hsame
    · exact h.closed other hold hkey
    · rw [List.mem_singleton.mp hsame] at hkey ⊢
      exact (hnew hkey).1
  reports := by
    intro other hmem hkey
    rcases List.mem_append.mp hmem with hold | hsame
    · exact h.reports other hold hkey
    · rw [List.mem_singleton.mp hsame] at hkey ⊢
      exact (hnew hkey).2
  sent := by
    intro found
    rw [h.sent found]
    constructor
    · rintro ⟨other, hmem, hother⟩
      exact ⟨other, List.mem_append_left _ hmem, hother⟩
    · rintro ⟨other, hmem, hkey, hsent⟩
      rcases List.mem_append.mp hmem with hold | hsame
      · exact ⟨other, hold, hkey, hsent⟩
      · obtain ⟨tx, reply, hentry, -⟩ := hsent
        rw [List.mem_singleton.mp hsame, hpast] at hentry
        exact absurd hentry List.not_mem_nil

theorem Unrecorded.append (h : Unrecorded key pool)
    {task : Task Call Point Reply}
    (hnew : task.call.idempotencyKey = some key →
      ¬ Recorded task.past ∧ ∀ result, task.point ≠ Pipeline.returning result) :
    Unrecorded key ⟨pool.shared, pool.tasks ++ [task]⟩ where
  index := h.index
  silent := by
    intro other hmem hkey
    rcases List.mem_append.mp hmem with hold | hsame
    · exact h.silent other hold hkey
    · rw [List.mem_singleton.mp hsame] at hkey ⊢
      exact hnew hkey

/-- A call without the key leaves what is kept for the key. -/
theorem Serial.start_other (h : Serial key pool) {call : Call} {reply : Reply}
    {point : Point} (hbegins : Begins key pool (.start call reply))
    (hother : call.idempotencyKey ≠ some key) :
    Serial key ⟨pool.shared, pool.tasks ++ [⟨call, point, []⟩]⟩ := by
  refine h.append rfl hbegins (fun hkey => absurd hkey hother) ?_
  rcases h.state with hstate | ⟨id, txHash, hstate⟩
  · exact Or.inl (hstate.append fun hkey => absurd hkey hother)
  · refine Or.inr ⟨id, txHash, hstate.append rfl fun hkey => ?_⟩
    exact absurd hkey hother

theorem begin_not_returning {request : ExecutionRequest} {shared : Shared}
    (hnone : shared.store.byKey request.idempotencyKey = none)
    (result : ExecutionResult) :
    Pipeline.begin deps request shared ≠ Pipeline.returning result := by
  intro hreturning
  rcases @begin_cases deps request shared with ⟨prior, hprior, -⟩ |
    ⟨-, hpreparing | ⟨thrown, heq⟩⟩
  · rw [hnone] at hprior
    simp at hprior
  · rw [hreturning] at hpreparing
    exact hpreparing
  · rw [hreturning] at heq
    simp [Pipeline.returning, Pipeline.throwing] at heq

theorem Serial.start (h : Serial key pool) {call : Call} {reply : Reply}
    (hbegins : Begins key pool (.start call reply))
    (hmove : (Pipeline.program deps).move pool (.start call reply) =
      some pool') : Serial key pool' := by
  rw [Program.move_start, Option.some.injEq] at hmove
  subst hmove
  cases call with
  | verify executionId =>
      exact h.start_other hbegins (by simp [Call.idempotencyKey])
  | execute request ctx =>
      by_cases hkey : request.idempotencyKey = key
      · subst hkey
        obtain ⟨-, hclosed⟩ := hbegins.1 rfl
        rcases h.state with hstate | ⟨id, txHash, hstate⟩
        · have hnone := hstate.byKey
          refine h.append rfl hbegins (fun _ _ other hmem hother =>
            hstate.not_contends hmem hother (hclosed other hmem hother)) ?_
          exact Or.inl (hstate.append fun _ =>
            ⟨not_recorded_nil, begin_not_returning hnone⟩)
        · obtain ⟨record, hrecord, hid, hhash⟩ := hstate.record
          have hprior : pool.shared.store.byKey request.idempotencyKey =
              some record := by rw [hstate.byKey, hrecord]
          have hbegin : (Pipeline.program deps).enter (.execute request ctx)
              reply pool.shared =
                (pool.shared, Pipeline.returning record.result) := by
            change (pool.shared, Pipeline.begin deps request pool.shared) = _
            rw [Pipeline.begin, hprior]
          rw [hbegin]
          refine h.append rfl hbegins
            (fun _ hcontends => absurd hcontends not_contends_of_done) ?_
          refine Or.inr ⟨id, txHash, hstate.append rfl fun _ => ?_⟩
          refine ⟨fun hopen => hopen, ?_, fun found hwaits => absurd hwaits ?_⟩
          · intro result hresult
            simp only [Pipeline.returning, Point.done.injEq,
              Outcome.result.injEq, Except.ok.injEq] at hresult
            rw [← hresult]
            exact ⟨hid, hhash⟩
          · exact fun hfalse => hfalse
      · exact h.start_other hbegins (by simpa [Call.idempotencyKey] using hkey)

/-! ## Going on with a call -/

/-- A step of a call leaves the calls named, apart and single. -/
theorem Serial.set (h : Serial key pool) {shared : Shared} {index : ℕ}
    {task next : Task Call Point Reply}
    (htask : pool.tasks[index]? = some task) (hcall : next.call = task.call)
    (hcontends : task.call.idempotencyKey = some key → Contends task)
    (hstate : Unrecorded key ⟨shared, pool.tasks.set index next⟩ ∨
      ∃ id txHash, RecordedAs key id txHash
        ⟨shared, pool.tasks.set index next⟩) :
    Serial key ⟨shared, pool.tasks.set index next⟩ := by
  have hmem := List.mem_of_getElem? htask
  have hcalls : ∀ other ∈ pool.tasks.set index next, ∃ old ∈ pool.tasks,
      old.call = other.call := by
    intro other hother
    rcases mem_set_cases hother with rfl | ⟨position, -, hold⟩
    · exact ⟨task, hmem, hcall.symm⟩
    · exact ⟨other, List.mem_of_getElem? hold, rfl⟩
  have hold : ∀ (i : ℕ) (other : Task Call Point Reply),
      (pool.tasks.set index next)[i]? = some other →
      other.call.idempotencyKey = some key → Contends other →
      ∃ old, pool.tasks[i]? = some old ∧
        old.call.idempotencyKey = some key ∧ Contends old := by
    intro i other hother hkey hcontend
    rw [List.getElem?_set] at hother
    by_cases hsame : index = i
    · subst hsame
      rw [if_pos rfl] at hother
      split at hother
      next =>
        rw [Option.some.injEq] at hother
        rw [← hother, hcall] at hkey
        exact ⟨task, htask, hkey, hcontends hkey⟩
      next => simp at hother
    · rw [if_neg hsame] at hother
      exact ⟨other, hother, hkey, hcontend⟩
  constructor
  · intro other hother hkey
    obtain ⟨old, hold, heq⟩ := hcalls other hother
    rw [← heq] at hkey ⊢
    exact h.named old hold hkey
  · intro one hone two htwo id hid hid' hkey
    obtain ⟨old, hmem, heq⟩ := hcalls one hone
    obtain ⟨old', hmem', heq'⟩ := hcalls two htwo
    rw [← heq] at hid hkey
    rw [← heq'] at hid' ⊢
    exact h.apart old hmem old' hmem' id hid hid' hkey
  · intro i j one two hone htwo hkey hkey' hcontend hcontend'
    obtain ⟨old, hget, hkeyed, hcontends⟩ := hold i one hone hkey hcontend
    obtain ⟨old', hget', hkeyed', hcontends'⟩ :=
      hold j two htwo hkey' hcontend'
    exact h.single i j old old' hget hget' hkeyed hkeyed' hcontends hcontends'
  · exact hstate

theorem Unrecorded.set (h : Unrecorded key pool) {shared : Shared}
    {index : ℕ} {next : Task Call Point Reply}
    (hindex : shared.store.keyIndex.get key = none)
    (hnext : next.call.idempotencyKey = some key →
      ¬ Recorded next.past ∧ ∀ result, next.point ≠ Pipeline.returning result) :
    Unrecorded key ⟨shared, pool.tasks.set index next⟩ where
  index := hindex
  silent := by
    intro other hother hkey
    rcases mem_set_cases hother with rfl | ⟨position, -, hold⟩
    · exact hnext hkey
    · exact h.silent other (List.mem_of_getElem? hold) hkey

theorem RecordedAs.set {id : String} {txHash : Option String}
    (h : RecordedAs key id txHash pool) {shared : Shared} {index : ℕ}
    {task next : Task Call Point Reply}
    (htask : pool.tasks[index]? = some task) (hcall : next.call = task.call)
    (hindex : shared.store.keyIndex.get key = some id)
    (hrecord : ∃ record, shared.store.byExecutionId id = some record ∧
      record.result.executionId = id ∧ record.result.transactionHash = txHash)
    (hkeep : Recorded task.past → Recorded next.past)
    (hsent : next.call.idempotencyKey = some key →
      ∀ found, Sent found next.past ↔ Sent found task.past)
    (hnext : next.call.idempotencyKey = some key →
      ¬ Open next.point ∧ Reports id txHash next) :
    RecordedAs key id txHash ⟨shared, pool.tasks.set index next⟩ where
  nonempty := h.nonempty
  index := hindex
  record := hrecord
  owner := by
    obtain ⟨owner, hmem, howner⟩ := h.owner
    rcases mem_set_of_mem htask hmem with hstays | ⟨rfl, hnext⟩
    · exact ⟨owner, hstays, howner⟩
    · rw [← hcall] at howner
      exact ⟨next, hnext, howner.1, howner.2.1, hkeep howner.2.2⟩
  closed := by
    intro other hother hkey
    rcases mem_set_cases hother with rfl | ⟨position, -, hold⟩
    · exact (hnext hkey).1
    · exact h.closed other (List.mem_of_getElem? hold) hkey
  reports := by
    intro other hother hkey
    rcases mem_set_cases hother with rfl | ⟨position, -, hold⟩
    · exact (hnext hkey).2
    · exact h.reports other (List.mem_of_getElem? hold) hkey
  sent := by
    intro found
    rw [h.sent found]
    constructor
    · rintro ⟨other, hmem, hkey, hother⟩
      rcases mem_set_of_mem htask hmem with hstays | ⟨rfl, hnext⟩
      · exact ⟨other, hstays, hkey, hother⟩
      · rw [← hcall] at hkey
        exact ⟨next, hnext, hkey, (hsent hkey found).mpr hother⟩
    · rintro ⟨other, hmem, hkey, hother⟩
      rcases mem_set_cases hmem with rfl | ⟨position, -, hold⟩
      · exact ⟨task, List.mem_of_getElem? htask, by rw [← hcall]; exact hkey,
          (hsent hkey found).mp hother⟩
      · exact ⟨other, List.mem_of_getElem? hold, hkey, hother⟩

/-- A step of a call without the key leaves what is kept for the key. -/
theorem Serial.resume_other (h : Serial key pool) {index : ℕ}
    {task : Task Call Point Reply} {reply : Reply} {shared : Shared}
    {point : Point} (htask : pool.tasks[index]? = some task)
    (hother : task.call.idempotencyKey ≠ some key)
    (hindex : shared.store.keyIndex.get key =
      pool.shared.store.keyIndex.get key)
    (hresult : ∀ id, task.call.executionId ≠ some id →
      (shared.store.byExecutionId id).map ExecutionRecord.result =
        (pool.shared.store.byExecutionId id).map ExecutionRecord.result) :
    Serial key ⟨shared, pool.tasks.set index (task.next reply point)⟩ := by
  have hmem := List.mem_of_getElem? htask
  have hnext : (task.next reply point).call = task.call := rfl
  refine h.set htask hnext (fun hkey => absurd hkey hother) ?_
  rcases h.state with hstate | ⟨id, txHash, hstate⟩
  · refine Or.inl (hstate.set (hindex.trans hstate.index) fun hkey => ?_)
    exact absurd hkey hother
  · obtain ⟨owner, howner, hkeyed, hexecution, -⟩ := hstate.owner
    have hapart : task.call.executionId ≠ some id := by
      intro hsame
      exact hother (h.apart owner howner task hmem id hexecution hsame hkeyed)
    obtain ⟨record, hrecord, hid, hhash⟩ := hstate.record
    have hfound : ∃ found, shared.store.byExecutionId id = some found ∧
        found.result = record.result := by
      have hmap := hresult id hapart
      rw [hrecord] at hmap
      exact Option.map_eq_some_iff.mp hmap
    obtain ⟨found, hfound, hsame⟩ := hfound
    refine Or.inr ⟨id, txHash, hstate.set htask hnext
      (hindex.trans hstate.index) ⟨found, hfound, ?_, ?_⟩
      (fun hrecorded => recorded_append.mpr (Or.inl hrecorded))
      (fun hkey => absurd hkey hother) fun hkey => absurd hkey hother⟩
    · rw [hsame, hid]
    · rw [hsame, hhash]

section

variable {request : ExecutionRequest} {ctx : AuthorizedContext}
  {past : List (Point × Reply)} {point point' : Point} {reply : Reply}
  {shared : Shared}

theorem history_of_key
    (hkept : ∀ task ∈ pool.tasks, Kept task.call task.past task.point)
    {task : Task Call Point Reply} (hmem : task ∈ pool.tasks)
    (hkey : task.call.idempotencyKey = some key) :
    History task.past task.point := by
  have htask := hkept task hmem
  cases hcall : task.call with
  | verify executionId =>
      rw [hcall] at hkey
      simp [Call.idempotencyKey] at hkey
  | execute request ctx =>
      rw [hcall] at htask
      exact htask

/-- A call that goes on is open, or waits for the receipt of a hash. -/
theorem open_or_waits_of_step
    (h : Pipeline.step deps request ctx point reply pool.shared =
      some (shared, point')) :
    Open point ∨ ∃ txHash, WaitsFor txHash point := by
  cases point with
  | checkingChain | recheckingChain | readingBalance | simulatingTransfer
  | estimatingGas | sending | submitted => exact Or.inl trivial
  | waitingForReceipt txHash | gettingReceipt txHash | sleeping txHash =>
      exact Or.inr ⟨txHash, rfl⟩
  | verifying =>
      rw [step_verifying] at h
      simp at h
  | done =>
      rw [step_done] at h
      simp at h

theorem Prepares.not_returning
    (h : Prepares deps request ctx point reply point')
    (result : ExecutionResult) : point' ≠ Pipeline.returning result := by
  intro heq
  cases h with
  | thrown =>
      simp [Pipeline.throwing, Pipeline.returning] at heq
  | prepared | simulation | balance | simulated | sending | refused =>
      simp [Pipeline.returning] at heq

/-- Before the record the key stays unrecorded. -/
theorem Unrecorded.step (h : Unrecorded key pool)
    {task : Task Call Point Reply} {index : ℕ}
    (hhistory : History task.past task.point) (hunsent : Unsent task.point)
    (hstep : Pipeline.step deps request ctx task.point reply pool.shared =
      some (shared, point')) :
    Unrecorded key
      ⟨shared, pool.tasks.set index (task.next reply point')⟩ := by
  have hunrecorded : ¬ Recorded (task.past ++ [(task.point, reply)]) := by
    rw [recorded_append]
    rintro (hrecorded | ⟨submission, heq⟩)
    · have hopen : Open task.point := by
        cases hpoint : task.point with
        | submitted => trivial
        | _ =>
            rw [hpoint] at hunsent
            exact hunsent
      exact hhistory.unrecorded hopen hrecorded
    · rw [heq] at hunsent
      exact hunsent
  have hnext : shared.store = pool.shared.store ∧
      ∀ result, point' ≠ Pipeline.returning result := by
    cases hpoint : task.point with
    | checkingChain | recheckingChain | readingBalance | simulatingTransfer
    | estimatingGas =>
        rw [hpoint] at hstep
        obtain ⟨hstore, hprepares⟩ := step_preparing (by exact trivial) hstep
        exact ⟨hstore, hprepares.not_returning⟩
    | sending tx =>
        rw [hpoint] at hstep
        obtain ⟨hshared, hpoint'⟩ := step_sending hstep
        refine ⟨by rw [hshared], fun result heq => ?_⟩
        rcases hpoint' with ⟨_, -, hsubmitted⟩ | ⟨_, -, hsubmitted⟩
        · rw [hsubmitted] at heq
          simp [Pipeline.returning] at heq
        · rw [hsubmitted] at heq
          simp [Pipeline.returning] at heq
    | _ =>
        rw [hpoint] at hunsent
        exact absurd hunsent id
  refine h.set ?_ fun _ => ⟨hunrecorded, hnext.2⟩
  rw [hnext.1]
  exact h.index

/-- While a call is open before the record, the other calls with its key are
closed and have had no answer of the signer. -/
theorem Unrecorded.others (h : Unrecorded key pool) (hserial : Serial key pool)
    (hkept : ∀ task ∈ pool.tasks, Kept task.call task.past task.point)
    {task other : Task Call Point Reply} {index position : ℕ}
    (htask : pool.tasks[index]? = some task)
    (hkey : task.call.idempotencyKey = some key) (hopen : Open task.point)
    (hne : position ≠ index) (hother : pool.tasks[position]? = some other)
    (hotherKey : other.call.idempotencyKey = some key) :
    ¬ Open other.point ∧ ¬ Recorded other.past ∧
      answersOfSigner other.past = 0 := by
  have hmem := List.mem_of_getElem? hother
  have hclosed : ¬ Open other.point := by
    intro hotherOpen
    exact hne (hserial.single position index other task hother htask
      hotherKey hkey (Or.inl hotherOpen) (Or.inl hopen))
  have hunrecorded := (h.silent other hmem hotherKey).1
  refine ⟨hclosed, hunrecorded, ?_⟩
  have hhistory := history_of_key hkept hmem hotherKey
  by_contra hpos
  exact hunrecorded (hhistory.recorded hclosed (Nat.pos_of_ne_zero hpos))

/-- The record of the submission is the record of the key. -/
theorem Unrecorded.record (h : Unrecorded key pool) (hserial : Serial key pool)
    (hkept : ∀ task ∈ pool.tasks, Kept task.call task.past task.point)
    {task : Task Call Point Reply} {index : ℕ} {submission : Submission}
    (htask : pool.tasks[index]? = some task)
    (hcall : task.call = .execute request ctx)
    (hkey : request.idempotencyKey = key)
    (hpoint : task.point = .submitted submission) :
    ∃ id txHash, RecordedAs key id txHash
      ⟨(Pipeline.record deps request ctx submission reply.now
          pool.shared).1,
        pool.tasks.set index (task.next reply
          (Pipeline.record deps request ctx submission reply.now
            pool.shared).2)⟩ := by
  obtain ⟨result, hkeys, hrecords, hid, hends⟩ :=
    @record_cases deps request ctx submission reply.now pool.shared
  have hmem := List.mem_of_getElem? htask
  have hkeyed : task.call.idempotencyKey = some key := by
    rw [hcall, ← hkey]
    rfl
  have hexecution : task.call.executionId = some request.executionId := by
    rw [hcall]
    rfl
  have hopen : Open task.point := by
    rw [hpoint]
    trivial
  have hlt := (List.getElem?_eq_some_iff.mp htask).1
  refine ⟨request.executionId, result.transactionHash, ?_⟩
  constructor
  · intro hempty
    refine hserial.named task hmem hkeyed ?_
    rw [hexecution, hempty]
  · rw [hkeys, hkey, Entries.get_set_self]
  · refine ⟨Pipeline.recordOf request ctx result, ?_, hid, rfl⟩
    rw [hrecords, if_pos rfl]
  · exact ⟨_, List.mem_set hlt _, hkeyed, hexecution,
      recorded_append.mpr (Or.inr ⟨submission, hpoint⟩)⟩
  · intro other hother hotherKey
    rcases mem_set_cases hother with rfl | ⟨position, hne, hold⟩
    · exact record_not_open submission reply.now pool.shared
    · exact (h.others hserial hkept htask hkeyed hopen hne hold hotherKey).1
  · intro other hother hotherKey
    rcases mem_set_cases hother with rfl | ⟨position, hne, hold⟩
    · rcases hends with ⟨txHash, deadline, -, hhash, -, hnext⟩ |
        ⟨cause, -, hhash, hnext⟩
      · constructor
        · intro returned hreturned
          change (Pipeline.record deps request ctx submission reply.now
            pool.shared).2 = _ at hreturned
          rw [hnext] at hreturned
          simp [Pipeline.returning] at hreturned
        · intro found hwaits
          change WaitsFor found (Pipeline.record deps request ctx submission
            reply.now pool.shared).2 at hwaits
          rw [hnext] at hwaits
          have hsame : txHash = found := hwaits
          rw [hhash, hsame]
          exact ⟨rfl, hexecution⟩
      · constructor
        · intro returned hreturned
          change (Pipeline.record deps request ctx submission reply.now
            pool.shared).2 = _ at hreturned
          rw [hnext] at hreturned
          simp only [Pipeline.returning, Point.done.injEq,
            Outcome.result.injEq, Except.ok.injEq] at hreturned
          rw [← hreturned]
          exact ⟨hid, rfl⟩
        · intro found hwaits
          change WaitsFor found (Pipeline.record deps request ctx submission
            reply.now pool.shared).2 at hwaits
          rw [hnext] at hwaits
          exact absurd hwaits id
    · have hold' := List.mem_of_getElem? hold
      constructor
      · intro returned hreturned
        exact absurd hreturned ((h.silent other hold' hotherKey).2 returned)
      · intro found hwaits
        have hunrecorded := (h.others hserial hkept htask hkeyed hopen hne
          hold hotherKey).2.1
        have hhistory := history_of_key hkept hold' hotherKey
        exact absurd (hhistory.waits found hwaits).1 hunrecorded
  · intro found
    have hheard : Sent found task.past ↔ submission = .hash found :=
      (history_of_key hkept hmem hkeyed).heard submission hpoint found
    have hsubmission : result.transactionHash = some found ↔
        submission = .hash found := by
      rcases hends with ⟨txHash, deadline, hhash, hresult, -⟩ |
        ⟨cause, hfailed, hresult, -⟩
      · simp [hhash, hresult]
      · simp [hfailed, hresult]
    rw [hsubmission, ← hheard]
    constructor
    · intro hsent
      exact ⟨_, List.mem_set hlt _, hkeyed, sent_append.mpr (Or.inl hsent)⟩
    · rintro ⟨other, hother, hotherKey, hsent⟩
      rcases mem_set_cases hother with rfl | ⟨position, hne, hold⟩
      · refine (sent_append.mp hsent).resolve_right ?_
        rintro ⟨⟨tx, heq⟩, -⟩
        rw [hpoint] at heq
        simp at heq
      · have hnone := (h.others hserial hkept htask hkeyed hopen hne hold
          hotherKey).2.2
        exact absurd hsent (not_sent_of_answersOfSigner hnone found)

/-- A call that waits for the receipt of the recorded hash reports it. -/
theorem Reports.of_waits {id txHash : String} {task : Task Call Point Reply}
    (hwaits : WaitsFor txHash task.point)
    (hexecution : task.call.executionId = some id) :
    Reports id (some txHash) task where
  returned := by
    intro result hresult
    rw [hresult] at hwaits
    exact absurd hwaits not_waitsFor_returning
  waits := fun found hfound =>
    ⟨by rw [waitsFor_unique hfound hwaits], hexecution⟩

theorem Reports.of_throwing {id : String} {txHash : Option String}
    {task : Task Call Point Reply} {thrown : Thrown}
    (hpoint : task.point = Pipeline.throwing thrown) :
    Reports id txHash task where
  returned := by
    intro result hresult
    rw [hpoint] at hresult
    simp [Pipeline.throwing, Pipeline.returning] at hresult
  waits := by
    intro found hwaits
    rw [hpoint] at hwaits
    exact absurd hwaits not_false

theorem Reports.of_returning {id : String} {txHash : Option String}
    {task : Task Call Point Reply} {result : ExecutionResult}
    (hpoint : task.point = Pipeline.returning result)
    (hid : result.executionId = id)
    (hhash : result.transactionHash = txHash) : Reports id txHash task where
  returned := by
    intro returned hreturned
    rw [hpoint] at hreturned
    simp only [Pipeline.returning, Point.done.injEq, Outcome.result.injEq,
      Except.ok.injEq] at hreturned
    rw [← hreturned]
    exact ⟨hid, hhash⟩
  waits := by
    intro found hwaits
    rw [hpoint] at hwaits
    exact absurd hwaits not_waitsFor_returning

/-- A wait that ends gives the record of the key another status, and
nothing else. -/
theorem RecordedAs.step {id txHash : String}
    (h : RecordedAs key id (some txHash) pool) {task : Task Call Point Reply}
    {index : ℕ} (htask : pool.tasks[index]? = some task)
    (hexecution : task.call.executionId = some id)
    (hid : request.executionId = id) (hpoint : WaitsFor txHash task.point)
    (hwaits : Waits deps request txHash reply pool.shared shared point') :
    RecordedAs key id (some txHash)
      ⟨shared, pool.tasks.set index (task.next reply point')⟩ := by
  have hcall : (task.next reply point').call = task.call := rfl
  have hclosed := hwaits.not_open
  have hkeep : Recorded task.past → Recorded (task.next reply point').past :=
    fun hrecorded => recorded_append.mpr (Or.inl hrecorded)
  have hsent : (task.next reply point').call.idempotencyKey = some key →
      ∀ found, Sent found (task.next reply point').past ↔
        Sent found task.past := by
    intro _ found
    change Sent found (task.past ++ [(task.point, reply)]) ↔ _
    rw [sent_append, or_iff_left_iff_imp]
    rintro ⟨⟨tx, heq⟩, -⟩
    rw [heq] at hpoint
    exact False.elim hpoint
  rcases hwaits.cases with ⟨rfl, hnext⟩ | ⟨status, rfl, hnext, -⟩
  · refine h.set htask hcall h.index h.record hkeep hsent fun _ =>
      ⟨hclosed, ?_⟩
    rcases hnext with hwaiting | ⟨thrown, hthrown⟩
    · exact .of_waits hwaiting hexecution
    · exact .of_throwing hthrown
  · obtain ⟨record, hrecord, -, -⟩ := h.record
    refine h.set htask hcall ?_ ?_ hkeep hsent fun _ => ⟨hclosed, ?_⟩
    · rw [keyIndex_finish]
      exact h.index
    · refine ⟨Pipeline.setResult
        (Pipeline.mkResult deps request status (some txHash) reply.now) record,
        ?_, hid, rfl⟩
      rw [byExecutionId_finish, if_pos hid.symm, hid, hrecord]
      rfl
    · exact .of_returning hnext hid rfl

theorem Serial.resume_key (h : Serial key pool)
    (hkept : ∀ task ∈ pool.tasks, Kept task.call task.past task.point)
    {task : Task Call Point Reply} {index : ℕ}
    (htask : pool.tasks[index]? = some task)
    (hcall : task.call = .execute request ctx)
    (hkey : request.idempotencyKey = key)
    (hstep : Pipeline.step deps request ctx task.point reply pool.shared =
      some (shared, point')) :
    Serial key ⟨shared, pool.tasks.set index (task.next reply point')⟩ := by
  have hmem := List.mem_of_getElem? htask
  have hkeyed : task.call.idempotencyKey = some key := by
    rw [hcall, ← hkey]
    rfl
  have hhistory := history_of_key hkept hmem hkeyed
  have hprogress := open_or_waits_of_step hstep
  have hcontends : Contends task :=
    hprogress.imp_right fun ⟨txHash, hwaits⟩ => (hhistory.waits txHash hwaits).1
  have hnext : (task.next reply point').call = task.call := rfl
  refine h.set htask hnext (fun _ => hcontends) ?_
  rcases h.state with hstate | ⟨id, txHash, hstate⟩
  · have hunrecorded := (hstate.silent task hmem hkeyed).1
    have hopen : Open task.point := by
      refine hprogress.resolve_right ?_
      rintro ⟨txHash, hwaits⟩
      exact hunrecorded (hhistory.waits txHash hwaits).1
    cases hpoint : task.point with
    | submitted submission =>
        rw [hpoint] at hstep
        have hrecord := step_submitted hstep
        obtain ⟨id, txHash, hrecorded⟩ := @Unrecorded.record deps key pool
          request ctx reply hstate h hkept task index submission htask hcall
          hkey hpoint
        rw [← hrecord] at hrecorded
        exact Or.inr ⟨id, txHash, hrecorded⟩
    | _ =>
        refine Or.inl (hstate.step hhistory ?_ hstep)
        rw [hpoint] at hopen ⊢
        exact hopen
  · have hclosed := hstate.closed task hmem hkeyed
    obtain ⟨found, hwaits⟩ := hprogress.resolve_left hclosed
    obtain ⟨rfl, hexecution⟩ :=
      (hstate.reports task hmem hkeyed).waits found hwaits
    have hid : request.executionId = id := by
      rw [hcall] at hexecution
      exact Option.some.inj hexecution
    exact Or.inr ⟨id, some found, hstate.step htask hexecution hid
      hwaits (step_waiting hwaits hstep)⟩

end

/-! ## Runs -/

/-- What orderly calls keep, with the histories of all calls. -/
structure Orderly (key : String) (pool : Pool Shared Call Point Reply) :
    Prop where
  kept : ∀ task ∈ pool.tasks, Kept task.call task.past task.point
  serial : Serial key pool

theorem Orderly.move (h : Orderly key pool) {m : Move Call Reply}
    (hbegins : Begins key pool m)
    (hmove : (Pipeline.program deps).move pool m = some pool') :
    Orderly key pool' := by
  have hkept := histories_kept.move ⟨trivial, h.kept⟩ hmove
  refine ⟨hkept.2, ?_⟩
  cases m with
  | start call reply => exact h.serial.start hbegins hmove
  | resume index reply =>
      obtain ⟨task, shared, point, htask, hresume, rfl⟩ :=
        Program.move_resume.mp hmove
      cases hcall : task.call with
      | verify executionId =>
          rw [hcall] at hresume
          obtain ⟨hindex, hresult⟩ := resume_verify hresume
          refine h.serial.resume_other htask ?_ (by rw [hindex])
            fun id _ => hresult id
          simp [hcall, Call.idempotencyKey]
      | execute request ctx =>
          rw [hcall] at hresume
          by_cases hkey : request.idempotencyKey = key
          · exact h.serial.resume_key h.kept htask hcall hkey hresume
          · have hframe := step_frame hresume
            refine h.serial.resume_other htask ?_ ?_ fun id hid => ?_
            · simpa [hcall, Call.idempotencyKey] using hkey
            · exact hframe.keys key fun heq => hkey heq.symm
            · rw [hframe.records id]
              rintro rfl
              exact hid (by rw [hcall]; rfl)

theorem orderly_empty (key : String) :
    Orderly key ⟨⟨.empty, none⟩, []⟩ where
  kept := fun _ hmem => absurd hmem List.not_mem_nil
  serial :=
    { named := fun _ hmem => absurd hmem List.not_mem_nil
      apart := fun _ hmem => absurd hmem List.not_mem_nil
      single := by
        intro i j task other htask
        simp at htask
      state := Or.inl ⟨rfl, fun _ hmem => absurd hmem List.not_mem_nil⟩ }

theorem orderly_run {moves : List (Move Call Reply)}
    (hmeets : (Pipeline.program deps).Meets (Begins key)
      ⟨⟨.empty, none⟩, []⟩ moves)
    (hrun : (Pipeline.program deps).run ⟨⟨.empty, none⟩, []⟩ moves =
      some pool) : Orderly key pool :=
  Program.run_induction
    (fun _ _ _ hinv hbegins hmove => hinv.move hbegins hmove)
    (orderly_empty key) hmeets hrun

/-! ## One broadcast -/

theorem sends_le_one {task : Task Call Point Reply}
    (h : History task.past task.point) : sends task ≤ 1 := by
  unfold sends
  cases hpoint : task.point with
  | sending tx =>
      have hnone := h.unsent (by rw [hpoint]; trivial)
      rw [hnone]
      simp [isSending]
  | _ => exact h.once

theorem contends_of_sends {task : Task Call Point Reply}
    (h : History task.past task.point) (hpos : 0 < sends task) :
    Contends task := by
  by_cases hopen : Open task.point
  · exact Or.inl hopen
  · right
    apply h.recorded hopen
    unfold sends at hpos
    cases hpoint : task.point with
    | sending tx =>
        rw [hpoint] at hopen
        exact absurd trivial hopen
    | _ => simpa [hpoint, isSending] using hpos

/-- A sum of which at most one term is not zero, and that is one. -/
theorem sum_le_one {α : Type} {f : α → ℕ} {l : List α}
    (hle : ∀ a ∈ l, f a ≤ 1)
    (hpair : l.Pairwise (fun a b => f a = 0 ∨ f b = 0)) :
    (l.map f).sum ≤ 1 := by
  induction l with
  | nil => simp
  | cons a rest ih =>
      rw [List.pairwise_cons] at hpair
      have hrest := ih (fun b hb => hle b (List.mem_cons_of_mem a hb)) hpair.2
      rw [List.map_cons, List.sum_cons]
      by_cases hzero : f a = 0
      · omega
      · have hnone : (rest.map f).sum = 0 := by
          rw [List.sum_eq_zero_iff]
          intro n hn
          obtain ⟨b, hb, rfl⟩ := List.mem_map.mp hn
          exact (hpair.1 b hb).resolve_left hzero
        have hone := hle a List.mem_cons_self
        omega

theorem broadcasts_le_one (h : Orderly key pool) :
    broadcasts key pool ≤ 1 := by
  apply sum_le_one
  · intro task hmem
    obtain ⟨hin, hkey⟩ := List.mem_filter.mp hmem
    exact sends_le_one (history_of_key h.kept hin (of_decide_eq_true hkey))
  · rw [List.pairwise_filter, List.pairwise_iff_getElem]
    intro i j hi hj hlt hkey hkey'
    have hone := List.getElem?_eq_getElem hi
    have htwo := List.getElem?_eq_getElem hj
    by_contra hboth
    rw [not_or] at hboth
    have hkeyed := of_decide_eq_true hkey
    have hkeyed' := of_decide_eq_true hkey'
    have hsame := h.serial.single i j _ _ hone htwo hkeyed hkeyed'
      (contends_of_sends (history_of_key h.kept (List.getElem_mem hi) hkeyed)
        (Nat.pos_of_ne_zero hboth.1))
      (contends_of_sends (history_of_key h.kept (List.getElem_mem hj) hkeyed')
        (Nat.pos_of_ne_zero hboth.2))
    omega

/-- What the calls that return report: the record of the key, and the hash
of the broadcast where the signer gave one. -/
structure ReportsBroadcast (key : String)
    (pool : Pool Shared Call Point Reply) (result : ExecutionResult) :
    Prop where
  record : ∃ record, pool.shared.store.byKey key = some record ∧
    result.executionId = record.result.executionId ∧
    result.transactionHash = record.result.transactionHash
  sent : ∀ txHash, result.transactionHash = some txHash ↔
    ∃ task ∈ pool.tasks, task.call.idempotencyKey = some key ∧
      Sent txHash task.past

theorem reports_of_orderly (h : Orderly key pool)
    {task : Task Call Point Reply} {result : ExecutionResult}
    (hmem : task ∈ pool.tasks)
    (hkey : task.call.idempotencyKey = some key)
    (hreturned : task.point = Pipeline.returning result) :
    ReportsBroadcast key pool result := by
  rcases h.serial.state with hstate | ⟨id, txHash, hstate⟩
  · exact absurd hreturned ((hstate.silent task hmem hkey).2 result)
  · obtain ⟨record, hrecord, hid, hhash⟩ := hstate.record
    obtain ⟨hresultId, hresultHash⟩ :=
      (hstate.reports task hmem hkey).returned result hreturned
    refine ⟨⟨record, ?_, ?_, ?_⟩, ?_⟩
    · rw [hstate.byKey, hrecord]
    · rw [hresultId, hid]
    · rw [hresultHash, hhash]
    · rw [hresultHash]
      exact hstate.sent

/-- Where no call with the key begins while another is open, the signer is
called at most once for the key, and every call that returns reports the
record of that broadcast. -/
theorem one_broadcast_per_key {moves : List (Move Call Reply)}
    (hmeets : (Pipeline.program deps).Meets (Begins key)
      ⟨⟨.empty, none⟩, []⟩ moves)
    (hrun : (Pipeline.program deps).run ⟨⟨.empty, none⟩, []⟩ moves =
      some pool) :
    broadcasts key pool ≤ 1 ∧
      ∀ task ∈ pool.tasks, task.call.idempotencyKey = some key →
        ∀ result, task.point = Pipeline.returning result →
          ReportsBroadcast key pool result := by
  have horderly := orderly_run hmeets hrun
  exact ⟨broadcasts_le_one horderly, fun task hmem hkey result hreturned =>
    reports_of_orderly horderly hmem hkey hreturned⟩

/-- The payment is requested again once the first call has returned. -/
def retriedPayment (sim : SimulatedTransfer) : List (Move Call Reply) :=
  lateReceipt sim ++
    [.start (.execute firstRequest payeeContext) ⟨.tick, 60001⟩]

/-- Both calls have returned the recorded result. -/
def retriedTasks (past : List (Point × Reply)) :
    List (Task Call Point Reply) :=
  [⟨.execute firstRequest payeeContext, Pipeline.returning unknownResult,
      past⟩,
    ⟨.execute firstRequest payeeContext, Pipeline.returning unknownResult,
      []⟩]

theorem retriedPayment_begins {sim : SimulatedTransfer}
    {past : List (Point × Reply)} {shared : Shared}
    (hfirst : (Pipeline.program sepoliaDeps).run ⟨⟨.empty, none⟩, []⟩
        (lateReceipt sim) =
      some ⟨shared, [⟨.execute firstRequest payeeContext,
        Pipeline.returning unknownResult, past⟩]⟩) :
    (Pipeline.program sepoliaDeps).Meets (Begins "key-1")
      ⟨⟨.empty, none⟩, []⟩ (retriedPayment sim) := by
  apply Program.Meets.append
  · refine ⟨⟨fun _ => ⟨by decide, ?_⟩, ?_⟩, fun next _ =>
      Program.meets_of_forall ?_ next⟩
    · exact fun task hmem => absurd hmem List.not_mem_nil
    · exact fun task hmem => absurd hmem List.not_mem_nil
    · simp [Begins]
  · intro reached hreached
    rw [hfirst, Option.some.injEq] at hreached
    subst hreached
    refine ⟨⟨fun _ => ⟨by decide, ?_⟩, ?_⟩, fun _ _ => trivial⟩
    · intro task hmem _ hopen
      rw [List.mem_singleton.mp hmem] at hopen
      exact hopen
    · intro task hmem _ _ _
      rw [List.mem_singleton.mp hmem]

/-- A payment that is requested twice, one call after the other: the signer
is called once, and both calls return the record. -/
theorem retried_call_broadcasts_once :
    ∃ sim past shared,
      (Pipeline.program sepoliaDeps).run ⟨⟨.empty, none⟩, []⟩
        (retriedPayment sim) = some ⟨shared, retriedTasks past⟩ ∧
      broadcasts "key-1" ⟨shared, retriedTasks past⟩ ≠ 0 ∧
      (broadcasts "key-1" ⟨shared, retriedTasks past⟩ ≤ 1 ∧
        ∀ task ∈ retriedTasks past,
          task.call.idempotencyKey = some "key-1" →
            ∀ result, task.point = Pipeline.returning result →
              ReportsBroadcast "key-1" ⟨shared, retriedTasks past⟩
                result) := by
  obtain ⟨tx, sim, past, shared, hfirst, hsent⟩ := lateReceipt_ends
  have hfound : (unknownRecorded shared).store.byKey "key-1" =
      some (Pipeline.recordOf firstRequest payeeContext unknownResult) := by
    have hindex : (unknownRecorded shared).store.keyIndex.get "key-1" =
        some "exec-1" := by
      unfold unknownRecorded
      rw [IdempotencyStore.keyIndex_update]
      exact Entries.get_set_self _ _ _
    exact IdempotencyStore.byKey_eq_some.mpr
      ⟨"exec-1", by decide, hindex, byExecutionId_unknownRecorded shared⟩
  have hrun : (Pipeline.program sepoliaDeps).run ⟨⟨.empty, none⟩, []⟩
      (retriedPayment sim) =
        some ⟨unknownRecorded shared, retriedTasks past⟩ := by
    rw [retriedPayment, Program.run_append, hfirst, Option.bind_some,
      Program.run_cons Program.move_start]
    have hbegin : Pipeline.begin sepoliaDeps firstRequest
        (unknownRecorded shared) = Pipeline.returning unknownResult := by
      have hkey : firstRequest.idempotencyKey = "key-1" := rfl
      unfold Pipeline.begin
      rw [hkey, hfound]
      rfl
    change some (Pool.mk (unknownRecorded shared) [_, ⟨_,
      Pipeline.begin sepoliaDeps firstRequest (unknownRecorded shared),
      _⟩]) = _
    rw [hbegin]
    rfl
  have hnonzero : broadcasts "key-1"
      ⟨unknownRecorded shared, retriedTasks past⟩ ≠ 0 := by
    have hanswered : 0 < answersOfSigner past :=
      List.countP_pos_iff.mpr ⟨_, hsent, rfl⟩
    simp [broadcasts, retriedTasks, sends, Call.idempotencyKey,
      firstRequest]
    omega
  exact ⟨sim, past, unknownRecorded shared, hrun, hnonzero,
    one_broadcast_per_key (retriedPayment_begins hfirst) hrun⟩

/-- Two calls with one key that overlap both call the signer. -/
theorem overlapping_calls_broadcast_twice :
    ∃ moves pool,
      (Pipeline.program sepoliaDeps).run ⟨⟨.empty, none⟩, []⟩ moves =
        some pool ∧
      broadcasts "key-1" pool = 2 := by
  obtain ⟨tx, sim, hacceptable⟩ := payee_acceptable
  obtain ⟨next, past, hrun, hstore, hverified⟩ :=
    @reaches_signer sepoliaDeps firstRequest payeeContext 0 tx sim
      ⟨.empty, none⟩ hacceptable rfl []
  have hnew : next.store.byKey firstRequest.idempotencyKey = none := by
    rw [hstore]
    rfl
  obtain ⟨last, past', hrun', -, -⟩ := reaches_signer hacceptable hnew
    [⟨.execute firstRequest payeeContext, .sending tx, past⟩]
  have hboth : (Pipeline.program sepoliaDeps).run ⟨⟨.empty, none⟩, []⟩
      (wellAnswered sepoliaDeps (.execute firstRequest payeeContext) 0 false
          sim 0 ++
        wellAnswered sepoliaDeps (.execute firstRequest payeeContext) 1
          next.verifiedChainId.isSome sim 0) =
      some ⟨last, [⟨.execute firstRequest payeeContext, .sending tx, past⟩,
        ⟨.execute firstRequest payeeContext, .sending tx, past'⟩]⟩ := by
    have hfirst : (Pipeline.program sepoliaDeps).run ⟨⟨.empty, none⟩, []⟩
        (wellAnswered sepoliaDeps (.execute firstRequest payeeContext) 0 false
          sim 0) = some ⟨next, [⟨.execute firstRequest payeeContext,
            .sending tx, past⟩]⟩ := hrun
    rw [Program.run_append, hfirst, Option.bind_some]
    exact hrun'
  have hkept := (histories_kept.run
    ⟨trivial, fun _ hmem => absurd hmem List.not_mem_nil⟩ hboth).2
  have hnone : answersOfSigner past = 0 :=
    History.unsent (hkept _ List.mem_cons_self) trivial
  have hnone' : answersOfSigner past' = 0 :=
    History.unsent (hkept _ (List.mem_cons_of_mem _
      (List.mem_singleton_self _))) trivial
  refine ⟨_, _, hboth, ?_⟩
  simp [broadcasts, sends, hnone, hnone', isSending, Call.idempotencyKey,
    firstRequest]

end Execution
end Orvex
