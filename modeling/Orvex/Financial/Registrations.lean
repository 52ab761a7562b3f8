import Orvex.Concurrency.RowLocks
import Orvex.Concurrency.Scripts
import Orvex.Core.Reference
import Orvex.Financial.Idempotency

/-!
# Concurrent registrations of one key

A registration looks for its key, inserts a record, and looks again when the
insertion fails.  The insertion waits for every unfinished insertion of the
same key, so that the first one to commit wins and all others find its
record.
-/

namespace Orvex
namespace Idempotency

open ReadCommitted

/-- The columns of the unique constraint. -/
structure RequestKey where
  companyId : String
  operationType : String
  idempotencyKey : String
  deriving DecidableEq

def RegisterInput.requestKey (input : RegisterInput) : RequestKey :=
  ⟨input.companyId, input.operationType, input.idempotencyKey⟩

def requestKeyOf (record : IdempotencyRecord) : RequestKey :=
  ⟨record.companyId, record.operationType, record.idempotencyKey⟩

/-- The records of a key, as the table lists them. -/
def keyRecords (key : RequestKey) (db : Database) : List IdempotencyRecord :=
  db.idempotencyRecords.filter (fun record => requestKeyOf record = key)

inductive RowKey where
  | record (id : String)
  | request (key : RequestKey)
  deriving DecidableEq

inductive Answer where
  | registered
      (result : Except Failure (RegisterOutcome × IdempotencyRecord))
  /-- The call never ended. -/
  | lost

abbrev RegisterScript := Script Database RowKey Answer

/-- The answer to a call whose key has a record. -/
def answerTo (rt : Runtime) (input : RegisterInput)
    (record : IdempotencyRecord) :
    Except Failure (RegisterOutcome × IdempotencyRecord) :=
  if record.requestHash ≠ requestHash rt input.request then
    .error (conflict input)
  else .ok (.replay, record)

/-- The primary key and the unique constraint. -/
def recordAllowed (input : RegisterInput) (record : IdempotencyRecord)
    (db : Database) : Bool :=
  (idempotencyTable.lookup record.id db).isNone &&
    (findRecord input db).isNone

def insertRecord (input : RegisterInput) (record : IdempotencyRecord) :
    Write Database RowKey :=
  ⟨[.record record.id, .request input.requestKey],
    idempotencyTable.insert record⟩

def planRecord (input : RegisterInput) (record : IdempotencyRecord)
    (db : Database) : Option (Write Database RowKey) :=
  if recordAllowed input record db then some (insertRecord input record)
  else none

def publishRecord (record : IdempotencyRecord) : RegisterScript :=
  .commit (.done (.registered (.ok (.new, record))))

/-- After a failed insertion: another caller may have registered the key. -/
def lookAgain (rt : Runtime) (input : RegisterInput) : RegisterScript :=
  .read (fun db =>
    match findRecord input db with
    | some winner => .done (.registered (answerTo rt input winner))
    | none =>
        .done (.registered (.error
          (.of .internalError "Idempotency registration failed." []))))

def createRecord (rt : Runtime) (input : RegisterInput) (uuid : String) :
    RegisterScript :=
  .write (planRecord input (newRecord rt input uuid))
    (fun _ => publishRecord (newRecord rt input uuid)) (lookAgain rt input)

/-- `register`, one statement after the other. -/
def registering (rt : Runtime) (input : RegisterInput) (uuid : String) :
    RegisterScript :=
  .read (fun db =>
    match findRecord input db with
    | some existing => .done (.registered (answerTo rt input existing))
    | none => createRecord rt input uuid)

theorem answerTo_eq (rt : Runtime) (input : RegisterInput)
    (record : IdempotencyRecord) (db : Database) :
    replayOf rt input record db = (answerTo rt input record, db) := by
  unfold replayOf answerTo
  split <;> rfl

/-- A registration that runs alone does what `register` does. -/
theorem registering_alone (rt : Runtime) (input : RegisterInput)
    (uuid : String) (db : Database) :
    (registering rt input uuid).alone [] db =
      (.registered (register rt input uuid db).1,
        (register rt input uuid db).2) := by
  unfold registering register
  simp only [Script.alone, overlay_nil, Fallible.query_bind]
  cases hfind : findRecord input db with
  | some existing =>
      simp only [Script.alone, answerTo_eq]
  | none =>
      simp only [createRecord, Script.alone, overlay_nil,
        Fallible.attempt_bind]
      by_cases hallowed : recordAllowed input (newRecord rt input uuid) db =
          true
      · have hcreate : idempotencyTable.create Failure.constraint
            (fun db => (findRecord input db).isNone)
            (newRecord rt input uuid) db =
              (.ok (newRecord rt input uuid),
                idempotencyTable.insert (newRecord rt input uuid) db) := by
          have hparts := hallowed
          unfold recordAllowed at hparts
          rw [Bool.and_eq_true, Option.isNone_iff_eq_none] at hparts
          exact Table.create_eq_ok.mpr ⟨hparts.1, hparts.2, rfl, rfl⟩
        have hplan : planRecord input (newRecord rt input uuid) db =
            some (insertRecord input (newRecord rt input uuid)) :=
          if_pos hallowed
        simp only [hplan, hcreate]
        rfl
      · have hcreate : idempotencyTable.create Failure.constraint
            (fun db => (findRecord input db).isNone)
            (newRecord rt input uuid) db = (.error .constraint, db) := by
          have hrefused : ((idempotencyTable.lookup
              (idempotencyTable.key (newRecord rt input uuid)) db).isNone &&
                (findRecord input db).isNone) ≠ true := hallowed
          unfold Table.create
          rw [Fallible.query_bind]
          simp only [if_neg hrefused, Fallible.fail_apply]
        have hplan : planRecord input (newRecord rt input uuid) db = none :=
          if_neg hallowed
        simp only [hplan, hcreate, lookAgain, Script.alone, overlay_nil,
          hfind, Fallible.query_bind, afterRace, Fallible.fail_apply]

/-! ## The calls of one key -/

structure RegisterCall where
  input : RegisterInput
  uuid : String

def RegisterCall.record (rt : Runtime) (call : RegisterCall) :
    IdempotencyRecord :=
  newRecord rt call.input call.uuid

def RegisterCall.script (rt : Runtime) (call : RegisterCall) :
    RegisterScript :=
  registering rt call.input call.uuid

theorem sameKey_iff {input : RegisterInput} {record : IdempotencyRecord} :
    SameKey input record ↔ requestKeyOf record = input.requestKey := by
  simp [SameKey, requestKeyOf, RegisterInput.requestKey]

theorem findRecord_eq_head? (input : RegisterInput) (db : Database) :
    findRecord input db = (keyRecords input.requestKey db).head? := by
  unfold findRecord keyRecords
  rw [List.head?_filter]
  change db.idempotencyRecords.find? _ = _
  congr 1
  funext record
  exact decide_eq_decide.mpr sameKey_iff

theorem keyRecords_insert (key : RequestKey) (record : IdempotencyRecord)
    (db : Database) (h : requestKeyOf record = key) :
    keyRecords key (idempotencyTable.insert record db) =
      keyRecords key db ++ [record] := by
  unfold keyRecords
  change (db.idempotencyRecords ++ [record]).filter _ = _
  rw [List.filter_append]
  simp [h]

theorem planRecord_eq_some {input : RegisterInput}
    {record : IdempotencyRecord} {db : Database}
    {own : Write Database RowKey}
    (h : planRecord input record db = some own) :
    findRecord input db = none ∧ own = insertRecord input record := by
  unfold planRecord at h
  split at h
  next hallowed =>
    unfold recordAllowed at hallowed
    rw [Bool.and_eq_true, Option.isNone_iff_eq_none,
      Option.isNone_iff_eq_none] at hallowed
    exact ⟨hallowed.2, (Option.some.inj h).symm⟩
  next => exact absurd h (by simp)

theorem planRecord_eq_none {input : RegisterInput}
    {record : IdempotencyRecord} {db : Database}
    (h : planRecord input record db = none) :
    idempotencyTable.lookup record.id db ≠ none ∨
      findRecord input db ≠ none := by
  unfold planRecord at h
  split at h
  next => exact absurd h (by simp)
  next hrefused =>
    unfold recordAllowed at hrefused
    rw [Bool.and_eq_true, Option.isNone_iff_eq_none,
      Option.isNone_iff_eq_none] at hrefused
    tauto

/-! ## What holds at every moment -/

/-- Where a call stands while its key has these records. -/
inductive Standing (rt : Runtime) (call : RegisterCall)
    (records : List IdempotencyRecord) :
    Session Database RowKey RegisterScript → Prop
  | reading : Standing rt call records (.start _ _ (call.script rt))
  | creating : Standing rt call records
      (.start _ _ (createRecord rt call.input call.uuid))
  | publishing (hvacant : records = []) {held : List RowKey}
      (hheld : .request call.input.requestKey ∈ held) :
      Standing rt call records
        ⟨publishRecord (call.record rt),
          [insertRecord call.input (call.record rt)], held⟩
  | lookingAgain (htaken : records ≠ []) :
      Standing rt call records (.start _ _ (lookAgain rt call.input))
  | won (hrecords : records = [call.record rt]) :
      Standing rt call records
        (.start _ _ (.done (.registered (.ok (.new, call.record rt)))))
  | answered {record : IdempotencyRecord} (hrecords : records = [record]) :
      Standing rt call records
        (.start _ _ (.done (.registered (answerTo rt call.input record))))
  | gone : Standing rt call records (.start _ _ (.done .lost))

section

variable {ι : Type} [DecidableEq ι] {rt : Runtime} {key : RequestKey}
  {calls : ι → RegisterCall}

/-- The key has no record, or that of a call which has won. -/
structure Registering (rt : Runtime) (key : RequestKey)
    (calls : ι → RegisterCall)
    (machine : Machine ι Database RowKey RegisterScript) : Prop where
  locked : machine.RowLocked (fun _ _ => ())
  standing : ∀ i, Standing rt (calls i) (keyRecords key machine.committed)
    (machine.sessions i)
  winner : keyRecords key machine.committed = [] ∨
    ∃ i, keyRecords key machine.committed = [(calls i).record rt] ∧
      (machine.sessions i).point =
        .done (.registered (.ok (.new, (calls i).record rt)))
  fresh : ∀ i,
    idempotencyTable.lookup (calls i).uuid machine.committed ≠ none →
      keyRecords key machine.committed = [(calls i).record rt]

theorem findRecord_of_call {call : RegisterCall}
    (hkey : call.input.requestKey = key) (db : Database) :
    findRecord call.input db = (keyRecords key db).head? := by
  rw [findRecord_eq_head?, hkey]

/-- A session that moves on while the tables stay. -/
theorem Registering.put
    {machine : Machine ι Database RowKey RegisterScript}
    (h : Registering rt key calls machine) {i : ι}
    {session : Session Database RowKey RegisterScript}
    (hlocked : (machine.put i session).RowLocked (fun _ _ => ()))
    (hbusy : ∀ result, (machine.sessions i).point ≠ .done result)
    (hstanding : Standing rt (calls i)
      (keyRecords key machine.committed) session) :
    Registering rt key calls (machine.put i session) := by
  refine ⟨hlocked, ?_, ?_, h.fresh⟩
  · intro j
    by_cases hj : j = i
    · subst hj
      rw [Machine.put_sessions_self, Machine.put_committed]
      exact hstanding
    · rw [Machine.put_sessions_of_ne machine hj]
      exact h.standing j
  · rcases h.winner with hvacant | ⟨j, hrecords, hpoint⟩
    · exact Or.inl hvacant
    · have hj : j ≠ i := fun heq => hbusy _ (heq ▸ hpoint)
      refine Or.inr ⟨j, hrecords, ?_⟩
      rw [Machine.put_sessions_of_ne machine hj]
      exact hpoint

/-- Only a call that has inserted its record is about to commit. -/
theorem Standing.of_commit {call : RegisterCall}
    {records : List IdempotencyRecord}
    {session : Session Database RowKey RegisterScript}
    (h : Standing rt call records session) {next : RegisterScript}
    (hpoint : session.point = .commit next) :
    records = [] ∧
      next = .done (.registered (.ok (.new, call.record rt))) ∧
      session.pending = [insertRecord call.input (call.record rt)] ∧
      .request call.input.requestKey ∈ session.held := by
  cases h with
  | publishing hvacant hheld =>
      exact ⟨hvacant, (Script.commit.inj hpoint).symm, rfl, hheld⟩
  | _ => cases hpoint

/-- A call that has not inserted its record, once another one has won. -/
theorem Standing.after_winner {call : RegisterCall}
    {session : Session Database RowKey RegisterScript}
    (h : Standing rt call [] session)
    (hfree : .request call.input.requestKey ∉ session.held)
    (records : List IdempotencyRecord) :
    Standing rt call records session := by
  cases h with
  | reading => exact .reading
  | creating => exact .creating
  | publishing _ hheld => exact absurd hheld hfree
  | lookingAgain htaken => exact absurd rfl htaken
  | won hrecords => cases hrecords
  | answered hrecords => cases hrecords
  | gone => exact .gone

/-- The commit of a call that has inserted its record. -/
theorem Registering.publish
    {machine : Machine ι Database RowKey RegisterScript}
    (h : Registering rt key calls machine)
    (hkey : ∀ i, (calls i).input.requestKey = key)
    (hids : Function.Injective (fun i => (calls i).uuid)) {i : ι}
    {next : RegisterScript}
    (hpoint : (machine.sessions i).point = .commit next)
    (hlocked : (machine.publish i next).RowLocked (fun _ _ => ())) :
    Registering rt key calls (machine.publish i next) := by
  obtain ⟨hvacant, hnext, hpending, hheld⟩ :=
    (h.standing i).of_commit hpoint
  have hview : machine.view i =
      idempotencyTable.insert ((calls i).record rt) machine.committed := by
    unfold Machine.view
    rw [hpending]
    rfl
  have hrecords : keyRecords key (machine.publish i next).committed =
      [(calls i).record rt] := by
    have hown : requestKeyOf ((calls i).record rt) = key := hkey i
    rw [Machine.publish_committed, hview, keyRecords_insert key _ _ hown,
      hvacant, List.nil_append]
  refine ⟨hlocked, ?_, ?_, ?_⟩
  · intro j
    rw [hrecords]
    by_cases hj : j = i
    · subst hj
      rw [Machine.publish_sessions_self, hnext]
      exact .won rfl
    · rw [Machine.publish_sessions_of_ne machine hj]
      have hstanding := h.standing j
      rw [hvacant] at hstanding
      apply hstanding.after_winner
      rw [hkey j, ← hkey i]
      exact h.locked.exclusive i j _ (Ne.symm hj) hheld
  · refine Or.inr ⟨i, hrecords, ?_⟩
    rw [Machine.publish_sessions_self, hnext]
    rfl
  · intro j hused
    rw [hrecords]
    by_cases hj : j = i
    · rw [hj]
    · -- the new record has another id
      rw [Machine.publish_committed, hview] at hused
      have hother : idempotencyTable.lookup (calls j).uuid
          (idempotencyTable.insert ((calls i).record rt) machine.committed) =
            idempotencyTable.lookup (calls j).uuid machine.committed := by
        have hne : (calls i).uuid ≠ (calls j).uuid :=
          fun heq => hj (hids heq).symm
        change KeyedTable.lookup _ _ (_ ++ [_]) = _
        rw [KeyedTable.lookup_append_singleton]
        exact (congrArg _ (if_neg hne)).trans (Option.or_none ..)
      rw [hother] at hused
      have hbefore := h.fresh j hused
      rw [hvacant] at hbefore
      cases hbefore

/-- A call that looks for its key. -/
theorem Standing.read {call : RegisterCall} {db : Database}
    {session : Session Database RowKey RegisterScript}
    (h : Standing rt call (keyRecords key db) session)
    (hkey : call.input.requestKey = key)
    (hone : keyRecords key db = [] ∨
      ∃ record, keyRecords key db = [record])
    {next : Database → RegisterScript}
    (hpoint : session.point = .read next) :
    Standing rt call (keyRecords key db)
      { session with point := next (overlay session.pending db) } := by
  have hfind := findRecord_of_call hkey db
  cases h with
  | reading =>
      cases hpoint
      rcases hone with hvacant | ⟨record, hrecord⟩
      · rw [hvacant] at hfind ⊢
        simp only [Session.start, overlay_nil, hfind, List.head?_nil]
        exact .creating
      · rw [hrecord] at hfind ⊢
        simp only [Session.start, overlay_nil, hfind, List.head?_cons]
        exact .answered rfl
  | lookingAgain htaken =>
      cases hpoint
      rcases hone with hvacant | ⟨record, hrecord⟩
      · exact absurd hvacant htaken
      · rw [hrecord] at hfind ⊢
        simp only [Session.start, overlay_nil, hfind, List.head?_cons]
        exact .answered rfl
  | _ => cases hpoint

/-- A call whose insertion succeeds. -/
theorem Standing.write {call : RegisterCall} {db : Database}
    {session : Session Database RowKey RegisterScript}
    (h : Standing rt call (keyRecords key db) session)
    (hkey : call.input.requestKey = key)
    {plan : Database → Option (Write Database RowKey)}
    {next : Database → RegisterScript} {failed : RegisterScript}
    {own : Write Database RowKey}
    (hpoint : session.point = .write plan next failed)
    (hplan : plan (overlay session.pending db) = some own) :
    Standing rt call (keyRecords key db)
      ⟨next (overlay session.pending db), session.pending ++ [own],
        own.keys ++ session.held⟩ := by
  cases h with
  | creating =>
      cases hpoint
      obtain ⟨hfind, rfl⟩ := planRecord_eq_some hplan
      have hvacant : keyRecords key db = [] := by
        have hnone : findRecord call.input db = none := hfind
        rw [findRecord_of_call hkey, List.head?_eq_none_iff] at hnone
        exact hnone
      apply Standing.publishing hvacant
      simp [insertRecord]
  | _ => cases hpoint

/-- A call whose insertion fails, which only a record of its key can
cause. -/
theorem Standing.violate {call : RegisterCall} {db : Database}
    {session : Session Database RowKey RegisterScript}
    (h : Standing rt call (keyRecords key db) session)
    (hkey : call.input.requestKey = key)
    (hfresh : idempotencyTable.lookup call.uuid db ≠ none →
      keyRecords key db ≠ [])
    {plan : Database → Option (Write Database RowKey)}
    {next : Database → RegisterScript} {failed : RegisterScript}
    (hpoint : session.point = .write plan next failed)
    (hplan : plan (overlay session.pending db) = none) :
    Standing rt call (keyRecords key db)
      { session with point := failed } := by
  cases h with
  | creating =>
      cases hpoint
      apply Standing.lookingAgain
      rcases planRecord_eq_none hplan with hused | hfound
      · exact hfresh hused
      · have hsome : findRecord call.input db ≠ none := hfound
        rw [findRecord_of_call hkey, ne_eq, List.head?_eq_none_iff] at hsome
        exact hsome
  | _ => cases hpoint

theorem Registering.step
    {machine next : Machine ι Database RowKey RegisterScript}
    {event : Event ι} (h : Registering rt key calls machine)
    (hkey : ∀ i, (calls i).input.requestKey = key)
    (hids : Function.Injective (fun i => (calls i).uuid))
    (hstep : Step (Script.program Answer.lost) machine event next) :
    Registering rt key calls next := by
  have hframes : Program.Frames (fun (_ : RowKey) (_ : Database) => ())
      (Script.program (α := Answer) .lost) :=
    fun _ _ _ _ _ _ _ _ _ _ _ => rfl
  have hlocked := h.locked.step hframes hstep
  have hone : keyRecords key machine.committed = [] ∨
      ∃ record, keyRecords key machine.committed = [record] :=
    h.winner.imp_right (fun ⟨i, hrecords, _⟩ => ⟨_, hrecords⟩)
  cases hstep.script with
  | @read i rest hpoint =>
      apply h.put hlocked
      · intro result hdone
        cases hpoint.symm.trans hdone
      · exact (h.standing i).read (hkey i) hone hpoint
  | @write i plan rest failed own hpoint hplan hfree =>
      apply h.put hlocked
      · intro result hdone
        cases hpoint.symm.trans hdone
      · exact (h.standing i).write (hkey i) hpoint hplan
  | @violate i plan rest failed hpoint hplan =>
      apply h.put hlocked
      · intro result hdone
        cases hpoint.symm.trans hdone
      · apply (h.standing i).violate (hkey i) _ hpoint hplan
        intro hused
        rw [h.fresh i hused]
        simp
  | @rollback i rest hpoint =>
      have hstanding := h.standing i
      generalize machine.sessions i = session at hstanding hpoint
      cases hstanding <;> cases hpoint
  | @lose i hpoint => exact h.put hlocked hpoint .gone
  | @commit i rest hpoint => exact h.publish hkey hids hpoint hlocked

omit [DecidableEq ι] in
theorem registering_starting {db : Database}
    (hvacant : keyRecords key db = [])
    (hfresh : ∀ i, idempotencyTable.lookup (calls i).uuid db = none) :
    Registering rt key calls
      (Machine.starting db (fun i => (calls i).script rt)) := by
  refine ⟨Machine.rowLocked_of_start _ (fun i => ⟨_, rfl⟩),
    fun i => .reading, Or.inl hvacant, ?_⟩
  intro i hused
  exact absurd (hfresh i) hused

/-! ## What the calls return -/

/-- No statement of the sessions can run. -/
def Ended [Fintype ι]
    (machine : Machine ι Database RowKey RegisterScript) : Prop :=
  ∀ i, machine.step (Script.program Answer.lost) (.run i) = none

/-- A session that is about to commit can always run. -/
theorem Ended.not_committing [Fintype ι]
    {machine : Machine ι Database RowKey RegisterScript}
    (h : Ended machine) (i : ι) (next : RegisterScript) :
    (machine.sessions i).point ≠ .commit next := by
  intro hpoint
  have hnone := h i
  simp [Machine.step, hpoint, Script.program, Script.stmt] at hnone

omit [DecidableEq ι] in
/-- Only a session that is about to commit holds anything. -/
theorem Standing.commits_of_held {call : RegisterCall}
    {records : List IdempotencyRecord}
    {session : Session Database RowKey RegisterScript}
    (h : Standing rt call records session) {held : RowKey}
    (hheld : held ∈ session.held) :
    ∃ next, session.point = .commit next := by
  cases h with
  | publishing _ _ => exact ⟨_, rfl⟩
  | _ => exact absurd hheld List.not_mem_nil

/-- Nothing waits forever: where no statement can run, all calls have
ended. -/
theorem Registering.done_of_ended [Fintype ι]
    {machine : Machine ι Database RowKey RegisterScript}
    (h : Registering rt key calls machine) (hended : Ended machine) (i : ι) :
    ∃ answer, (machine.sessions i).point = .done answer := by
  have hnone := hended i
  simp only [Machine.step, Script.program] at hnone
  cases hpoint : (machine.sessions i).point with
  | done answer => exact ⟨answer, rfl⟩
  | read next => simp [hpoint, Script.stmt] at hnone
  | commit next => exact absurd hpoint (hended.not_committing i next)
  | rollback next => simp [hpoint, Script.stmt] at hnone
  | write plan next failed =>
      have hfree : ∀ held, machine.Free i held := by
        intro held j hj hheld
        obtain ⟨other, hother⟩ := (h.standing j).commits_of_held hheld
        exact hended.not_committing j other hother
      cases hplan : plan (machine.view i) with
      | none => simp [hpoint, Script.stmt, hplan] at hnone
      | some own => simp [hpoint, Script.stmt, hplan, hfree] at hnone

theorem answerTo_of_same {input : RegisterInput}
    {record : IdempotencyRecord}
    (h : requestHash rt input.request = record.requestHash) :
    answerTo rt input record = .ok (.replay, record) := by
  unfold answerTo
  rw [if_neg (fun hne => hne h.symm)]

theorem answerTo_of_differs {input : RegisterInput}
    {record : IdempotencyRecord}
    (h : requestHash rt input.request ≠ record.requestHash) :
    answerTo rt input record = .error (conflict input) := by
  unfold answerTo
  rw [if_pos (Ne.symm h)]

omit [DecidableEq ι] in
/-- A call ends with the record of its key. -/
theorem Standing.of_done {call : RegisterCall}
    {records : List IdempotencyRecord}
    {session : Session Database RowKey RegisterScript}
    (h : Standing rt call records session) {answer : Answer}
    (hpoint : session.point = .done answer) (hkept : answer ≠ .lost) :
    ∃ record, records = [record] ∧
      (answer = .registered (answerTo rt call.input record) ∨
        record = call.record rt) := by
  cases h with
  | won hrecords => exact ⟨_, hrecords, Or.inr rfl⟩
  | answered hrecords =>
      exact ⟨_, hrecords, Or.inl (Script.done.inj hpoint).symm⟩
  | gone => exact absurd (Script.done.inj hpoint).symm hkept
  | _ => cases hpoint

/-- Of the calls that register one new key exactly one registers it.  Every
call with the same body is given its record, and every other call is refused,
in whichever order their statements run. -/
theorem register_linearizable [Fintype ι] [Nonempty ι] {db : Database}
    (hkey : ∀ i, (calls i).input.requestKey = key)
    (hvacant : keyRecords key db = [])
    (hids : Function.Injective (fun i => (calls i).uuid))
    (hfresh : ∀ i, idempotencyTable.lookup (calls i).uuid db = none)
    {schedule : List (Event ι)}
    {final : Machine ι Database RowKey RegisterScript}
    (hrun : (Machine.starting db (fun i => (calls i).script rt)).run
      (Script.program Answer.lost) schedule = some final)
    (hended : Ended final)
    (hkept : ∀ i, (final.sessions i).point ≠ .done .lost) :
    ∃ winner,
      keyRecords key final.committed = [(calls winner).record rt] ∧
      ((calls winner).record rt).requestHash =
        requestHash rt (calls winner).input.request ∧
      (final.sessions winner).point =
        .done (.registered (.ok (.new, (calls winner).record rt))) ∧
      ∀ i, i ≠ winner →
        (requestHash rt (calls i).input.request =
            requestHash rt (calls winner).input.request →
          (final.sessions i).point =
            .done (.registered (.ok (.replay, (calls winner).record rt)))) ∧
        (requestHash rt (calls i).input.request ≠
            requestHash rt (calls winner).input.request →
          (final.sessions i).point =
            .done (.registered (.error (conflict (calls i).input)))) := by
  have hfinal : Registering rt key calls final :=
    Machine.run_induction
      (fun machine event next h hstep => h.step hkey hids hstep)
      (registering_starting hvacant hfresh) hrun
  have hreturned : ∀ i, ∃ answer record,
      (final.sessions i).point = .done answer ∧
        keyRecords key final.committed = [record] ∧
        (answer = .registered (answerTo rt (calls i).input record) ∨
          record = (calls i).record rt) := by
    intro i
    obtain ⟨answer, hdone⟩ := hfinal.done_of_ended hended i
    have hreturns : answer ≠ .lost := fun hlost => hkept i (hlost ▸ hdone)
    obtain ⟨record, hrecord⟩ := (hfinal.standing i).of_done hdone hreturns
    exact ⟨answer, record, hdone, hrecord⟩
  have htaken : keyRecords key final.committed ≠ [] := by
    obtain ⟨i⟩ := ‹Nonempty ι›
    obtain ⟨_, record, _, hrecords, _⟩ := hreturned i
    simp [hrecords]
  obtain ⟨winner, hrecords, hwinner⟩ :=
    hfinal.winner.resolve_left htaken
  refine ⟨winner, hrecords, rfl, hwinner, fun i hi => ?_⟩
  have hanswer : (final.sessions i).point =
      .done (.registered (answerTo rt (calls i).input
        ((calls winner).record rt))) := by
    obtain ⟨answer, record, hdone, hown, hcases⟩ := hreturned i
    have hsame : (calls winner).record rt = record :=
      List.singleton_injective (hrecords.symm.trans hown)
    rcases hcases with hanswer | hrecord
    · rw [hdone, hanswer, hsame]
    · -- the ids of the calls are different
      have hid : (calls winner).uuid = (calls i).uuid :=
        congrArg IdempotencyRecord.id (hsame.trans hrecord)
      exact absurd (hids hid).symm hi
  rw [hanswer]
  constructor
  · intro hsame
    rw [answerTo_of_same hsame]
  · intro hdiffers
    rw [answerTo_of_differs hdiffers]

end

/-! ## Two registrations -/

def sampleCalls (second : Bool) : RegisterCall where
  input :=
    { companyId := "acme"
      idempotencyKey := "payment-1"
      operationType := "execution.authorize"
      request := .object [("amount", .string "10")]
      resourceType := none
      resourceId := none }
  uuid := if second then "record-2" else "record-1"

/-- Both calls look for the key before either of them inserts. -/
def sampleSchedule : List (Event Bool) :=
  [.run false, .run true, .run true, .run true, .run false, .run false]

/-- The second call wins the race and the first one is given its record. -/
theorem sample_linearizable :
    ∃ final winner,
      (Machine.starting Database.empty (fun i =>
          (sampleCalls i).script .reference)).run
        (Script.program Answer.lost) sampleSchedule = some final ∧
      (final.sessions winner).point = .done (.registered
        (.ok (.new, (sampleCalls winner).record .reference))) ∧
      ∀ i, i ≠ winner →
        (final.sessions i).point = .done (.registered
          (.ok (.replay, (sampleCalls winner).record .reference))) := by
  have hrun : ∃ final,
      (Machine.starting Database.empty (fun i =>
          (sampleCalls i).script .reference)).run
        (Script.program Answer.lost) sampleSchedule = some final ∧
      Ended final ∧ ∀ i, (final.sessions i).point ≠ .done .lost := by
    refine ⟨_, rfl, ?_, ?_⟩
    · intro i
      cases i <;> rfl
    · intro i hlost
      cases i <;> cases hlost
  obtain ⟨final, hrun, hended, hkept⟩ := hrun
  have hids : Function.Injective (fun i => (sampleCalls i).uuid) := by
    decide
  obtain ⟨winner, _, _, hwinner, hothers⟩ :=
    @register_linearizable Bool _ .reference
      ⟨"acme", "execution.authorize", "payment-1"⟩ sampleCalls _ _ .empty
      (fun _ => rfl) rfl hids (fun i => by cases i <;> rfl) _ final hrun
      hended hkept
  exact ⟨final, winner, hrun, hwinner, fun i hi => (hothers i hi).1 rfl⟩

end Idempotency
end Orvex
