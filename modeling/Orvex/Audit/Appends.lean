import Orvex.Audit.Chain
import Orvex.Core.Pinned

/-!
# Concurrent appends to the audit log

Nothing keeps two appends from finding the same end of a chain.  Where every
append that publishes a row has seen all rows of its entity, at a later time,
the chain stays linear.
-/

namespace Orvex
namespace Audit

open ReadCommitted

structure AppendCall where
  input : AppendAuditInput
  createdAt : ℤ
  uuid : String

def AppendCall.script (rt : Runtime) (order : ByCreatedAt)
    (call : AppendCall) : AuditScript :=
  append rt order call.input call.createdAt call.uuid

/-- The rows that an append depends on. -/
def AppendCall.rows (call : AppendCall) (db : Database) : List AuditEvent :=
  entityRows call.input.entity db

/-- The append is a duplicate, or later than every row of its entity. -/
def AppendCall.InTime (rt : Runtime) (call : AppendCall) (db : Database) :
    Prop :=
  (findSameContent rt call.input db).isSome ∨
    ∀ row ∈ call.rows db, row.createdAt < call.createdAt

def AllLinear (rt : Runtime) (db : Database) : Prop :=
  ∀ entity, Linear rt (entityRows entity db)

theorem entityRows_insert (entity : Entity) (row : AuditEvent)
    (db : Database) :
    entityRows entity (auditTable.insert row db) =
      if entityOf row = entity then entityRows entity db ++ [row]
      else entityRows entity db := by
  unfold entityRows
  change (db.auditEvents ++ [row]).filter _ = _
  rw [List.filter_append]
  by_cases hentity : entityOf row = entity <;> simp [hentity]

section

variable {rt : Runtime} {order : ByCreatedAt}

/-- A row that follows the end of its chain, at a later time. -/
theorem AllLinear.insert {db : Database} (h : AllLinear rt db)
    {row : AuditEvent}
    (hprevious : row.previousEventHash =
      (chain rt).head genesis (entityRows (entityOf row) db))
    (hvalid : (chain rt).Valid row)
    (hlater : ∀ other ∈ entityRows (entityOf row) db,
      other.createdAt < row.createdAt)
    (hnew : row.eventHash ∉
      (entityRows (entityOf row) db).map AuditEvent.eventHash) :
    AllLinear rt (auditTable.insert row db) := by
  intro entity
  rw [entityRows_insert]
  split
  next heq =>
    subst heq
    exact (h (entityOf row)).append hprevious hvalid hlater hnew
  next => exact h entity

theorem new_of_rowAllowed {row : AuditEvent} {db : Database}
    (h : rowAllowed row db = true) (entity : Entity) :
    row.eventHash ∉ (entityRows entity db).map AuditEvent.eventHash := by
  unfold rowAllowed at h
  rw [Bool.and_eq_true, List.all_eq_true] at h
  intro hmem
  obtain ⟨other, hother, heq⟩ := List.mem_map.mp hmem
  have hdiffers := h.2 other (List.mem_of_mem_filter hother)
  simp [heq] at hdiffers

/-- While no other append changes the rows of its entity, an append in time
keeps every chain linear. -/
theorem append_safe (hsorts : order.Sorts) (call : AppendCall)
    (o : List AuditEvent) :
    (call.script rt order).Safe (AllLinear rt) (fun _ _ => True)
      (call.InTime rt) call.rows (fun _ _ => True) [] o := by
  have hpublish : ∀ row : AuditEvent,
      (publishRow row).Safe (AllLinear rt) (fun _ _ => True)
        (call.InTime rt) call.rows (fun _ _ => True)
        ([] : List (Write Database RowKey)) o :=
    fun row db hdb _ _ => ⟨hdb, trivial, trivial⟩
  -- the end of the chain
  intro db hdb _ hrows
  have hprevious : previousHash order call.input.entity db =
      (chain rt).head genesis o := by
    rw [(hdb call.input.entity).previousHash_eq hsorts, ← hrows]
    rfl
  simp only [overlay_nil, hprevious]
  -- no row has the content
  intro db hdb hintime hrows
  simp only [overlay_nil]
  split
  next => exact hpublish _
  next hcontent =>
  have hlater : ∀ row ∈ o, row.createdAt < call.createdAt := by
    rcases hintime with hsome | hlater
    · rw [hcontent] at hsome
      exact absurd hsome (by simp)
    · rw [← hrows]
      exact hlater
  -- no row has the hash
  intro db hdb _ hrows
  simp only [overlay_nil]
  split
  next => exact hpublish _
  next =>
  -- the insertion
  intro db hdb _ hrows
  simp only [overlay_nil]
  refine ⟨fun own hplan => ?_, fun _ => trivial⟩
  unfold planRow at hplan
  split at hplan
  next hallowed =>
    obtain rfl := Option.some.inj hplan
    have hnew := new_of_rowAllowed hallowed call.input.entity
    have hsame : entityRows call.input.entity db = o := hrows
    rw [hsame] at hnew
    intro db hdb _ hrows
    have hsame : entityRows call.input.entity db = o := hrows
    refine ⟨hdb.insert ?_ rfl ?_ ?_, trivial, trivial⟩
    · change _ = (chain rt).head genesis (entityRows call.input.entity db)
      rw [hsame]
      rfl
    · change ∀ other ∈ entityRows call.input.entity db, _
      rw [hsame]
      exact hlater
    · change _ ∉ (entityRows call.input.entity db).map _
      rw [hsame]
      exact hnew
  next => exact absurd hplan (by simp)

/-! ## Rows stay -/

/-- The table only grows at its end. -/
def grows : Rely Database RowKey where
  moves _ db db' := db.auditEvents <+: db'.auditEvents
  refl _ _ := List.prefix_refl _
  trans _ _ _ _ := List.IsPrefix.trans

/-- The row that a call returned is stored. -/
def Stored (answer : Answer) (db : Database) : Prop :=
  ∀ row, answer = .row (.ok row) → row ∈ db.auditEvents

theorem publish_guaranteed {row : AuditEvent} {held : List RowKey}
    {db : Database} (hrow : row ∈ db.auditEvents) :
    (publishRow row).Guaranteed grows (fun _ => True) Stored [] held db := by
  intro db' hgrown _
  refine ⟨fun _ _ => grows.refl _ _, fun db'' hlater other hother => ?_⟩
  obtain rfl : row = other := by simpa using hother
  exact hlater.subset (hgrown.subset hrow)

/-- An append adds its row or returns a row that is there. -/
theorem append_guaranteed (call : AppendCall) (db : Database) :
    (call.script rt order).Guaranteed grows (fun _ => True) Stored [] []
      db := by
  intro db _ _ db _ _
  simp only [overlay_nil]
  split
  next prior hfound =>
    have hmem := List.mem_of_find?_eq_some hfound
    exact publish_guaranteed (List.mem_of_mem_filter hmem)
  next =>
  intro db _ _
  simp only [overlay_nil]
  split
  next existing hfound =>
    exact publish_guaranteed (List.mem_of_find?_eq_some hfound)
  next =>
  intro db _ _
  simp only [overlay_nil]
  refine ⟨fun own hplan => ?_, fun _ db _ _ db _ other hother => ?_⟩
  · unfold planRow at hplan
    split at hplan
    next =>
      obtain rfl := Option.some.inj hplan
      intro db _ _
      refine ⟨fun _ _ => List.prefix_append _ _,
        fun db' hgrown other hother => ?_⟩
      simp only [Answer.row.injEq, Except.ok.injEq] at hother
      rw [← hother]
      apply hgrown.subset
      exact List.mem_append_right _ (List.mem_singleton_self _)
    next => exact absurd hplan (by simp)
  · simp at hother

end

/-! ## Every undisturbed run -/

/-- Where no append publishes after another one has changed the rows of its
entity, and each publishes at a later time than those rows: in every state no
two rows follow the same row, whatever is stored later follows all rows that
calls have returned, and verification accepts the chain. -/
theorem chain_stays_linear {ι : Type} [Fintype ι] [DecidableEq ι]
    {rt : Runtime} {order : ByCreatedAt} {calls : ι → AppendCall}
    (hsorts : order.Sorts) (hdigests : DigestsDiffer rt) {db : Database}
    (hdb : AllLinear rt db) {before after : List (Event ι)}
    {middle final : Machine ι Database RowKey AuditScript}
    (hquiet : (Machine.starting db
      (fun i => (calls i).script rt order)).Undisturbed Answer.lost
        (fun i => (calls i).rows) (fun i => (calls i).InTime rt) ∅ ∅
        (before ++ after))
    (hbefore : (Machine.starting db
      (fun i => (calls i).script rt order)).run
        (Script.program Answer.lost) before = some middle)
    (hafter : middle.run (Script.program Answer.lost) after = some final)
    (entity : Entity) :
    ((entityRows entity final.committed).map
      AuditEvent.previousEventHash).Nodup ∧
    (∀ i j a b, (middle.sessions j).point = .done (.row (.ok a)) →
      (final.sessions i).point = .done (.row (.ok b)) →
      entityOf a = entity → entityOf b = entity →
      b ∉ middle.committed.auditEvents →
        [a, b].Sublist
          (getEntityTimeline order entity final.committed)) ∧
    verifyChain rt order entity final.committed = true := by
  have hrun : (Machine.starting db
      (fun i => (calls i).script rt order)).run
        (Script.program Answer.lost) (before ++ after) = some final := by
    rw [Machine.run_append, hbefore]
    exact hafter
  obtain ⟨⟨_, _, hsound⟩, _⟩ := Machine.undisturbed_induction
    (fun i o => append_safe hsorts (calls i) o) (Machine.sound_starting hdb)
    hquiet hrun
  have hlinear : Linear rt (entityRows entity final.committed) :=
    hsound.kept entity
  obtain ⟨hmiddle, _⟩ := Machine.guaranteed_run
    (Machine.guarding_starting
      (fun i => append_guaranteed (calls i) db))
    (Machine.respects_true _ _) hbefore
  obtain ⟨hfinal, hgrown⟩ :=
    Machine.guaranteed_run hmiddle (Machine.respects_true _ _) hafter
  refine ⟨hlinear.previous_nodup hdigests, ?_, hlinear.verified hsorts⟩
  intro i j a b hfirst hsecond ha hb hnew
  have hstored : a ∈ middle.committed.auditEvents :=
    hmiddle.result hfirst (by simp) a rfl
  have hadded : b ∈ final.committed.auditEvents :=
    hfinal.result hsecond (by simp) b rfl
  obtain ⟨rest, hrest⟩ := hgrown
  rw [← hrest, List.mem_append] at hadded
  unfold getEntityTimeline
  rw [hlinear.timeline_eq hsorts]
  unfold entityRows
  rw [← hrest, List.filter_append]
  have hfront : a ∈ middle.committed.auditEvents.filter
      (fun row => entityOf row = entity) :=
    List.mem_filter.mpr ⟨hstored, decide_eq_true ha⟩
  have hback : b ∈ rest.filter (fun row => entityOf row = entity) :=
    List.mem_filter.mpr ⟨hadded.resolve_left hnew, decide_eq_true hb⟩
  exact (List.singleton_sublist.mpr hfront).append
    (List.singleton_sublist.mpr hback)

/-! ## A chain that forks -/

/-- Both calls look for the end of the chain, and for duplicates, before
either has published its row. -/
def raceSchedule : List (Event Bool) :=
  [.run false, .run true, .run false, .run true, .run false, .run true,
    .run false, .run false, .run true, .run true]

def AppendCall.row (rt : Runtime) (call : AppendCall) (previous : String) :
    AuditEvent :=
  newRow rt call.input call.createdAt call.uuid previous

/-- Two appends that race both follow the row that they found. -/
theorem race_forks {rt : Runtime} {order : ByCreatedAt}
    {calls : Bool → AppendCall} {db : Database} {previous : String}
    (hprevious : ∀ i,
      previousHash order (calls i).input.entity db = previous)
    (hcontent : ∀ i, findSameContent rt (calls i).input db = none)
    (hhash : ∀ i,
      findByHash ((calls i).row rt previous).eventHash db = none)
    (hfirst : rowAllowed ((calls false).row rt previous) db = true)
    (hsecond : rowAllowed ((calls true).row rt previous)
      (auditTable.insert ((calls false).row rt previous) db) = true) :
    ∃ final, (Machine.starting db
        (fun i => (calls i).script rt order)).run
          (Script.program Answer.lost) raceSchedule = some final ∧
      final.committed = auditTable.insert ((calls true).row rt previous)
        (auditTable.insert ((calls false).row rt previous) db) := by
  unfold AppendCall.row at *
  simp [raceSchedule, Machine.run, Machine.step, Machine.starting,
    Machine.view, Machine.put, Machine.publish, Machine.Free, Session.start,
    Script.program, Script.stmt, AppendCall.script, append, lookForContent,
    lookForHash, createRow, publishRow, planRow, insertRow,
    Function.update, hprevious, hcontent, hhash, hfirst, hsecond]

/-- Appends to different entities, or of different event types, never have
one hash. -/
theorem AppendCall.hash_ne {rt : Runtime} (hfree : rt.CollisionFree)
    {a b : AppendCall} {p q : String}
    (hdiffer : a.input.entity ≠ b.input.entity ∨
      a.input.eventType ≠ b.input.eventType) :
    (a.row rt p).eventHash ≠ (b.row rt q).eventHash := by
  intro heq
  have hcovered : covered (a.row rt p) = covered (b.row rt q) :=
    (@covered_of_hash rt (a.row rt p) (b.row rt q) hfree rfl rfl heq).2
  have hentity : a.input.entity = b.input.entity :=
    congrArg Prod.fst hcovered
  have hevent : a.input.eventType = b.input.eventType :=
    congrArg (fun values => values.2.1) hcovered
  exact hdiffer.elim (fun h => h hentity) (fun h => h hevent)

/-! ## Appends that take turns -/

/-- Two appends to one entity, and one to another entity. -/
inductive Appender where
  | first
  | other
  | second
  deriving DecidableEq

instance : Fintype Appender where
  elems := {.first, .other, .second}
  complete := by
    intro i
    cases i <;> simp

theorem Appender.forall_iff {p : Appender → Prop} :
    (∀ i, p i) ↔ p .first ∧ p .other ∧ p .second := by
  constructor
  · exact fun h => ⟨h _, h _, h _⟩
  · rintro ⟨hfirst, hother, hsecond⟩ i
    cases i <;> assumption

/-- The first append ends while the one to the other entity is under way. -/
def turnsBefore : List (Event Appender) :=
  [.run .first, .run .other, .run .first, .run .other, .run .first,
    .run .first, .run .first]

/-- The second append to the entity begins then, and publishes after the one
to the other entity. -/
def turnsAfter : List (Event Appender) :=
  [.run .second, .run .other, .run .second, .run .other, .run .other,
    .run .second, .run .second, .run .second]

/-- What the three appends find while they take turns: each follows the end
of its chain, and the rows `r`, `s` and `t` are new when they are added. -/
structure Turns (rt : Runtime) (order : ByCreatedAt)
    (calls : Appender → AppendCall) (db : Database) (p q : String)
    (r s t : AuditEvent) : Prop where
  rows : (calls .first).row rt p = r ∧ (calls .other).row rt q = s ∧
    (calls .second).row rt r.eventHash = t
  previous : previousHash order (calls .first).input.entity db = p ∧
    previousHash order (calls .other).input.entity db = q ∧
    previousHash order (calls .second).input.entity
      (auditTable.insert r db) = r.eventHash
  content : findSameContent rt (calls .first).input db = none ∧
    findSameContent rt (calls .other).input db = none ∧
    findSameContent rt (calls .second).input (auditTable.insert r db) = none
  hash : findByHash r.eventHash db = none ∧
    findByHash s.eventHash (auditTable.insert r db) = none ∧
    findByHash t.eventHash
      (auditTable.insert s (auditTable.insert r db)) = none
  allowed : rowAllowed r db = true ∧
    rowAllowed s (auditTable.insert r db) = true ∧
    rowAllowed t (auditTable.insert s (auditTable.insert r db)) = true
  apart : (calls .other).rows (auditTable.insert r db) =
      (calls .other).rows db ∧
    (calls .second).rows (auditTable.insert s (auditTable.insert r db)) =
      (calls .second).rows (auditTable.insert r db)
  times : (calls .first).InTime rt db ∧ (calls .other).InTime rt db ∧
    (calls .second).InTime rt (auditTable.insert r db)

section

variable {rt : Runtime} {order : ByCreatedAt}
  {calls : Appender → AppendCall} {db : Database} {p q : String}
  {r s t : AuditEvent}

/-- Each append adds its row. -/
theorem Turns.runs (h : Turns rt order calls db p q r s t) :
    ∃ middle final, (Machine.starting db
        (fun i => (calls i).script rt order)).run
          (Script.program Answer.lost) turnsBefore = some middle ∧
      middle.run (Script.program Answer.lost) turnsAfter = some final ∧
      middle.committed = auditTable.insert r db ∧
      final.committed = auditTable.insert t
        (auditTable.insert s (auditTable.insert r db)) := by
  obtain ⟨hr, hs, ht⟩ := h.rows
  obtain ⟨hp, hq, hpt⟩ := h.previous
  obtain ⟨hrnew, hsnew, htnew⟩ := h.content
  obtain ⟨hrhash, hshash, hthash⟩ := h.hash
  obtain ⟨hrow, hsow, htow⟩ := h.allowed
  unfold AppendCall.row at hr hs ht
  simp [turnsBefore, turnsAfter, Machine.run, Machine.step,
    Machine.starting, Machine.view, Machine.put, Machine.publish,
    Machine.Free, Session.start, Script.program, Script.stmt,
    AppendCall.script, append, lookForContent, lookForHash, createRow,
    publishRow, planRow, insertRow, Function.update, Appender.forall_iff, *]

/-- An append stays in time while the rows of its entity stay. -/
theorem AppendCall.InTime.of_rows {call : AppendCall} {db' : Database}
    (h : call.InTime rt db) (hrows : call.rows db' = call.rows db) :
    call.InTime rt db' := by
  unfold InTime findSameContent at h ⊢
  unfold rows at hrows h ⊢
  rw [hrows]
  exact h

/-- None publishes after another one has changed the rows of its entity. -/
theorem Turns.undisturbed (h : Turns rt order calls db p q r s t) :
    (Machine.starting db
      (fun i => (calls i).script rt order)).Undisturbed Answer.lost
        (fun i => (calls i).rows) (fun i => (calls i).InTime rt) ∅ ∅
        (turnsBefore ++ turnsAfter) := by
  obtain ⟨hr, hs, ht⟩ := h.rows
  obtain ⟨hp, hq, hpt⟩ := h.previous
  obtain ⟨hrnew, hsnew, htnew⟩ := h.content
  obtain ⟨hrhash, hshash, hthash⟩ := h.hash
  obtain ⟨hrow, hsow, htow⟩ := h.allowed
  obtain ⟨hother, hsecond⟩ := h.apart
  obtain ⟨hfirst, hbefore, hlater⟩ := h.times
  have hafter := hbefore.of_rows hother
  have hlast := hlater.of_rows hsecond
  unfold AppendCall.row at hr hs ht
  classical
  apply @Machine.undisturbed_starting Appender Database RowKey Answer
    (List AuditEvent) _ _ _ _ _ _
    (fun i tables => decide ((calls i).InTime rt tables)) _
    (fun i tables h => of_decide_eq_true h)
  simp [turnsBefore, turnsAfter, Machine.quiet, gather, Machine.busy,
    Machine.publishes, Machine.step, Machine.starting, Machine.view,
    Machine.put, Machine.publish, Machine.Free, Session.start,
    Script.program, Script.stmt, AppendCall.script, append, lookForContent,
    lookForHash, createRow, publishRow, planRow, insertRow, Function.update,
    Appender.forall_iff, *]

end

/-! ## Samples -/

/-- Rows with one time, in the order of the table. -/
def sampleOrder : ByCreatedAt where
  latest rows :=
    (rows.insertionSort (fun a b => b.createdAt ≤ a.createdAt)).head?
  timeline rows := rows.insertionSort (fun a b => a.createdAt ≤ b.createdAt)

theorem sampleOrder_sorts : sampleOrder.Sorts := by
  have hlatest : ∀ rows row, sampleOrder.latest rows = some row →
      row ∈ rows ∧ ∀ other ∈ rows, other.createdAt ≤ row.createdAt := by
    intro rows row h
    have hsorted := List.pairwise_insertionSort
      (fun a b : AuditEvent => b.createdAt ≤ a.createdAt) rows
    have hperm := List.perm_insertionSort
      (fun a b : AuditEvent => b.createdAt ≤ a.createdAt) rows
    obtain ⟨rest, hrest⟩ := List.head?_eq_some_iff.mp h
    rw [hrest] at hsorted hperm
    refine ⟨hperm.subset List.mem_cons_self, ?_⟩
    intro other hother
    rcases List.mem_cons.mp (hperm.symm.subset hother) with rfl | hmem
    · exact le_rfl
    · exact (List.pairwise_cons.mp hsorted).1 other hmem
  constructor
  · exact fun rows row h => (hlatest rows row h).1
  · exact fun rows row h => (hlatest rows row h).2
  · intro rows h
    have hperm := List.perm_insertionSort
      (fun a b : AuditEvent => b.createdAt ≤ a.createdAt) rows
    rw [List.head?_eq_none_iff.mp h] at hperm
    exact hperm.symm.eq_nil
  · exact fun rows => List.perm_insertionSort _ rows
  · exact fun rows => List.pairwise_insertionSort _ rows

def sampleInput (eventType : String) : AppendAuditInput where
  companyId := "acme"
  agentId := none
  correlationId := none
  requestId := none
  entityType := "EXECUTION"
  entityId := "execution-1"
  eventType := eventType
  actorType := "SYSTEM"
  actorId := "core"
  payload := [("step", .number 1)]
  references := none
  eventKey := none

def sampleEntity : Entity := ⟨"acme", "EXECUTION", "execution-1"⟩

def sampleTables : Database :=
  { Database.empty with companies := ["acme"] }

def sampleCalls : Bool → AppendCall
  | false => ⟨sampleInput "AUTHORIZED", 1000, "row-1"⟩
  | true => ⟨sampleInput "SUBMITTED", 1001, "row-2"⟩

/-- The texts that are hashed: the fingerprint of each append and its row at
the start of a chain, the second row after the first one, and the same for an
append to another entity. -/
def sampleTexts : List String :=
  List.map String.join [
    ["\x7b\"companyId\":\"acme\",\"entityId\":\"execution-1\",",
      "\"entityType\":\"EXECUTION\",\"eventKey\":null,",
      "\"eventType\":\"AUTHORIZED\",\"payload\":\x7b\"step\":1\x7d,",
      "\"references\":\x7b\x7d\x7d"],
    ["\x7b\"companyId\":\"acme\",\"entityId\":\"execution-1\",",
      "\"entityType\":\"EXECUTION\",\"eventType\":\"AUTHORIZED\",",
      "\"payload\":\x7b\"_fingerprint\":",
      "\"sha256:8e1849eadc05e58cb38525cdb2f1d7e7",
      "1ee21d52f4821d6b947d767ec342fd84\",",
      "\"references\":\x7b\x7d,\"step\":1\x7d,",
      "\"previousEventHash\":\"sha256:audit-genesis\"\x7d"],
    ["\x7b\"companyId\":\"acme\",\"entityId\":\"execution-1\",",
      "\"entityType\":\"EXECUTION\",\"eventKey\":null,",
      "\"eventType\":\"SUBMITTED\",\"payload\":\x7b\"step\":1\x7d,",
      "\"references\":\x7b\x7d\x7d"],
    ["\x7b\"companyId\":\"acme\",\"entityId\":\"execution-1\",",
      "\"entityType\":\"EXECUTION\",\"eventType\":\"SUBMITTED\",",
      "\"payload\":\x7b\"_fingerprint\":",
      "\"sha256:2b94082c9d4a887e22ccf1fbf9c4a641",
      "80b85f0004a345674a8b6722bb197c28\",",
      "\"references\":\x7b\x7d,\"step\":1\x7d,",
      "\"previousEventHash\":\"sha256:audit-genesis\"\x7d"],
    ["\x7b\"companyId\":\"acme\",\"entityId\":\"execution-1\",",
      "\"entityType\":\"EXECUTION\",\"eventType\":\"SUBMITTED\",",
      "\"payload\":\x7b\"_fingerprint\":",
      "\"sha256:2b94082c9d4a887e22ccf1fbf9c4a641",
      "80b85f0004a345674a8b6722bb197c28\",",
      "\"references\":\x7b\x7d,\"step\":1\x7d,",
      "\"previousEventHash\":\"sha256:61d32085695a2a9ab42232fe473207d8",
      "c0b1f3e8c5f27fcc0e137f6f0848d4f6\"\x7d"],
    ["\x7b\"companyId\":\"acme\",\"entityId\":\"execution-2\",",
      "\"entityType\":\"EXECUTION\",\"eventKey\":null,",
      "\"eventType\":\"AUTHORIZED\",\"payload\":\x7b\"step\":1\x7d,",
      "\"references\":\x7b\x7d\x7d"],
    ["\x7b\"companyId\":\"acme\",\"entityId\":\"execution-2\",",
      "\"entityType\":\"EXECUTION\",\"eventType\":\"AUTHORIZED\",",
      "\"payload\":\x7b\"_fingerprint\":",
      "\"sha256:22ada169107f5079517d520a4e1a49bc",
      "76259db5ccf10b5ffcadc16e7d10f988\",",
      "\"references\":\x7b\x7d,\"step\":1\x7d,",
      "\"previousEventHash\":\"sha256:audit-genesis\"\x7d"]]

set_option maxRecDepth 100000 in
theorem sampleTexts_nodup :
    (sampleTexts.map Reference.sha256Hex).Nodup :=
  @Reference.nodup_digests sampleTexts
    [[_, _, _, _], [_, _, _, _, _, _, _], [_, _, _, _],
      [_, _, _, _, _, _, _], [_, _, _, _, _, _, _, _], [_, _, _, _],
      [_, _, _, _, _, _, _]] rfl (by decide +kernel)

def sampleRuntime : Runtime := .pinned sampleTexts

theorem sampleRuntime_collisionFree : sampleRuntime.CollisionFree :=
  Runtime.pinned_collisionFree sampleTexts_nodup

theorem pinned_digestsDiffer (texts : List String) :
    DigestsDiffer (Runtime.pinned texts) := by
  intro text heq
  change (if text ∈ texts then Reference.sha256Hex text else "~" ++ text) =
    "audit-genesis" at heq
  split at heq
  · have hmem : 'u' ∈ (Reference.sha256Hex text).toList := by
      rw [heq]
      decide
    obtain ⟨k, hk, hdigit⟩ := Reference.hexDigit_of_mem_sha256Hex hmem
    have hnever : ∀ k < 16, JsonText.hexDigit k ≠ 'u' := by decide
    exact hnever k hk hdigit
  · have hmem : '~' ∈ "audit-genesis".toList := by
      rw [← heq, String.toList_append]
      simp
    exact absurd hmem (by decide)

/-- Two appends to the empty chain both become its first row. -/
theorem appends_fork :
    ∃ final, (Machine.starting sampleTables (fun i =>
        (sampleCalls i).script sampleRuntime sampleOrder)).run
          (Script.program Answer.lost) raceSchedule = some final ∧
      (entityRows sampleEntity final.committed).map
        AuditEvent.previousEventHash = [genesis, genesis] := by
  have hdiffer : (sampleCalls false).input.entity ≠
        (sampleCalls true).input.entity ∨
      (sampleCalls false).input.eventType ≠
        (sampleCalls true).input.eventType :=
    Or.inr (by decide)
  have hsecond : rowAllowed ((sampleCalls true).row sampleRuntime genesis)
      (auditTable.insert ((sampleCalls false).row sampleRuntime genesis)
        sampleTables) = true := by
    have hlookup : auditTable.lookup "row-2" (auditTable.insert
        ((sampleCalls false).row sampleRuntime genesis) sampleTables) =
          none := rfl
    unfold rowAllowed
    change ((auditTable.lookup "row-2" _).isNone && true && _) = true
    rw [hlookup]
    simp [sampleTables, auditTable, Table.insert, Database.empty,
      AppendCall.hash_ne sampleRuntime_collisionFree hdiffer]
  obtain ⟨final, hrun, hfinal⟩ := @race_forks sampleRuntime sampleOrder
    sampleCalls sampleTables genesis (fun i => by cases i <;> rfl)
    (fun i => by cases i <;> rfl) (fun i => by cases i <;> rfl) rfl hsecond
  refine ⟨final, hrun, ?_⟩
  rw [hfinal]
  rfl

/-! ### Three appends that take turns -/

def turnCalls : Appender → AppendCall
  | .first => sampleCalls false
  | .other => ⟨{ sampleInput "AUTHORIZED" with entityId := "execution-2" },
      1000, "row-3"⟩
  | .second => sampleCalls true

/-- The row that an append adds. -/
def turnRow (i : Appender) : AuditEvent :=
  (turnCalls i).row sampleRuntime (match i with
    | .second =>
        ((turnCalls .first).row sampleRuntime genesis).eventHash
    | _ => genesis)

/-- Different appends add rows with different hashes. -/
theorem turnRow_hash_ne {i j : Appender} (hne : i ≠ j) :
    (turnRow i).eventHash ≠ (turnRow j).eventHash := by
  apply AppendCall.hash_ne sampleRuntime_collisionFree
  cases i <;> cases j <;> first | exact absurd rfl hne | decide

def turnTables : Database :=
  auditTable.insert (turnRow .other)
    (auditTable.insert (turnRow .first) sampleTables)

theorem turns_sample :
    Turns sampleRuntime sampleOrder turnCalls sampleTables genesis genesis
      (turnRow .first) (turnRow .other) (turnRow .second) := by
  have hother := @turnRow_hash_ne .first .other (by decide)
  have hsecond := @turnRow_hash_ne .first .second (by decide)
  have hlast := @turnRow_hash_ne .other .second (by decide)
  constructor
  · exact ⟨rfl, rfl, rfl⟩
  · exact ⟨rfl, rfl, rfl⟩
  · exact ⟨rfl, rfl, rfl⟩
  · refine ⟨rfl, ?_, ?_⟩
    · simp [findByHash, auditTable, Table.find, Table.insert, sampleTables,
        Database.empty, hother]
    · simp [findByHash, auditTable, Table.find, Table.insert, sampleTables,
        Database.empty, hsecond, hlast]
  · have hids : auditTable.lookup "row-3" (auditTable.insert
          (turnRow .first) sampleTables) = none ∧
        auditTable.lookup "row-2" turnTables = none := ⟨rfl, rfl⟩
    refine ⟨rfl, ?_, ?_⟩
    · unfold rowAllowed
      change ((auditTable.lookup "row-3" _).isNone && true && _) = true
      rw [hids.1]
      simp [sampleTables, auditTable, Table.insert, Database.empty, hother]
    · unfold rowAllowed
      change ((auditTable.lookup "row-2" turnTables).isNone && true && _) =
        true
      rw [hids.2]
      simp [sampleTables, auditTable, Table.insert, Database.empty, hsecond,
        hlast]
  · exact ⟨rfl, rfl⟩
  · refine ⟨Or.inr ?_, Or.inr ?_, Or.inr ?_⟩
    · intro row hrow
      exact absurd hrow List.not_mem_nil
    · intro row hrow
      exact absurd hrow List.not_mem_nil
    · intro row hrow
      obtain rfl := List.mem_singleton.mp hrow
      decide

def turnMachine : Machine Appender Database RowKey AuditScript :=
  .starting sampleTables
    (fun i => (turnCalls i).script sampleRuntime sampleOrder)

/-- The three rows once all appends have ended. -/
def turnResult : Database :=
  auditTable.insert (turnRow .second) turnTables

/-- Two appends to an entity, while an append to another entity takes turns
with both. -/
theorem sample_stays_linear :
    ∃ middle final,
      turnMachine.run (Script.program Answer.lost) turnsBefore =
        some middle ∧
      middle.run (Script.program Answer.lost) turnsAfter = some final ∧
      final.committed = turnResult ∧
      ((entityRows sampleEntity final.committed).map
        AuditEvent.previousEventHash).Nodup ∧
      (∀ i j a b, (middle.sessions j).point = .done (.row (.ok a)) →
        (final.sessions i).point = .done (.row (.ok b)) →
        entityOf a = sampleEntity → entityOf b = sampleEntity →
        b ∉ middle.committed.auditEvents →
          [a, b].Sublist
            (getEntityTimeline sampleOrder sampleEntity final.committed)) ∧
      verifyChain sampleRuntime sampleOrder sampleEntity final.committed =
        true := by
  obtain ⟨middle, final, hbefore, hafter, _, hfinal⟩ := turns_sample.runs
  have hempty : AllLinear sampleRuntime sampleTables :=
    fun _ => linear_nil
  exact ⟨middle, final, hbefore, hafter, hfinal,
    chain_stays_linear sampleOrder_sorts (pinned_digestsDiffer _) hempty
      turns_sample.undisturbed hbefore hafter sampleEntity⟩

end Audit
end Orvex
