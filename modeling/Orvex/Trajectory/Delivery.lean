import Orvex.Trajectory.Ingestion
import Orvex.Trajectory.Tampering

/-!
# Which deliveries lose no event

An event that runs ahead of the head, or whose append fails, is acknowledged
and never stored.  Where every message finds its predecessor stored, and
fails only once it is stored itself, no event is lost, however often and by
however many consumers the messages are handled.
-/

namespace Orvex
namespace Trajectory

open ReadCommitted

/-- One handling of the message with this index. -/
structure Delivery where
  index : ℕ
  uuid : String
  failure : Option ℕ

def Delivery.script (rt : Runtime) (stream : Stream) (delivery : Delivery) :
    Script Database RowKey Handled :=
  handleMessage rt (.event (stream.event delivery.index)) delivery.uuid
    delivery.failure

def headOf (traceId : String) (db : Database) : ℕ :=
  ((traceTable.lookup traceId db).map TrajectoryTrace.sequenceHead).getD 0

/-- The events before it are stored, and its own as well if a statement of
the handling fails. -/
def Delivery.InOrder (traceId : String) (delivery : Delivery)
    (db : Database) : Prop :=
  delivery.index ≤ headOf traceId db ∧
    (delivery.failure ≠ none → delivery.index < headOf traceId db)

/-- The id that was generated for the row is new, until the row is stored. -/
def Delivery.FreshId (traceId : String) (delivery : Delivery)
    (db : Database) : Prop :=
  delivery.index < headOf traceId db ∨
    trajectoryEventTable.lookup delivery.uuid db = none

/-- The append that a message of the stream asks for. -/
def Stream.input (stream : Stream) (trace : TrajectoryTrace) (k : ℕ) :
    AppendEventInput where
  companyId := trace.companyId
  traceId := trace.id
  agentId := trace.agentId
  sequence := (stream.event k).sequence
  eventType := (stream.event k).eventType
  timestamp := (stream.event k).timestamp
  payload := (stream.event k).payload.getD (.object [])
  sourceRef := (stream.event k).sourceRef
  trustContext := (stream.event k).trustContext
  provenanceRefs := (stream.event k).provenanceRefs
  eventHash := (stream.event k).eventHash
  previousEventHash := (stream.event k).previousEventHash

section

variable {rt : Runtime} {trace : TrajectoryTrace} {stream : Stream} {k : ℕ}

theorem Fits.parsed (h : Fits rt trace stream k) :
    parseStreamedEvent (stream.event k) = .ok (stream.input trace k) := by
  unfold parseStreamedEvent Stream.input
  rw [h.companyId, h.traceId, h.agentId]
  have hcompany := truthy_some.mpr h.named.1
  have htrace := truthy_some.mpr h.named.2.1
  have hagent := truthy_some.mpr h.named.2.2
  simp [hcompany, htrace, hagent]

/-- The row that an append of the message adds. -/
theorem Fits.holds (h : Fits rt trace stream k) (hdates : rt.DatesReadBack)
    {admitted : Admitted} {instant : ℤ} {uuid : String}
    (hadmits : Admits rt (stream.input trace k) admitted)
    (hinstant : rt.parseDate admitted.timestamp = some instant) :
    Holds rt stream k
      (newEvent (stream.input trace k) admitted instant uuid) := by
  have hsequence : (admitted.trace.sequenceHead : ℤ) + 1 = (k : ℤ) + 1 := by
    have hsame : (stream.event k).sequence =
        (admitted.trace.sequenceHead : ℚ) + 1 := hadmits.sequence
    rw [h.sequence] at hsame
    exact_mod_cast hsame.symm
  have htimestamp : instant = instantOf rt (stream.event k) := by
    obtain ⟨written, hwritten, htext⟩ := hadmits.timestamp
    have hback := hdates _ _ hwritten
    rw [← htext, hinstant, Option.some.injEq] at hback
    have hsame : rt.parseDate (stream.event k).timestamp = some written :=
      hwritten
    rw [h.timestamp, Option.some.injEq] at hsame
    rw [hback, hsame]
  exact ⟨hsequence, h.agentId.symm, rfl, htimestamp, rfl, rfl, rfl, rfl⟩

end

/-! ## The trace while the messages are handled -/

/-- A row of another trace, or one that holds a message of the stream. -/
def Carried (rt : Runtime) (trace : TrajectoryTrace) (stream : Stream)
    (row : TrajectoryEvent) : Prop :=
  row.traceId = trace.id → ∃ k < stream.length, Holds rt stream k row

section

variable {rt : Runtime} {trace : TrajectoryTrace} {stream : Stream}
  {start db : Database}

/-- What the messages leave of a trace that starts without events. -/
structure Filling (rt : Runtime) (trace : TrajectoryTrace)
    (stream : Stream) (db : Database) : Prop where
  chained : AllChained rt db
  found : ∃ later, traceTable.lookup trace.id db = some later ∧
    later.id = trace.id ∧ later.companyId = trace.companyId ∧
      later.agentId = trace.agentId ∧ later.status = .active
  rows : ∀ row ∈ eventsOf trace.id db,
    ∃ k < stream.length, Holds rt stream k row

theorem filling_of_moves
    (hlookup : traceTable.lookup trace.id start = some trace)
    (hactive : trace.status = .active)
    (hempty : eventsOf trace.id start = [])
    (hmoves : Moves rt (Carried rt trace stream) False [] start db) :
    Filling rt trace stream db := by
  obtain ⟨later, hlater, hahead⟩ := hmoves.traces _ _ hlookup
  refine ⟨hmoves.chained, ⟨later, hlater, hahead.id, hahead.companyId,
    hahead.agentId, (hahead.status not_false).trans hactive⟩, ?_⟩
  obtain ⟨added, hadded, hcarried⟩ := hmoves.events
  intro row hrow
  rw [mem_eventsOf, hadded, List.mem_append] at hrow
  obtain ⟨hmem | hmem, htrace⟩ := hrow
  · have hold : row ∈ eventsOf trace.id start :=
      mem_eventsOf.mpr ⟨hmem, htrace⟩
    rw [hempty] at hold
    exact absurd hold List.not_mem_nil
  · exact hcarried row hmem htrace

/-- The hash at the end of rows that hold the first messages. -/
theorem head_eq_hashAt {rows : List TrajectoryEvent}
    (hlinked : (chain rt trace.id).Linked genesisHash rows)
    (hnumbers : rows.map TrajectoryEvent.sequence = numbers 1 rows.length)
    (hrows : ∀ row ∈ rows, ∃ k < stream.length, Holds rt stream k row) :
    (chain rt trace.id).head genesisHash rows =
      stream.hashAt rt trace.id rows.length := by
  induction rows using List.reverseRecOn with
  | nil => rfl
  | append_singleton front last ih =>
      rw [HashChain.linked_append_singleton] at hlinked
      obtain ⟨hfront, hprevious, hvalid⟩ := hlinked
      rw [List.length_append, List.length_singleton, numbers_append,
        List.map_append, List.map_singleton] at hnumbers
      obtain ⟨hbefore, hlast⟩ := List.append_inj' hnumbers rfl
      have hhead := ih hfront hbefore
        (fun row hmem => hrows row (List.mem_append_left _ hmem))
      obtain ⟨k, _, hholds⟩ := hrows last
        (List.mem_append_right _ (List.mem_singleton_self last))
      have hk : k = front.length := by
        have hsequence := hholds.sequence
        rw [List.cons.injEq] at hlast
        omega
      subst hk
      rw [HashChain.head_append_singleton, List.length_append,
        List.length_singleton]
      have hhash : last.eventHash = computeEventHash rt trace.id
          last.sequence last.eventType (rt.toISOString last.timestamp)
          last.payloadJson last.provenanceRefsJson
          last.previousEventHash := hvalid
      have hback : last.previousEventHash =
          stream.hashAt rt trace.id front.length := hprevious.trans hhead
      change last.eventHash = _
      rw [hhash, hback, hholds.sequence, hholds.eventType, hholds.timestamp,
        hholds.payload, hholds.provenanceRefs, Stream.hashAt]
      push_cast
      rfl

theorem Filling.head (h : Filling rt trace stream db) :
    ∃ later, traceTable.lookup trace.id db = some later ∧
      getTrace trace.companyId trace.id db = some later ∧
      later.agentId = trace.agentId ∧ later.status = .active ∧
      later.sequenceHead = headOf trace.id db ∧
      later.headHash =
        some (stream.hashAt rt trace.id (headOf trace.id db)) ∧
      (eventsOf trace.id db).map TrajectoryEvent.sequence =
        numbers 1 (headOf trace.id db) := by
  obtain ⟨later, hlater, hid, hcompany, hagent, hactive⟩ := h.found
  obtain ⟨_, hchained⟩ := h.chained.lookup hlater
  have hhead : headOf trace.id db = later.sequenceHead := by
    unfold headOf
    rw [hlater]
    rfl
  have hsequences := hchained.sequences
  have hlength := hchained.length
  have hlinked := hchained.linked
  have hhash := hchained.head
  rw [hid] at hsequences hlength hlinked hhash
  refine ⟨later, hlater, ?_, hagent, hactive, hhead.symm, ?_, ?_⟩
  · rw [← hcompany]
    exact h.chained.getTrace_of_lookup hlater
  · rw [hhash, head_eq_hashAt hlinked (by rw [hlength]; exact hsequences)
      h.rows, hlength, hhead]
  · rw [hhead]
    exact hsequences

/-- A message behind the head is stored. -/
theorem Filling.stored (h : Filling rt trace stream db) {k : ℕ}
    (hk : k < headOf trace.id db) :
    ∃ row ∈ eventsOf trace.id db, Holds rt stream k row := by
  obtain ⟨_, _, _, _, _, _, _, hsequences⟩ := h.head
  have hmem : (k : ℤ) + 1 ∈ numbers 1 (headOf trace.id db) := by
    rw [mem_numbers]
    omega
  rw [← hsequences, List.mem_map] at hmem
  obtain ⟨row, hrow, hsequence⟩ := hmem
  obtain ⟨other, _, hholds⟩ := h.rows row hrow
  have hsame : other = k := by
    have hnumber := hholds.sequence
    omega
  exact ⟨row, hrow, hsame ▸ hholds⟩

theorem Filling.reached_iff (h : Filling rt trace stream db) {k : ℕ}
    (hfits : Fits rt trace stream k) :
    Reached (stream.input trace k) db ↔ k < headOf trace.id db := by
  obtain ⟨later, hlater, _, _, _, hhead, _⟩ := h.head
  have hsequence : (stream.input trace k).sequence = (k : ℚ) + 1 :=
    hfits.sequence
  unfold Reached
  rw [hsequence]
  constructor
  · rintro ⟨found, hfound, hreached⟩
    have hsame : later = found := Option.some.inj (hlater.symm.trans hfound)
    rw [← hsame, hhead] at hreached
    have hnat : k + 1 ≤ headOf trace.id db := by exact_mod_cast hreached
    omega
  · intro hk
    refine ⟨later, hlater, ?_⟩
    rw [hhead]
    exact_mod_cast hk

/-- The message that comes next is admitted. -/
theorem Filling.admits (h : Filling rt trace stream db)
    (hfits : Fits rt trace stream (headOf trace.id db)) :
    ∃ admitted, admission rt (stream.input trace (headOf trace.id db)) db =
      .ok admitted := by
  obtain ⟨later, _, hfound, hagent, hactive, hhead, hhash, _⟩ := h.head
  have hhead' : later.headHash.getD genesisHash =
      stream.hashAt rt trace.id (headOf trace.id db) := by
    rw [hhash, Option.getD_some]
  refine admit_of_continues hfound hagent.symm hactive ?_ ?_
    hfits.timestamp ?_
  · rw [hhead]
    exact hfits.sequence
  · rw [hhead']
    exact hfits.previousEventHash
  · have hnext := hfits.eventHash
    rw [Stream.hashAt] at hnext
    rw [hhead']
    change _ ∨ _ = some (computeEventHash rt trace.id
      (stream.event (headOf trace.id db)).sequence _ _ _ _ _)
    rw [hfits.sequence]
    exact hnext

/-! ## What a handling guarantees -/

theorem reached_of_head {k : ℕ} (hfits : Fits rt trace stream k)
    (hk : k < headOf trace.id db) : Reached (stream.input trace k) db := by
  unfold headOf at hk
  cases hlookup : traceTable.lookup trace.id db with
  | none => simp [hlookup] at hk
  | some later =>
      rw [hlookup, Option.map_some, Option.getD_some] at hk
      refine ⟨later, hlookup, ?_⟩
      have hsequence : (stream.input trace k).sequence = (k : ℚ) + 1 :=
        hfits.sequence
      rw [hsequence]
      exact_mod_cast hk

/-- Events with one hash stand at one place of one trace. -/
theorem place_of_hash (hfree : rt.CollisionFree) (hdb : AllChained rt db)
    {row : TrajectoryEvent} (hrow : row ∈ db.trajectoryEvents)
    {traceId eventType timestamp previous : String} {sequence : ℚ}
    {payload : Json} {refs : Option (List String)}
    (hhash : row.eventHash = computeEventHash rt traceId sequence eventType
      timestamp payload refs previous) :
    row.traceId = traceId ∧ (row.sequence : ℚ) = sequence := by
  obtain ⟨owner, howner⟩ := Option.ne_none_iff_exists'.mp
    (hdb.owned row hrow)
  obtain ⟨hid, hchained⟩ := hdb.lookup howner
  have hlinked := hchained.linked
  rw [hid] at hlinked
  have hvalid : row.eventHash = computeEventHash rt row.traceId row.sequence
      row.eventType (rt.toISOString row.timestamp) row.payloadJson
      row.provenanceRefsJson row.previousEventHash :=
    hlinked.valid row (mem_eventsOf.mpr ⟨hrow, rfl⟩)
  have hsame : sha256Json rt (.object (hashedKeys.zip
      (hashedValues rt row.traceId row))) =
    sha256Json rt (.object (hashedKeys.zip [.string traceId,
      .number sequence, .string eventType, .string timestamp, payload,
      textArray (refs.getD []), .string previous])) :=
    hvalid.symm.trans hhash
  rw [sha256Json_zip_iff hfree (by decide) (by decide) rfl rfl] at hsame
  simp only [hashedValues, List.map_cons, List.map_nil,
    List.cons.injEq] at hsame
  simp only [canonicalize, JsonText.Value.string.injEq,
    JsonText.Value.number.injEq] at hsame
  exact ⟨hsame.1, hsame.2.1⟩

/-- A row of the trace at a place of the stream is behind the head. -/
theorem Filling.behind (h : Filling rt trace stream db)
    {row : TrajectoryEvent} (hrow : row ∈ db.trajectoryEvents)
    (htrace : row.traceId = trace.id) {k : ℕ}
    (hsequence : row.sequence = (k : ℤ) + 1) : k < headOf trace.id db := by
  obtain ⟨_, _, _, _, _, _, _, hsequences⟩ := h.head
  have hmem : row.sequence ∈
      (eventsOf trace.id db).map TrajectoryEvent.sequence :=
    List.mem_map_of_mem (mem_eventsOf.mpr ⟨hrow, htrace⟩)
  rw [hsequences, mem_numbers] at hmem
  omega

theorem Filling.behind_of_hash (h : Filling rt trace stream db)
    (hfree : rt.CollisionFree) {k : ℕ} (hfits : Fits rt trace stream k)
    {admitted : Admitted} (hadmits : Admits rt (stream.input trace k) admitted)
    {row : TrajectoryEvent} (hrow : row ∈ db.trajectoryEvents)
    (hhash : row.eventHash = admitted.hash) : k < headOf trace.id db := by
  rw [hadmits.hash] at hhash
  obtain ⟨htrace, hsequence⟩ := place_of_hash hfree h.chained hrow hhash
  have hnumber : (stream.input trace k).sequence = (k : ℚ) + 1 :=
    hfits.sequence
  rw [hnumber] at hsequence
  exact h.behind hrow htrace (by exact_mod_cast hsequence)

theorem Filling.behind_of_violation (h : Filling rt trace stream db)
    (hfree : rt.CollisionFree) (hdates : rt.DatesReadBack) {k : ℕ}
    (hfits : Fits rt trace stream k) {admitted : Admitted}
    (hadmits : Admits rt (stream.input trace k) admitted) {uuid : String}
    (hfresh : k < headOf trace.id db ∨
      trajectoryEventTable.lookup uuid db = none)
    (hplan : planEvent rt (stream.input trace k) admitted uuid db = none) :
    k < headOf trace.id db := by
  rcases hfresh with hbehind | hnew
  · exact hbehind
  obtain ⟨written, hwritten, htext⟩ := hadmits.timestamp
  have hinstant : rt.parseDate admitted.timestamp = some written := by
    rw [htext]
    exact hdates _ _ hwritten
  unfold planEvent at hplan
  rw [hinstant, Option.bind_some] at hplan
  simp only at hplan
  split at hplan
  next => exact absurd hplan (by simp)
  next hrefused =>
    unfold eventAllowed at hrefused
    have hid : (newEvent (stream.input trace k) admitted written uuid).id =
        uuid := rfl
    rw [hid, hnew, Option.isNone_none, Bool.true_and,
      List.all_eq_true] at hrefused
    push Not at hrefused
    obtain ⟨row, hrow, htaken⟩ := hrefused
    by_cases hhash : row.eventHash = admitted.hash
    · exact h.behind_of_hash hfree hfits hadmits hrow hhash
    · have hplace : row.traceId = trace.id ∧
          row.sequence = (admitted.trace.sequenceHead : ℤ) + 1 := by
        simpa [newEvent, hhash, Stream.input] using htaken
      have hsequence : (stream.event k).sequence =
          (admitted.trace.sequenceHead : ℚ) + 1 := hadmits.sequence
      rw [hfits.sequence] at hsequence
      have hnumber : (k : ℤ) + 1 = (admitted.trace.sequenceHead : ℤ) + 1 := by
        exact_mod_cast hsequence
      exact h.behind hrow hplace.1 (hplace.2.trans hnumber.symm)

/-- What may be returned while the messages are handled in order. -/
theorem delivery_allows (hfree : rt.CollisionFree)
    (hdates : rt.DatesReadBack) {delivery : Delivery}
    (hindex : delivery.index < stream.length)
    (hfits : Fits rt trace stream delivery.index)
    (hlookup : traceTable.lookup trace.id start = some trace)
    (hactive : trace.status = .active)
    (hempty : eventsOf trace.id start = []) :
    Allows rt (Carried rt trace stream) False start
      (fun db => delivery.InOrder trace.id db ∧ delivery.FreshId trace.id db)
      (stream.input trace delivery.index) delivery.uuid
      (fun _ db => Reached (stream.input trace delivery.index) db) := by
  constructor
  · exact fun admitted instant hadmits hinstant _ =>
      ⟨delivery.index, hindex, hfits.holds hdates hadmits hinstant⟩
  · exact fun _ held db db' hmoves hreached => hreached.moved hmoves
  · intro db failure hmoves hok hrefused
    have hfilling := filling_of_moves hlookup hactive hempty hmoves
    rw [hfilling.reached_iff hfits]
    by_contra hahead
    have hnext : headOf trace.id db = delivery.index := by
      have hbehind := hok.1.1
      omega
    have hfitsNext : Fits rt trace stream (headOf trace.id db) := by
      rw [hnext]
      exact hfits
    obtain ⟨admitted, hadmitted⟩ := hfilling.admits hfitsNext
    rw [hnext, hrefused] at hadmitted
    exact absurd hadmitted (by simp)
  · intro db admitted row hmoves hok hadmits hfound
    have hfilling := filling_of_moves hlookup hactive hempty hmoves
    rw [hfilling.reached_iff hfits]
    have hhash := List.find?_some hfound
    rw [decide_eq_true_eq] at hhash
    exact hfilling.behind_of_hash hfree hfits hadmits
      (List.mem_of_find?_eq_some hfound) hhash
  · intro db admitted hmoves hok hadmits hplan
    have hfilling := filling_of_moves hlookup hactive hempty hmoves
    rw [hfilling.reached_iff hfits]
    exact hfilling.behind_of_violation hfree hdates hfits hadmits hok.2 hplan
  · exact fun db event hreached => hreached

theorem acknowledge_guaranteed {rely : Rely Database RowKey}
    {ok : Database → Prop} {post : Database → Prop} (count : Count)
    {pending : List (Write Database RowKey)} {held : List RowKey}
    {seen : Database}
    (h : ∀ tables, rely.moves held seen tables → post tables) :
    (acknowledge count).Guaranteed rely ok (fun _ db => post db) pending held
      seen :=
  fun _ hmoved _ later hlater => h later (rely.trans _ _ _ _ hmoved hlater)

/-- A message is acknowledged only behind the head. -/
theorem delivery_guaranteed (hfree : rt.CollisionFree)
    (hdates : rt.DatesReadBack) {delivery : Delivery}
    (hindex : delivery.index < stream.length)
    (hfits : Fits rt trace stream delivery.index)
    (hstart : AllChained rt start)
    (hlookup : traceTable.lookup trace.id start = some trace)
    (hactive : trace.status = .active)
    (hempty : eventsOf trace.id start = []) :
    (delivery.script rt stream).Guaranteed
      (trajectoryRely rt (Carried rt trace stream) False)
      (fun db => delivery.InOrder trace.id db ∧ delivery.FreshId trace.id db)
      (fun _ db => Reached (stream.input trace delivery.index) db) [] []
      start := by
  unfold Delivery.script handleMessage
  simp only [hfits.parsed]
  have happend := appendEvent_guaranteed hdates (delivery_allows hfree hdates
    hindex hfits hlookup hactive hempty) hstart
  have honce : (appendOnce rt (stream.input trace delivery.index)
      delivery.uuid delivery.failure).Guaranteed
      (trajectoryRely rt (Carried rt trace stream) False)
      (fun db => delivery.InOrder trace.id db ∧ delivery.FreshId trace.id db)
      (fun _ db => Reached (stream.input trace delivery.index) db) [] []
      start := by
    unfold appendOnce
    cases hfailure : delivery.failure with
    | none => exact happend
    | some statement =>
        refine Script.Guaranteed.failing
          (fun held a b hmoved ha => (hmoved ha).chained) ?_ statement
          hstart happend
        intro db hdb hok later hlater
        have hbehind : delivery.index < headOf trace.id db :=
          hok.1.2 (by simp [hfailure])
        exact (reached_of_head hfits hbehind).moved (hlater hdb)
  exact honce.andThen (fun answer pending held seen hfound =>
    acknowledge_guaranteed (countAnswer _ answer) hfound)

end

/-! ## Every run -/

/-- For every trace and every stream that carries its events: where every
message is handled once its predecessors are stored, and no statement fails
before its own event is, an acknowledged message has its event stored, and
once every message is acknowledged the trace holds exactly the stream. -/
theorem no_event_lost {ι : Type} [Fintype ι] [DecidableEq ι] {rt : Runtime}
    {trace : TrajectoryTrace} {stream : Stream} {deliveries : ι → Delivery}
    (hfree : rt.CollisionFree) (hdates : rt.DatesReadBack) {db : Database}
    (hdb : AllChained rt db)
    (hlookup : traceTable.lookup trace.id db = some trace)
    (hactive : trace.status = .active) (hnew : trace.sequenceHead = 0)
    (hcarries : Carries rt trace stream)
    (hindex : ∀ i, (deliveries i).index < stream.length)
    {schedule : List (Event ι)}
    {final : Machine ι Database RowKey (Script Database RowKey Handled)}
    (hids : (Machine.starting db
      (fun i => (deliveries i).script rt stream)).Respects Handled.lost
        (fun i => (deliveries i).FreshId trace.id) schedule)
    (horder : (Machine.starting db
      (fun i => (deliveries i).script rt stream)).Respects Handled.lost
        (fun i => (deliveries i).InOrder trace.id) schedule)
    (hrun : (Machine.starting db
      (fun i => (deliveries i).script rt stream)).run
        (Script.program Handled.lost) schedule = some final) :
    (∀ i count, (final.sessions i).point = .done (.acknowledged count) →
      ∃ row ∈ getEvents trace.companyId trace.id final.committed,
        Holds rt stream (deliveries i).index row) ∧
    ((∀ k < stream.length, ∃ i count, (deliveries i).index = k ∧
        (final.sessions i).point = .done (.acknowledged count)) →
      (getEvents trace.companyId trace.id final.committed).map
          TrajectoryEvent.sequence =
        (List.range stream.length).map (fun k : ℕ => (k : ℤ) + 1) ∧
      ∀ row ∈ getEvents trace.companyId trace.id final.committed,
        ∃ k < stream.length, Holds rt stream k row) := by
  have hempty : eventsOf trace.id db = [] := by
    obtain ⟨_, hchained⟩ := hdb.lookup hlookup
    exact List.eq_nil_of_length_eq_zero (hchained.length.trans hnew)
  obtain ⟨hguarding, hmoved⟩ := Machine.guaranteed_run
    (Machine.guarding_starting (fun i => delivery_guaranteed hfree hdates
      (hindex i) (hcarries _ (hindex i)) hdb hlookup hactive hempty))
    (Machine.respects_and horder hids) hrun
  have hfilling := filling_of_moves hlookup hactive hempty (hmoved hdb)
  obtain ⟨later, hlater, hfound, _, _, hhead, _, hsequences⟩ := hfilling.head
  obtain ⟨hid, hchained⟩ := hfilling.chained.lookup hlater
  have hevents : getEvents trace.companyId trace.id final.committed =
      eventsOf trace.id final.committed := by
    have hown := hchained.getEvents_eq
    rw [hid, (hfilling.chained.lookup_of_getTrace hfound).2] at hown
    exact hown
  have hbehind : ∀ i count,
      (final.sessions i).point = .done (.acknowledged count) →
        (deliveries i).index < headOf trace.id final.committed := by
    intro i count hdone
    rw [← hfilling.reached_iff (hcarries _ (hindex i))]
    exact hguarding.result hdone (by simp)
  rw [hevents]
  refine ⟨fun i count hdone => hfilling.stored (hbehind i count hdone),
    fun hall => ⟨?_, hfilling.rows⟩⟩
  have hlength : headOf trace.id final.committed = stream.length := by
    apply le_antisymm
    · by_contra hmore
      have hmem : (stream.length : ℤ) + 1 ∈
          (eventsOf trace.id final.committed).map
            TrajectoryEvent.sequence := by
        rw [hsequences, mem_numbers]
        omega
      obtain ⟨row, hrow, hsequence⟩ := List.mem_map.mp hmem
      obtain ⟨k, hk, hholds⟩ := hfilling.rows row hrow
      have hnumber := hholds.sequence
      omega
    · by_contra hfewer
      obtain ⟨i, count, hi, hdone⟩ :=
        hall (headOf trace.id final.committed) (by omega)
      have hless := hbehind i count hdone
      omega
  rw [hsequences, hlength]
  unfold numbers
  apply List.map_congr_left
  intro k _
  exact add_comm _ _

/-! ## Two orders of delivery -/

def sampleStream (length : ℕ) : Stream where
  length := length
  event k :=
    { companyId := some "acme"
      traceId := some "trace-1"
      agentId := some "agent-1"
      sequence := (k : ℚ) + 1
      eventType := "tool_call"
      timestamp := "2026-03-01T12:00:00.000Z"
      payload := some (.object [("tool", .string "search")])
      sourceRef := some "run-7"
      trustContext := none
      provenanceRefs := some ["doc-1"]
      previousEventHash := none
      eventHash := none }

theorem sampleStream_carries (length : ℕ) :
    Carries sampleRuntime sampleTrace (sampleStream length) := by
  have hdate : sampleRuntime.parseDate "2026-03-01T12:00:00.000Z" =
      some sampleInstant := by
    decide
  intro k _
  refine ⟨rfl, rfl, rfl, by decide, rfl, ?_, Or.inl rfl, Or.inl rfl⟩
  change sampleRuntime.parseDate "2026-03-01T12:00:00.000Z" =
    some ((sampleRuntime.parseDate "2026-03-01T12:00:00.000Z").getD 0)
  rw [hdate, Option.getD_some]

abbrev IngestionMachine (ι : Type) :=
  Machine ι Database RowKey (Script Database RowKey Handled)

def sampleMachine (length : ℕ) (deliveries : Bool → Delivery) :
    IngestionMachine Bool :=
  .starting sampleTables
    (fun i => (deliveries i).script sampleRuntime (sampleStream length))

/-- The second message arrives before the first. -/
def outOfOrder : Bool → Delivery
  | false => ⟨1, "event-2", none⟩
  | true => ⟨0, "event-1", none⟩

/-- Both messages are acknowledged, and only the first event is stored. -/
theorem early_message_lost :
    Carries sampleRuntime sampleTrace (sampleStream 2) ∧
    ∃ final, (sampleMachine 2 outOfOrder).run (Script.program Handled.lost)
        (List.replicate 3 (.run false) ++ List.replicate 6 (.run true)) =
          some final ∧
      (final.sessions false).point = .done (.acknowledged .duplicate) ∧
      (final.sessions true).point = .done (.acknowledged .processed) ∧
      (getEvents "acme" "trace-1" final.committed).map
        TrajectoryEvent.sequence = [1] := by
  have hfinal : ((sampleMachine 2 outOfOrder).run
      (Script.program Handled.lost)
      (List.replicate 3 (.run false) ++ List.replicate 6 (.run true))).map
        (fun final => ((final.sessions false).point.result?,
          (final.sessions true).point.result?,
          (getEvents "acme" "trace-1" final.committed).map
            TrajectoryEvent.sequence)) =
      some (some (.acknowledged .duplicate), some (.acknowledged .processed),
        [1]) := by
    decide +kernel
  obtain ⟨final, hrun, heq⟩ := Option.map_eq_some_iff.mp hfinal
  rw [Prod.mk.injEq, Prod.mk.injEq] at heq
  exact ⟨sampleStream_carries 2, final, hrun,
    Script.eq_done_of_result heq.1, Script.eq_done_of_result heq.2.1,
    heq.2.2⟩

/-! ### Two messages in order -/

/-- The first append ends before the other two begin, and is acknowledged
while they are under way. -/
def orderedSchedule : List (Event (Option Bool)) :=
  List.replicate 5 (.run (some false)) ++
    [.run (some true), .run none, .run (some false), .run (some true),
      .run none, .run (some true), .run none, .run (some true),
      .run (some true), .run (some true)]

section

variable {rt : Runtime} {inputs : Option Bool → AppendEventInput}
  {uuids : Option Bool → String} {counts : Option Bool → Answer → Count}
  {db : Database} {a b : Admitted} {e f : TrajectoryEvent}
  {failure : Failure}

/-- Two appends go through, one after the other, and a third one is refused
in between. -/
theorem ordered_run
    (hfirst : Extends rt (inputs (some false)) (uuids (some false)) db a e)
    (hsecond : Extends rt (inputs (some true)) (uuids (some true))
      (appended a e db) b f)
    (hrefused : admission rt (inputs none) (appended a e db) =
      .error failure) :
    ∃ final, (Machine.starting db (fun i =>
        (appendEvent rt (inputs i) (uuids i)).andThen
          (fun answer => acknowledge (counts i answer)))).run
            (Script.program Handled.lost) orderedSchedule = some final ∧
      final.committed = appended b f (appended a e db) ∧
      ∀ i, ∃ count,
        (final.sessions i).point = .done (.acknowledged count) := by
  obtain ⟨hadmits, hnew, hplan, hinserted, htrace⟩ := hfirst
  obtain ⟨hadmits', hnew', hplan', hinserted', htrace'⟩ := hsecond
  simp only [orderedSchedule, List.replicate, List.cons_append,
    List.nil_append]
  unfold appended at *
  simp [Machine.run, Machine.step, Machine.starting, Machine.view,
    Machine.put, Machine.publish, Machine.Free, Session.start,
    Script.andThen, acknowledge, Script.program, Script.stmt, appendEvent,
    refuse, findDuplicate, createEvent, advanceHead, publishEvent,
    insertEvent, Function.update, Option.forall, *]

/-- The tables that the sessions find when they move. -/
theorem ordered_respects {ok : Option Bool → Database → Prop}
    (hfirst : Extends rt (inputs (some false)) (uuids (some false)) db a e)
    (hsecond : Extends rt (inputs (some true)) (uuids (some true))
      (appended a e db) b f)
    (hrefused : admission rt (inputs none) (appended a e db) =
      .error failure)
    (hbefore : ok (some false) db) (hbetween : ∀ i, ok i (appended a e db))
    (hafter : ok (some true) (appended b f (appended a e db))) :
    (Machine.starting db (fun i =>
      (appendEvent rt (inputs i) (uuids i)).andThen
        (fun answer => acknowledge (counts i answer)))).Respects
          Handled.lost ok orderedSchedule := by
  obtain ⟨hadmits, hnew, hplan, hinserted, htrace⟩ := hfirst
  obtain ⟨hadmits', hnew', hplan', hinserted', htrace'⟩ := hsecond
  simp only [orderedSchedule, List.replicate, List.cons_append,
    List.nil_append]
  unfold appended at *
  simp [Machine.respects_cons, Machine.step, Machine.starting, Machine.view,
    Machine.put, Machine.publish, Machine.Free, Session.start,
    Script.andThen, acknowledge, Script.program, Script.stmt, appendEvent,
    refuse, findDuplicate, createEvent, advanceHead, publishEvent,
    insertEvent, Function.update, Option.forall, *]
  trivial

end

/-- Two consumers handle two messages, and the first message is delivered
once more. -/
def inOrder : Option Bool → Delivery
  | some false => ⟨0, "event-1", none⟩
  | some true => ⟨1, "event-2", none⟩
  | none => ⟨0, "event-3", none⟩

def orderedMachine : IngestionMachine (Option Bool) :=
  .starting sampleTables
    (fun i => (inOrder i).script sampleRuntime (sampleStream 2))

theorem orderedMachine_eq :
    orderedMachine = .starting sampleTables (fun i =>
      (appendEvent sampleRuntime (turnInput (inOrder i).index)
        (inOrder i).uuid).andThen (fun answer => acknowledge
          (countAnswer (turnInput (inOrder i).index) answer))) := by
  unfold orderedMachine
  congr 1
  funext i
  rcases i with _ | _ | _ <;> rfl

/-- The first message is refused once its event is stored. -/
theorem first_refused_again :
    ∃ failure, admission sampleRuntime (turnInput 0) turnTables =
      .error failure := by
  have hfound : getTrace (turnInput 0).companyId (turnInput 0).traceId
      turnTables = some turnTrace := rfl
  simp only [admission, hfound]
  simp [turnInput, sampleEvent, sampleTrace, newTrace, turnAdmitted,
    turnTrace, advance]

theorem sample_not_lost :
    ∃ final, orderedMachine.run (Script.program Handled.lost)
        orderedSchedule = some final ∧
      (∀ i, ∃ count,
        (final.sessions i).point = .done (.acknowledged count)) ∧
      (∀ i count, (final.sessions i).point = .done (.acknowledged count) →
        ∃ row ∈ getEvents "acme" "trace-1" final.committed,
          Holds sampleRuntime (sampleStream 2) (inOrder i).index row) ∧
      ((∀ k < 2, ∃ i count, (inOrder i).index = k ∧
          (final.sessions i).point = .done (.acknowledged count)) →
        (getEvents "acme" "trace-1" final.committed).map
            TrajectoryEvent.sequence =
          (List.range 2).map (fun k : ℕ => (k : ℤ) + 1) ∧
        ∀ row ∈ getEvents "acme" "trace-1" final.committed,
          ∃ k < 2, Holds sampleRuntime (sampleStream 2) k row) := by
  obtain ⟨failure, hrefused⟩ := first_refused_again
  obtain ⟨final, hrun, _, hdone⟩ := @ordered_run sampleRuntime
    (fun i => turnInput (inOrder i).index) (fun i => (inOrder i).uuid)
    (fun i => countAnswer (turnInput (inOrder i).index)) _ _ _ _ _ _
    first_extends second_extends hrefused
  have hrespects : ∀ ok : Option Bool → Database → Prop,
      ok (some false) sampleTables → (∀ i, ok i turnTables) →
        ok (some true) turnResult → orderedMachine.Respects Handled.lost ok
          orderedSchedule := by
    intro ok hbefore hbetween hafter
    rw [orderedMachine_eq]
    exact ordered_respects first_extends second_extends hrefused hbefore
      hbetween hafter
  have hids : orderedMachine.Respects Handled.lost
      (fun i => (inOrder i).FreshId sampleTrace.id) orderedSchedule := by
    apply hrespects
    · exact Or.inr rfl
    · intro i
      rcases i with _ | _ | _
      · exact Or.inl Nat.zero_lt_one
      · exact Or.inl Nat.zero_lt_one
      · exact Or.inr rfl
    · exact Or.inl Nat.one_lt_two
  have horder : orderedMachine.Respects Handled.lost
      (fun i => (inOrder i).InOrder sampleTrace.id) orderedSchedule := by
    apply hrespects
    · exact ⟨le_rfl, fun hfailed => absurd rfl hfailed⟩
    · intro i
      rcases i with _ | _ | _
      · exact ⟨Nat.zero_le 1, fun hfailed => absurd rfl hfailed⟩
      · exact ⟨Nat.zero_le 1, fun hfailed => absurd rfl hfailed⟩
      · exact ⟨le_rfl, fun hfailed => absurd rfl hfailed⟩
    · exact ⟨one_le_two, fun hfailed => absurd rfl hfailed⟩
  have hindex : ∀ i, (inOrder i).index < (sampleStream 2).length := by
    intro i
    rcases i with _ | _ | _ <;> decide
  rw [← orderedMachine_eq] at hrun
  exact ⟨final, hrun, hdone, @no_event_lost (Option Bool) _ _ sampleRuntime
    sampleTrace (sampleStream 2) inOrder sampleRuntime_collisionFree
    (Runtime.onDates_readBack _ _) sampleTables (sampleTables_chained _) rfl
    rfl rfl (sampleStream_carries 2) hindex orderedSchedule final hids
    horder hrun⟩

end Trajectory
end Orvex
