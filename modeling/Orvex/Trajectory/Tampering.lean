import Orvex.Trajectory.Appends

/-!
# Altered events

Whoever alters the stored events can recompute their hashes.  Verification
recomputes them too, but it does not look at the head that the trace holds,
and no hash covers the agent, the source reference or the trust context.
-/

namespace Orvex
namespace Trajectory

open ReadCommitted

/-- What is recorded of an event.  The order of keys in a JSON value is not
recorded. -/
structure Recorded where
  sequence : ℤ
  agentId : String
  eventType : String
  timestamp : ℤ
  payload : Json
  sourceRef : Option String
  trustContext : Option Json
  provenanceRefs : Option (List String)

def recorded (event : TrajectoryEvent) : Recorded where
  sequence := event.sequence
  agentId := event.agentId
  eventType := event.eventType
  timestamp := event.timestamp
  payload := ordered event.payloadJson
  sourceRef := event.sourceRef
  trustContext := event.trustContextJson.map ordered
  provenanceRefs := event.provenanceRefsJson

/-- The events end where the trace says that they end. -/
def EndsAtHead (trace : TrajectoryTrace) (events : List TrajectoryEvent) :
    Prop :=
  events.length = trace.sequenceHead ∧
    trace.headHash = some
      ((events.map TrajectoryEvent.eventHash).getLastD genesisHash)

/-- The parts of an event that its hash leaves out are as they were. -/
structure UnhashedKept (before after : TrajectoryEvent) : Prop where
  agentId : before.agentId = after.agentId
  sourceRef : before.sourceRef = after.sourceRef
  trustContext : before.trustContextJson.map ordered =
    after.trustContextJson.map ordered
  provenanceRefs : before.provenanceRefsJson.isSome =
    after.provenanceRefsJson.isSome
  payload : canonicalize before.payloadJson = canonicalize after.payloadJson →
    ordered before.payloadJson = ordered after.payloadJson

/-! ## What the hash covers -/

structure Covered where
  sequence : ℤ
  eventType : String
  timestamp : ℤ
  payload : Json
  provenanceRefs : List String

def covered (event : TrajectoryEvent) : Covered where
  sequence := event.sequence
  eventType := event.eventType
  timestamp := event.timestamp
  payload := canonicalize event.payloadJson
  provenanceRefs := event.provenanceRefsJson.getD []

section

variable {rt : Runtime} {traceId : String} {a b : TrajectoryEvent}

theorem textArray_injective : Function.Injective textArray := by
  intro texts others h
  simp only [textArray, JsonText.Value.array.injEq] at h
  exact List.map_injective_iff.mpr
    (fun _ _ hsame => JsonText.Value.string.inj hsame) h

theorem canonicalize_textArray (texts : List String) :
    canonicalize (textArray texts) = textArray texts := by
  unfold textArray
  rw [canonicalize]
  congr 1
  induction texts with
  | nil => rfl
  | cons text rest ih =>
      rw [List.map_cons, canonicalizeItems, ih]
      rfl

def hashedKeys : List String :=
  ["traceId", "sequence", "eventType", "timestamp", "payload",
    "provenanceRefs", "previousEventHash"]

def hashedValues (rt : Runtime) (traceId : String)
    (event : TrajectoryEvent) : List Json :=
  [.string traceId, .number event.sequence, .string event.eventType,
    .string (rt.toISOString event.timestamp), event.payloadJson,
    textArray (event.provenanceRefsJson.getD []),
    .string event.previousEventHash]

/-- The hashes of two events of a trace agree exactly where the values that
they cover do. -/
theorem hash_eq_iff (hfree : rt.CollisionFree)
    (ha : (chain rt traceId).Valid a) (hb : (chain rt traceId).Valid b) :
    a.eventHash = b.eventHash ↔
      (hashedValues rt traceId a).map canonicalize =
        (hashedValues rt traceId b).map canonicalize := by
  have hhash : ∀ event, (chain rt traceId).Valid event →
      event.eventHash = sha256Json rt
        (.object (hashedKeys.zip (hashedValues rt traceId event))) :=
    fun event hvalid => hvalid
  rw [hhash a ha, hhash b hb]
  exact sha256Json_zip_iff hfree (by decide) (by decide) rfl rfl

/-- Events with one hash are the same in everything that it covers. -/
theorem covered_of_hash (hfree : rt.CollisionFree)
    (hiso : Function.Injective rt.toISOString)
    (ha : (chain rt traceId).Valid a) (hb : (chain rt traceId).Valid b)
    (h : a.eventHash = b.eventHash) :
    a.previousEventHash = b.previousEventHash ∧ covered a = covered b := by
  rw [hash_eq_iff hfree ha hb] at h
  simp only [hashedValues, List.map_cons, List.map_nil, List.cons.injEq,
    canonicalize_textArray, and_true] at h
  simp only [canonicalize, JsonText.Value.string.injEq,
    JsonText.Value.number.injEq, Int.cast_inj, true_and] at h
  obtain ⟨hsequence, htype, htimestamp, hpayload, hrefs, hprevious⟩ := h
  refine ⟨hprevious, ?_⟩
  unfold covered
  rw [hsequence, htype, hiso htimestamp, hpayload, textArray_injective hrefs]

/-- What an event records determines its hash, after the one before it. -/
theorem hash_of_recorded (hfree : rt.CollisionFree)
    (ha : (chain rt traceId).Valid a) (hb : (chain rt traceId).Valid b)
    (hprevious : a.previousEventHash = b.previousEventHash)
    (h : recorded a = recorded b) : a.eventHash = b.eventHash := by
  rw [hash_eq_iff hfree ha hb]
  simp only [recorded, Recorded.mk.injEq] at h
  obtain ⟨hsequence, _, htype, htimestamp, hpayload, _, _, hrefs⟩ := h
  simp only [hashedValues, List.map_cons, List.map_nil, hsequence, htype,
    htimestamp, hrefs, hprevious, canonicalize_eq_of_ordered hpayload]

/-- The hash and the parts that it leaves out make up what is recorded. -/
theorem recorded_of_covered (hcovered : covered a = covered b)
    (hkept : UnhashedKept a b) : recorded a = recorded b := by
  simp only [covered, Covered.mk.injEq] at hcovered
  obtain ⟨hsequence, htype, htimestamp, hpayload, hrefs⟩ := hcovered
  have hsame : a.provenanceRefsJson = b.provenanceRefsJson := by
    have hsome := hkept.provenanceRefs
    cases ha : a.provenanceRefsJson <;> cases hb : b.provenanceRefsJson <;>
      simp_all
  unfold recorded
  rw [hsequence, hkept.agentId, htype, htimestamp, hkept.payload hpayload,
    hkept.sourceRef, hkept.trustContext, hsame]

theorem unhashedKept_of_recorded (h : recorded a = recorded b) :
    UnhashedKept a b := by
  simp only [recorded, Recorded.mk.injEq] at h
  obtain ⟨_, hagent, _, _, hpayload, hsource, htrust, hrefs⟩ := h
  exact ⟨hagent, hsource, htrust, by rw [hrefs], fun _ => hpayload⟩

end

/-! ## Altering the stored events -/

section

variable {rt : Runtime} {trace : TrajectoryTrace} {db : Database}

def altered (db : Database) (rows : List TrajectoryEvent) : Database :=
  { db with trajectoryEvents := rows }

/-- Where verification accepts the altered rows, they record what was
appended exactly if they end at the head and keep what no hash covers. -/
theorem Chained.recorded_iff (h : Chained rt trace db)
    (hfree : rt.CollisionFree)
    (hiso : Function.Injective rt.toISOString) {rows : List TrajectoryEvent}
    (hverified : verifyChain rt trace.companyId trace.id
      (altered db rows) = true) :
    (getEvents trace.companyId trace.id (altered db rows)).map recorded =
        (getEvents trace.companyId trace.id db).map recorded ↔
      EndsAtHead trace (getEvents trace.companyId trace.id
        (altered db rows)) ∧
      ∀ pair ∈ (getEvents trace.companyId trace.id db).zip
          (getEvents trace.companyId trace.id (altered db rows)),
        UnhashedKept pair.1 pair.2 := by
  have hlinked := h.linked
  have hlength := h.length
  have hhead := h.head
  rw [← h.getEvents_eq] at hlinked hlength hhead
  obtain ⟨_, hstored⟩ := verifyFrom_iff.mp hverified
  have hends : EndsAtHead trace (getEvents trace.companyId trace.id
        (altered db rows)) ↔
      (getEvents trace.companyId trace.id (altered db rows)).length =
          (getEvents trace.companyId trace.id db).length ∧
        (chain rt trace.id).head genesisHash
            (getEvents trace.companyId trace.id (altered db rows)) =
          (chain rt trace.id).head genesisHash
            (getEvents trace.companyId trace.id db) := by
    have hlast : (chain rt trace.id).head genesisHash
        (getEvents trace.companyId trace.id (altered db rows)) =
          ((getEvents trace.companyId trace.id (altered db rows)).map
            TrajectoryEvent.eventHash).getLastD genesisHash :=
      HashChain.head_eq_getLastD
    unfold EndsAtHead
    rw [hlength, hhead, hlast, Option.some.injEq, eq_comm (b :=
      ((getEvents trace.companyId trace.id (altered db rows)).map
        TrajectoryEvent.eventHash).getLastD genesisHash)]
  rw [hends]
  exact HashChain.recorded_iff
    (fun a b ha hb => covered_of_hash hfree hiso ha hb)
    (fun a b ha hb => hash_of_recorded hfree ha hb)
    (fun a b => recorded_of_covered) (fun a b => unhashedKept_of_recorded)
    hlinked hstored

end

/-- For every trace that appends have built and every alteration of the
stored events that verification accepts, the events record what was appended
exactly if they end at the head of the trace and keep what no hash covers. -/
theorem altered_recorded_iff {ι : Type} [Fintype ι] [DecidableEq ι]
    {rt : Runtime} {calls : ι → TraceCall} (hfree : rt.CollisionFree)
    (hdates : rt.DatesReadBack) (hiso : Function.Injective rt.toISOString)
    {db : Database} (hdb : AllChained rt db) {schedule : List (Event ι)}
    {final : TraceMachine ι}
    (hrun : (Machine.starting db (fun i => (calls i).script rt)).run
      (Script.program Answer.lost) schedule = some final)
    {trace : TrajectoryTrace}
    (htrace : trace ∈ final.committed.trajectoryTraces)
    {rows : List TrajectoryEvent}
    (hverified : verifyChain rt trace.companyId trace.id
      (altered final.committed rows) = true) :
    (getEvents trace.companyId trace.id
        (altered final.committed rows)).map recorded =
      (getEvents trace.companyId trace.id final.committed).map recorded ↔
    EndsAtHead trace (getEvents trace.companyId trace.id
        (altered final.committed rows)) ∧
      ∀ pair ∈ (getEvents trace.companyId trace.id final.committed).zip
          (getEvents trace.companyId trace.id
            (altered final.committed rows)),
        UnhashedKept pair.1 pair.2 := by
  have hchained := allChained_of_run hdates hdb hrun
  exact (hchained.chained trace htrace).recorded_iff hfree hiso hverified

/-! ## A trace that loses its end -/

/-- The texts that are hashed: the first event of the trace, and a second
one like it. -/
def sampleTexts : List String :=
  List.map String.join [
    ["\x7b\"eventType\":\"tool_call\",",
      "\"payload\":\x7b\"tool\":\"search\"\x7d,",
      "\"previousEventHash\":\"sha256:genesis\",",
      "\"provenanceRefs\":[\"doc-1\"],\"sequence\":1,",
      "\"timestamp\":\"2026-03-01T12:00:00.000Z\",",
      "\"traceId\":\"trace-1\"\x7d"],
    ["\x7b\"eventType\":\"tool_call\",",
      "\"payload\":\x7b\"tool\":\"search\"\x7d,",
      "\"previousEventHash\":\"sha256:54095e9a6dc263df03e002ff96ad446a",
      "67315f1af1e4174ed80f71733422cccd\",",
      "\"provenanceRefs\":[\"doc-1\"],\"sequence\":2,",
      "\"timestamp\":\"2026-03-01T12:00:00.000Z\",",
      "\"traceId\":\"trace-1\"\x7d"]]

set_option maxRecDepth 100000 in
theorem sampleTexts_nodup :
    (sampleTexts.map Reference.sha256Hex).Nodup :=
  @Reference.nodup_digests sampleTexts
    [[_, _, _, _, _, _], [_, _, _, _, _, _, _]] rfl (by decide +kernel)

def sampleRuntime : Runtime :=
  (Runtime.pinned sampleTexts).onDates [sampleInstant]

theorem sampleRuntime_collisionFree : sampleRuntime.CollisionFree :=
  Runtime.onDates_collisionFree
    (Runtime.pinned_collisionFree sampleTexts_nodup)

theorem sampleRuntime_iso_injective :
    Function.Injective sampleRuntime.toISOString :=
  Runtime.onDates_injective _ (List.nodup_singleton _)

def sampleCall : Unit → TraceCall :=
  fun _ => .append (sampleEvent "tool_call") "event-1"

theorem sample_appended :
    ∃ final trace event, (Machine.starting sampleTables (fun i =>
        (sampleCall i).script sampleRuntime)).run
          (Script.program Answer.lost) (List.replicate 5 (.run ())) =
            some final ∧
      trace ∈ final.committed.trajectoryTraces ∧
      getEvents trace.companyId trace.id final.committed = [event] := by
  have hcounts : ((Machine.starting sampleTables (fun i =>
      (sampleCall i).script sampleRuntime)).run
        (Script.program Answer.lost) (List.replicate 5 (.run ()))).map
          (fun final => final.committed.trajectoryTraces.map (fun trace =>
            (getEvents trace.companyId trace.id final.committed).length)) =
              some [1] := by
    decide +kernel
  obtain ⟨final, hrun, hfinal⟩ := Option.map_eq_some_iff.mp hcounts
  have hone : 1 ∈ final.committed.trajectoryTraces.map (fun trace =>
      (getEvents trace.companyId trace.id final.committed).length) := by
    rw [hfinal]
    exact List.mem_singleton_self 1
  obtain ⟨trace, htrace, hlength⟩ := List.mem_map.mp hone
  obtain ⟨event, hevent⟩ := List.length_eq_one_iff.mp hlength
  exact ⟨final, trace, event, hrun, htrace, hevent⟩

/-- Without its only event the trace is still accepted. -/
theorem truncation_accepted :
    ∃ final trace, (Machine.starting sampleTables (fun i =>
        (sampleCall i).script sampleRuntime)).run
          (Script.program Answer.lost) (List.replicate 5 (.run ())) =
            some final ∧
      trace ∈ final.committed.trajectoryTraces ∧
      verifyChain sampleRuntime trace.companyId trace.id
        (altered final.committed []) = true ∧
      (getEvents trace.companyId trace.id
          (altered final.committed [])).map recorded ≠
        (getEvents trace.companyId trace.id final.committed).map
          recorded := by
  obtain ⟨final, trace, event, hrun, htrace, hevent⟩ := sample_appended
  refine ⟨final, trace, hrun, htrace, rfl, ?_⟩
  rw [hevent]
  exact (List.cons_ne_nil _ _).symm

/-! ## Two events that are copied -/

/-- An append that finds its trace as it needs it and adds this event. -/
structure Extends (rt : Runtime) (input : AppendEventInput) (uuid : String)
    (db : Database) (admitted : Admitted) (event : TrajectoryEvent) :
    Prop where
  admits : admission rt input db = .ok admitted
  new : findEvent admitted.hash db = none
  plan : planEvent rt input admitted uuid db = some (insertEvent event)
  inserted : insertedEvent rt input admitted uuid = event
  trace : planTrace admitted.trace.id (advance admitted)
      (trajectoryEventTable.insert event db) =
    some ⟨[.trace admitted.trace.id],
      traceTable.modify admitted.trace.id (advance admitted)⟩

/-- One append, and then another one. -/
def turnSchedule : List (Event Bool) :=
  List.replicate 5 (.run false) ++ List.replicate 5 (.run true)

theorem Extends.run {rt : Runtime} {inputs : Bool → AppendEventInput}
    {uuids : Bool → String} {db : Database} {a b : Admitted}
    {e f : TrajectoryEvent}
    (hfirst : Extends rt (inputs false) (uuids false) db a e)
    (hsecond : Extends rt (inputs true) (uuids true) (appended a e db) b f) :
    ∃ final, (Machine.starting db (fun i =>
        (TraceCall.append (inputs i) (uuids i)).script rt)).run
          (Script.program Answer.lost) turnSchedule = some final ∧
      final.committed = appended b f (appended a e db) := by
  obtain ⟨hadmits, hnew, hplan, hinserted, htrace⟩ := hfirst
  obtain ⟨hadmits', hnew', hplan', hinserted', htrace'⟩ := hsecond
  simp only [turnSchedule, List.replicate, List.cons_append,
    List.nil_append]
  unfold appended at *
  simp [Machine.run, Machine.step, Machine.starting, Machine.view,
    Machine.put, Machine.publish, Machine.Free, Session.start,
    Script.program, Script.stmt, TraceCall.script, appendEvent,
    findDuplicate, createEvent, advanceHead, publishEvent, insertEvent,
    Function.update, *]

def turnInput (k : ℕ) : AppendEventInput :=
  { sampleEvent "tool_call" with sequence := (k : ℚ) + 1 }

/-- What an append to the trace at this head has established. -/
def turnAdmitted (k : ℕ) (trace : TrajectoryTrace) : Admitted where
  trace := trace
  headHash := trace.headHash.getD genesisHash
  timestamp := sampleRuntime.toISOString sampleInstant
  hash := computeEventHash sampleRuntime "trace-1" ((k : ℚ) + 1) "tool_call"
    (sampleRuntime.toISOString sampleInstant)
    (.object [("tool", .string "search")]) (some ["doc-1"])
    (trace.headHash.getD genesisHash)

def firstEvent : TrajectoryEvent :=
  newEvent (turnInput 0) (turnAdmitted 0 sampleTrace) sampleInstant "event-1"

/-- The trace, and the tables, once the first event is stored. -/
def turnTrace : TrajectoryTrace :=
  advance (turnAdmitted 0 sampleTrace) sampleTrace

def turnTables : Database :=
  appended (turnAdmitted 0 sampleTrace) firstEvent sampleTables

def secondEvent : TrajectoryEvent :=
  newEvent (turnInput 1) (turnAdmitted 1 turnTrace) sampleInstant "event-2"

def turnResult : Database :=
  appended (turnAdmitted 1 turnTrace) secondEvent turnTables

theorem sample_date :
    sampleRuntime.parseDate "2026-03-01T12:00:00.000Z" =
      some sampleInstant := by
  decide

theorem sample_date_back :
    sampleRuntime.parseDate (sampleRuntime.toISOString sampleInstant) =
      some sampleInstant :=
  Runtime.onDates_readBack _ _ _ _ sample_date

theorem firstEvent_valid :
    (chain sampleRuntime "trace-1").Valid firstEvent := by
  change computeEventHash sampleRuntime "trace-1" (((0 : ℕ) : ℚ) + 1)
    "tool_call" _ _ _ _ = computeEventHash sampleRuntime "trace-1"
      (((0 : ℤ) + 1 : ℤ) : ℚ) "tool_call" _ _ _ _
  norm_num
  rfl

theorem secondEvent_valid :
    (chain sampleRuntime "trace-1").Valid secondEvent := by
  change computeEventHash sampleRuntime "trace-1" (((1 : ℕ) : ℚ) + 1)
    "tool_call" _ _ _ _ = computeEventHash sampleRuntime "trace-1"
      (((1 : ℤ) + 1 : ℤ) : ℚ) "tool_call" _ _ _ _
  norm_num
  rfl

theorem turn_hashes_differ : firstEvent.eventHash ≠ secondEvent.eventHash := by
  intro heq
  have hcovered : covered firstEvent = covered secondEvent :=
    (@covered_of_hash sampleRuntime "trace-1" firstEvent secondEvent
      sampleRuntime_collisionFree sampleRuntime_iso_injective
      firstEvent_valid secondEvent_valid heq).2
  have hsequence : firstEvent.sequence = secondEvent.sequence :=
    congrArg Covered.sequence hcovered
  exact absurd hsequence (by decide)

theorem first_extends :
    Extends sampleRuntime (turnInput 0) "event-1" sampleTables
      (turnAdmitted 0 sampleTrace) firstEvent := by
  have hfound : getTrace (turnInput 0).companyId (turnInput 0).traceId
      sampleTables = some sampleTrace := rfl
  constructor
  · simp only [admission, hfound]
    simp [turnInput, sampleEvent, sampleTrace, newTrace, sample_date,
      turnAdmitted]
  · rfl
  · unfold planEvent
    change (sampleRuntime.parseDate
      (sampleRuntime.toISOString sampleInstant)).bind _ = _
    rw [sample_date_back]
    rfl
  · unfold insertedEvent
    change newEvent _ _ ((sampleRuntime.parseDate
      (sampleRuntime.toISOString sampleInstant)).getD 0) _ = _
    rw [sample_date_back]
    rfl
  · rfl

theorem second_extends :
    Extends sampleRuntime (turnInput 1) "event-2" turnTables
      (turnAdmitted 1 turnTrace) secondEvent := by
  have hfound : getTrace (turnInput 1).companyId (turnInput 1).traceId
      turnTables = some turnTrace := rfl
  have hrows : turnTables.trajectoryEvents = [firstEvent] := rfl
  have hhash : firstEvent.eventHash ≠ (turnAdmitted 1 turnTrace).hash :=
    turn_hashes_differ
  constructor
  · simp only [admission, hfound]
    simp [turnInput, sampleEvent, sampleTrace, newTrace, sample_date,
      turnAdmitted, turnTrace, advance]
  · simp [findEvent, trajectoryEventTable, Table.find, hrows, hhash]
  · have hallowed : eventAllowed secondEvent turnTables = true := by
      have hid : trajectoryEventTable.lookup "event-2" turnTables = none :=
        rfl
      have hsequence : firstEvent.sequence ≠ secondEvent.sequence := by
        decide
      unfold eventAllowed
      change ((trajectoryEventTable.lookup "event-2" turnTables).isNone &&
        _) = true
      rw [hid, hrows]
      simp [hsequence, turn_hashes_differ]
    unfold planEvent
    change (sampleRuntime.parseDate
      (sampleRuntime.toISOString sampleInstant)).bind _ = _
    rw [sample_date_back, Option.bind_some]
    exact if_pos hallowed
  · unfold insertedEvent
    change newEvent _ _ ((sampleRuntime.parseDate
      (sampleRuntime.toISOString sampleInstant)).getD 0) _ = _
    rw [sample_date_back]
    rfl
  · rfl

def turnMachine : TraceMachine Bool :=
  .starting sampleTables (fun i => (TraceCall.append
    (turnInput (if i then 1 else 0))
    (if i then "event-2" else "event-1")).script sampleRuntime)

theorem turnMachine_run :
    ∃ final, turnMachine.run (Script.program Answer.lost) turnSchedule =
        some final ∧
      final.committed = turnResult :=
  @Extends.run sampleRuntime (fun i => turnInput (if i then 1 else 0))
    (fun i => if i then "event-2" else "event-1") _ _ _ _ _ first_extends
    second_extends

/-- A copy of the event under another id. -/
def copied (event : TrajectoryEvent) : TrajectoryEvent :=
  { event with id := "copy-" ++ event.id }

/-- Copies in the other order. -/
def copiedRows : List TrajectoryEvent :=
  (turnResult.trajectoryEvents.map copied).reverse

theorem turnResult_events :
    getEvents "acme" "trace-1" turnResult = [firstEvent, secondEvent] := rfl

theorem copiedRows_events :
    getEvents "acme" "trace-1" (altered turnResult copiedRows) =
      [copied firstEvent, copied secondEvent] := rfl

theorem copiedRows_verified :
    verifyChain sampleRuntime "acme" "trace-1"
      (altered turnResult copiedRows) = true := by
  unfold verifyChain
  rw [copiedRows_events, verifyFrom_iff]
  exact ⟨rfl, rfl, firstEvent_valid, rfl, secondEvent_valid, trivial⟩

/-- Replaced by copies, the events still record what was appended. -/
theorem sample_recorded_iff :
    ∃ final trace,
      turnMachine.run (Script.program Answer.lost) turnSchedule =
        some final ∧
      trace ∈ final.committed.trajectoryTraces ∧
      (getEvents trace.companyId trace.id
          (altered final.committed copiedRows)).map recorded =
        (getEvents trace.companyId trace.id final.committed).map recorded ∧
      ((getEvents trace.companyId trace.id
          (altered final.committed copiedRows)).map recorded =
        (getEvents trace.companyId trace.id final.committed).map recorded ↔
      EndsAtHead trace (getEvents trace.companyId trace.id
          (altered final.committed copiedRows)) ∧
        ∀ pair ∈ (getEvents trace.companyId trace.id final.committed).zip
            (getEvents trace.companyId trace.id
              (altered final.committed copiedRows)),
          UnhashedKept pair.1 pair.2) := by
  obtain ⟨final, hrun, hfinal⟩ := turnMachine_run
  have htrace : advance (turnAdmitted 1 turnTrace) turnTrace ∈
      final.committed.trajectoryTraces := by
    rw [hfinal]
    exact List.mem_singleton_self _
  have hverified : verifyChain sampleRuntime "acme" "trace-1"
      (altered final.committed copiedRows) = true := by
    rw [hfinal]
    exact copiedRows_verified
  refine ⟨final, advance (turnAdmitted 1 turnTrace) turnTrace, hrun, htrace,
    ?_, altered_recorded_iff sampleRuntime_collisionFree
      (Runtime.onDates_readBack _ _) sampleRuntime_iso_injective
      (sampleTables_chained _) hrun htrace hverified⟩
  rw [hfinal]
  change (getEvents "acme" "trace-1" _).map recorded =
    (getEvents "acme" "trace-1" _).map recorded
  rw [copiedRows_events, turnResult_events]
  rfl

end Trajectory
end Orvex
