import Orvex.Trajectory.Tampering

/-!
# Replays of stored events

An append compares the sequence of its input with the head before it looks
for an event with the same hash.  The head has reached every event that was
appended, so that a replay is refused as out of order, and the search for the
stored event is never reached.
-/

namespace Orvex
namespace Trajectory

open ReadCommitted

variable {rt : Runtime} {db : Database} {input : AppendEventInput}

/-! ## Refused appends -/

/-- What an append returns and leaves when no other call runs. -/
def appendAlone (rt : Runtime) (input : AppendEventInput) (uuid : String)
    (db : Database) : Answer × Database :=
  (appendEvent rt input uuid).alone [] db

theorem appendAlone_of_refused {failure : Failure}
    (h : admission rt input db = .error failure) (uuid : String) :
    appendAlone rt input uuid db = (.event (.error failure), db) := by
  unfold appendAlone appendEvent
  simp only [Script.alone, overlay_nil, h, refuse]

/-- An append whose sequence does not follow the head throws and leaves the
tables as they are. -/
theorem refused_of_sequence
    (h : ∀ trace, getTrace input.companyId input.traceId db = some trace →
      input.sequence ≠ (trace.sequenceHead : ℚ) + 1) (uuid : String) :
    ∃ failure, appendAlone rt input uuid db =
      (.event (.error failure), db) := by
  cases hadmission : admission rt input db with
  | error failure => exact ⟨failure, appendAlone_of_refused hadmission uuid⟩
  | ok admitted =>
      obtain ⟨hfound, _, _, _, hadmits⟩ := admit_eq_ok hadmission
      exact absurd hadmits.sequence (h admitted.trace hfound)

/-- Once the head has reached the sequence of an input, the input is
refused. -/
theorem refused_of_reached (hdb : AllChained rt db)
    (hreached : Reached input db) (uuid : String) :
    ∃ failure, appendAlone rt input uuid db =
      (.event (.error failure), db) := by
  apply refused_of_sequence
  intro trace hfound hnext
  obtain ⟨current, hcurrent, hbehind⟩ := hreached
  have hsame : current = trace := by
    have hlookup := (hdb.lookup_of_getTrace hfound).1
    rw [hcurrent] at hlookup
    exact Option.some.inj hlookup
  rw [hsame, hnext] at hbehind
  linarith

/-! ## Appended events -/

/-- The head has reached every stored event. -/
theorem AllChained.reached_of_mem (hdb : AllChained rt db)
    {event : TrajectoryEvent} (hmem : event ∈ db.trajectoryEvents) :
    ∃ trace, traceTable.lookup event.traceId db = some trace ∧
      event.sequence ≤ trace.sequenceHead ∧
        (chain rt event.traceId).Valid event := by
  obtain ⟨trace, hlookup⟩ := Option.ne_none_iff_exists'.mp (hdb.owned event hmem)
  obtain ⟨hid, hchained⟩ := hdb.lookup hlookup
  have hown : event ∈ eventsOf trace.id db := mem_eventsOf.mpr ⟨hmem, hid.symm⟩
  have hnumber : event.sequence ∈ numbers 1 trace.sequenceHead := by
    rw [← hchained.sequences]
    exact List.mem_map_of_mem hown
  rw [mem_numbers] at hnumber
  have hvalid := hchained.linked.valid event hown
  rw [hid] at hvalid
  exact ⟨trace, hlookup, by omega, hvalid⟩

/-- A stored event with the hash of an input stands at its sequence. -/
theorem reached_of_duplicate (hfree : rt.CollisionFree)
    (hdb : AllChained rt db) {admitted : Admitted}
    (hadmits : Admits rt input admitted) {event : TrajectoryEvent}
    (hfound : findEvent admitted.hash db = some event) :
    Reached input db := by
  have hmem : event ∈ db.trajectoryEvents := List.mem_of_find?_eq_some hfound
  have hhash : event.eventHash = admitted.hash := by
    simpa using List.find?_some hfound
  obtain ⟨trace, hlookup, hbehind, hvalid⟩ := hdb.reached_of_mem hmem
  have hsame := hvalid.symm.trans (hhash.trans hadmits.hash)
  have htrace : event.traceId = input.traceId := by
    obtain ⟨value, hvalue, hcanon⟩ := @field_of_sha256Json_eq rt hfree _ _
      hsame "traceId" (.string event.traceId) (by decide)
        (by simp [hashedFields])
    have hother : value = .string input.traceId := by
      simpa [hashedFields] using hvalue
    simpa [hother, canonicalize] using hcanon
  have hsequence : (event.sequence : ℚ) = input.sequence := by
    obtain ⟨value, hvalue, hcanon⟩ := @field_of_sha256Json_eq rt hfree _ _
      hsame "sequence" (.number event.sequence) (by decide)
        (by simp [hashedFields])
    have hother : value = .number input.sequence := by
      simpa [hashedFields] using hvalue
    simpa [hother, canonicalize] using hcanon
  rw [htrace] at hlookup
  refine ⟨trace, hlookup, ?_⟩
  rw [← hsequence]
  exact_mod_cast hbehind

/-! ## Every run -/

/-- The call has appended an event, or was given a stored one. -/
def AppendedBy {ι : Type} (calls : ι → TraceCall)
    (machine : TraceMachine ι) (i : ι) (input : AppendEventInput)
    (row : TrajectoryEvent) : Prop :=
  (∃ uuid, calls i = .append input uuid) ∧
    (machine.sessions i).point = .done (.event (.ok row))

/-- A call that appends has come to its sequence when it returns a row. -/
def ReachedByRow : TraceCall → Answer → Database → Prop
  | .append input _, .event (.ok _), db => Reached input db
  | _, _, _ => True

theorem append_reaches (hfree : rt.CollisionFree) (hdates : rt.DatesReadBack)
    (call : TraceCall) (hdb : AllChained rt db) :
    (call.script rt).Guaranteed (trajectoryRely rt (fun _ => True) True)
      (fun _ => True) (ReachedByRow call) [] [] db := by
  cases call with
  | complete companyId traceId now =>
      have hnothing : ReachedByRow (.complete companyId traceId now) =
          fun _ _ => True := rfl
      rw [hnothing]
      exact completeTrace_guaranteed trivial companyId traceId now hdb
  | append input uuid =>
      apply appendEvent_guaranteed hdates _ hdb
      constructor
      · exact fun _ _ _ _ => trivial
      · intro answer held before after hmoves hpost
        cases answer with
        | event result =>
            cases result with
            | ok row =>
                have hreached : Reached input before := hpost
                exact hreached.moved hmoves
            | error failure => trivial
        | trace result => trivial
        | lost => trivial
      · exact fun _ _ _ _ _ => trivial
      · intro later admitted event hmoves _ hadmits hfound
        exact reached_of_duplicate hfree hmoves.chained hadmits hfound
      · exact fun _ _ _ _ _ _ => trivial
      · exact fun _ _ hreached => hreached

section

variable {ι : Type} [Fintype ι] [DecidableEq ι] {calls : ι → TraceCall}
  {schedule : List (Event ι)} {final : TraceMachine ι}

/-- The head has reached whatever the calls of a run have appended. -/
theorem reached_of_appended (hfree : rt.CollisionFree)
    (hdates : rt.DatesReadBack) (hdb : AllChained rt db)
    (hrun : (Machine.starting db (fun i => (calls i).script rt)).run
      (Script.program Answer.lost) schedule = some final)
    {i : ι} {row : TrajectoryEvent}
    (happended : AppendedBy calls final i input row) :
    Reached input final.committed := by
  obtain ⟨⟨uuid, hcall⟩, hdone⟩ := happended
  obtain ⟨hfinal, _⟩ := Machine.guaranteed_run
    (Machine.guarding_starting
      (fun i => append_reaches hfree hdates (calls i) hdb))
    (Machine.respects_true _ _) hrun
  have hreached := hfinal.result hdone (by simp)
  rw [hcall] at hreached
  exact hreached

/-- Replays of appended events return the stored row; other inputs that do
not follow the head are refused; and neither changes anything. -/
structure ReplaysIdempotent (rt : Runtime) (calls : ι → TraceCall)
    (machine : TraceMachine ι) : Prop where
  replays : ∀ i input row, AppendedBy calls machine i input row →
    ∀ uuid, appendAlone rt input uuid machine.committed =
      (.event (.ok row), machine.committed)
  refuses : ∀ input, (∀ i row, ¬ AppendedBy calls machine i input row) →
    (∀ trace, getTrace input.companyId input.traceId machine.committed =
      some trace → input.sequence ≠ (trace.sequenceHead : ℚ) + 1) →
    ∀ uuid, ∃ failure, appendAlone rt input uuid machine.committed =
      (.event (.error failure), machine.committed)

/-- A replay of an appended event throws, at any distance from the head and
whether or not the trace is complete. -/
theorem replay_refused (hfree : rt.CollisionFree)
    (hdates : rt.DatesReadBack) (hdb : AllChained rt db)
    (hrun : (Machine.starting db (fun i => (calls i).script rt)).run
      (Script.program Answer.lost) schedule = some final)
    {i : ι} {row : TrajectoryEvent}
    (happended : AppendedBy calls final i input row) (uuid : String) :
    ∃ failure, appendAlone rt input uuid final.committed =
      (.event (.error failure), final.committed) :=
  refused_of_reached (allChained_of_run hdates hdb hrun)
    (reached_of_appended hfree hdates hdb hrun happended) uuid

/-- Replays are idempotent in the states in which there is nothing to replay,
and in no others. -/
theorem replays_idempotent_iff (hfree : rt.CollisionFree)
    (hdates : rt.DatesReadBack) (hdb : AllChained rt db)
    (hrun : (Machine.starting db (fun i => (calls i).script rt)).run
      (Script.program Answer.lost) schedule = some final) :
    ReplaysIdempotent rt calls final ↔
      ∀ i input row, ¬ AppendedBy calls final i input row := by
  constructor
  · intro hidempotent i input row happended
    obtain ⟨failure, hrefused⟩ :=
      replay_refused hfree hdates hdb hrun happended "replay"
    rw [hidempotent.replays i input row happended "replay"] at hrefused
    cases hrefused
  · intro hnothing
    constructor
    · intro i input row happended
      exact absurd happended (hnothing i input row)
    · intro input _ hsequence uuid
      exact refused_of_sequence hsequence uuid

end

/-! ## A replay of the first event -/

def returnsRow : TraceScript → Bool
  | .done (.event (.ok _)) => true
  | _ => false

theorem sample_append_returns :
    ∃ final row, (Machine.starting sampleTables (fun i =>
        (sampleCall i).script sampleRuntime)).run
          (Script.program Answer.lost) (List.replicate 5 (.run ())) =
            some final ∧
      AppendedBy sampleCall final () (sampleEvent "tool_call") row ∧
      final.committed.trajectoryTraces.map TrajectoryTrace.sequenceHead =
        [1] := by
  have hends : ((Machine.starting sampleTables (fun i =>
      (sampleCall i).script sampleRuntime)).run
        (Script.program Answer.lost) (List.replicate 5 (.run ()))).map
          (fun final => (returnsRow (final.sessions ()).point,
            final.committed.trajectoryTraces.map
              TrajectoryTrace.sequenceHead)) = some (true, [1]) := by
    decide +kernel
  obtain ⟨final, hrun, hfinal⟩ := Option.map_eq_some_iff.mp hends
  rw [Prod.mk.injEq] at hfinal
  obtain ⟨hreturns, hheads⟩ := hfinal
  have hdone : ∃ row, (final.sessions ()).point = .done (.event (.ok row)) := by
    unfold returnsRow at hreturns
    split at hreturns
    next row hpoint => exact ⟨row, hpoint⟩
    next => exact absurd hreturns (by simp)
  obtain ⟨row, hrow⟩ := hdone
  exact ⟨final, row, hrun, ⟨⟨"event-1", rfl⟩, hrow⟩, hheads⟩

/-- The first event of a trace, appended and sent again, is refused. -/
theorem first_replay_refused :
    ∃ final, (Machine.starting sampleTables (fun i =>
        (sampleCall i).script sampleRuntime)).run
          (Script.program Answer.lost) (List.replicate 5 (.run ())) =
            some final ∧ ¬ ReplaysIdempotent sampleRuntime sampleCall final := by
  obtain ⟨final, row, hrun, happended, hheads⟩ := sample_append_returns
  refine ⟨final, hrun, fun hidempotent => ?_⟩
  have hsequence : ∀ trace, getTrace "acme" "trace-1" final.committed =
      some trace → (1 : ℚ) ≠ (trace.sequenceHead : ℚ) + 1 := by
    intro trace hfound
    have hmem : trace.sequenceHead ∈ final.committed.trajectoryTraces.map
        TrajectoryTrace.sequenceHead :=
      List.mem_map_of_mem (List.mem_of_find?_eq_some hfound)
    rw [hheads, List.mem_singleton] at hmem
    norm_num [hmem]
  obtain ⟨failure, hrefused⟩ := @refused_of_sequence sampleRuntime
    final.committed (sampleEvent "tool_call") hsequence "event-2"
  rw [hidempotent.replays () _ row happended "event-2"] at hrefused
  cases hrefused

theorem sample_replays_iff :
    ∃ final, (Machine.starting sampleTables (fun i =>
        (sampleCall i).script sampleRuntime)).run
          (Script.program Answer.lost) (List.replicate 5 (.run ())) =
            some final ∧
      (ReplaysIdempotent sampleRuntime sampleCall final ↔
        ∀ i input row, ¬ AppendedBy sampleCall final i input row) := by
  obtain ⟨final, _, hrun, _, _⟩ := sample_append_returns
  exact ⟨final, hrun, replays_idempotent_iff sampleRuntime_collisionFree
    (Runtime.onDates_readBack _ _) (sampleTables_chained _) hrun⟩

end Trajectory
end Orvex
