import Orvex.Foundation.HashChain
import Orvex.Trajectory.Service

/-!
# The chain of a trace

A trace is chained when its events are numbered from one, link back to the
genesis hash, and end with the sequence and the hash that the trace holds.
Appending behind the head keeps it chained.
-/

namespace Orvex
namespace Trajectory

open ReadCommitted

/-- An event hashes its own columns, within the trace. -/
def chain (rt : Runtime) (traceId : String) :
    HashChain TrajectoryEvent String where
  previous := TrajectoryEvent.previousEventHash
  hash := TrajectoryEvent.eventHash
  Valid event := event.eventHash = computeEventHash rt traceId
    event.sequence event.eventType (rt.toISOString event.timestamp)
    event.payloadJson event.provenanceRefsJson event.previousEventHash

/-- The sequences `first`, `first + 1` and so on. -/
def numbers (first : ℤ) (n : ℕ) : List ℤ :=
  (List.range n).map (fun k : ℕ => first + (k : ℤ))

theorem numbers_succ (first : ℤ) (n : ℕ) :
    numbers first (n + 1) = first :: numbers (first + 1) n := by
  unfold numbers
  rw [List.range_succ_eq_map, List.map_cons, List.map_map]
  simp only [Nat.cast_zero, add_zero, List.cons.injEq, true_and]
  apply List.map_congr_left
  intro k _
  simp only [Function.comp_apply, Nat.succ_eq_add_one, Nat.cast_add,
    Nat.cast_one]
  ring

theorem numbers_append (first : ℤ) (n : ℕ) :
    numbers first (n + 1) = numbers first n ++ [first + n] := by
  unfold numbers
  rw [List.range_succ, List.map_append, List.map_singleton]

theorem mem_numbers {first m : ℤ} {n : ℕ} :
    m ∈ numbers first n ↔ first ≤ m ∧ m < first + n := by
  unfold numbers
  rw [List.mem_map]
  constructor
  · rintro ⟨k, hk, rfl⟩
    rw [List.mem_range] at hk
    omega
  · rintro ⟨hfirst, hlast⟩
    refine ⟨(m - first).toNat, ?_, ?_⟩
    · rw [List.mem_range]
      omega
    · omega

/-! ## Verification -/

/-- Verification accepts exactly the numbered chains. -/
theorem verifyFrom_iff {rt : Runtime} {traceId : String} {first : ℤ}
    {last : String} {events : List TrajectoryEvent} :
    verifyFrom rt traceId first last events = true ↔
      events.map TrajectoryEvent.sequence = numbers first events.length ∧
        (chain rt traceId).Linked last events := by
  induction events generalizing first last with
  | nil => simp [verifyFrom, numbers, HashChain.Linked]
  | cons event rest ih =>
      simp only [verifyFrom, Bool.and_eq_true, decide_eq_true_eq, ih,
        List.map_cons, List.length_cons, numbers_succ, List.cons.injEq,
        HashChain.Linked, chain]
      constructor
      · rintro ⟨⟨⟨hsequence, hprevious⟩, hhash⟩, hnumbers, hlinked⟩
        refine ⟨⟨hsequence, hnumbers⟩, hprevious, ?_, hlinked⟩
        rw [hprevious]
        exact hhash.symm
      · rintro ⟨⟨hsequence, hnumbers⟩, hprevious, hvalid, hlinked⟩
        refine ⟨⟨⟨hsequence, hprevious⟩, ?_⟩, hnumbers, hlinked⟩
        rw [← hprevious]
        exact hvalid.symm

theorem pairwise_of_numbers {events : List TrajectoryEvent} {first : ℤ}
    {n : ℕ} (h : events.map TrajectoryEvent.sequence = numbers first n) :
    events.Pairwise (fun a b => a.sequence ≤ b.sequence) := by
  have hsorted : (numbers first n).Pairwise (fun a b => a ≤ b) := by
    unfold numbers
    rw [List.pairwise_map]
    refine List.Pairwise.imp ?_ List.pairwise_lt_range
    intro a b hab
    omega
  rw [← h, List.pairwise_map] at hsorted
  exact hsorted

/-! ## Chained traces -/

def eventsOf (traceId : String) (db : Database) : List TrajectoryEvent :=
  db.trajectoryEvents.filter (fun event => event.traceId = traceId)

structure Chained (rt : Runtime) (trace : TrajectoryTrace) (db : Database) :
    Prop where
  company : ∀ event ∈ eventsOf trace.id db,
    event.companyId = trace.companyId
  sequences : (eventsOf trace.id db).map TrajectoryEvent.sequence =
    numbers 1 trace.sequenceHead
  linked : (chain rt trace.id).Linked genesisHash (eventsOf trace.id db)
  head : trace.headHash =
    some ((chain rt trace.id).head genesisHash (eventsOf trace.id db))

/-- Every trace is chained, and every event belongs to a trace. -/
structure AllChained (rt : Runtime) (db : Database) : Prop where
  keys : KeyedTable.UniqueKeys TrajectoryTrace.id db.trajectoryTraces
  owned : ∀ event ∈ db.trajectoryEvents,
    traceTable.lookup event.traceId db ≠ none
  chained : ∀ trace ∈ db.trajectoryTraces, Chained rt trace db

section

variable {rt : Runtime} {trace : TrajectoryTrace} {db : Database}

theorem Chained.length (h : Chained rt trace db) :
    (eventsOf trace.id db).length = trace.sequenceHead := by
  have hlength := congrArg List.length h.sequences
  unfold numbers at hlength
  simpa using hlength

theorem Chained.getEvents_eq (h : Chained rt trace db) :
    getEvents trace.companyId trace.id db = eventsOf trace.id db := by
  have hfilter : db.trajectoryEvents.filter (fun event =>
      event.traceId = trace.id ∧ event.companyId = trace.companyId) =
        eventsOf trace.id db := by
    apply List.filter_congr
    intro event hmem
    rw [decide_eq_decide]
    constructor
    · exact fun hboth => hboth.1
    · intro htrace
      refine ⟨htrace, h.company event ?_⟩
      exact List.mem_filter.mpr ⟨hmem, decide_eq_true htrace⟩
  unfold getEvents
  rw [hfilter]
  exact (pairwise_of_numbers h.sequences).insertionSort_eq

theorem Chained.verified (h : Chained rt trace db) :
    verifyChain rt trace.companyId trace.id db = true := by
  unfold verifyChain
  rw [verifyFrom_iff, h.getEvents_eq, h.length]
  exact ⟨h.sequences, h.linked⟩

/-- A trace whose events and head are the same stays chained. -/
theorem Chained.of_same {trace' : TrajectoryTrace} {db' : Database}
    (h : Chained rt trace db)
    (htrace : trace'.id = trace.id ∧ trace'.companyId = trace.companyId ∧
      trace'.sequenceHead = trace.sequenceHead ∧
        trace'.headHash = trace.headHash)
    (hevents : eventsOf trace.id db' = eventsOf trace.id db) :
    Chained rt trace' db' := by
  obtain ⟨hid, hcompany, hsequence, hhead⟩ := htrace
  constructor
  · rw [hid, hevents, hcompany]
    exact h.company
  · rw [hid, hevents, hsequence]
    exact h.sequences
  · rw [hid, hevents]
    exact h.linked
  · rw [hid, hevents, hhead]
    exact h.head

/-- An event behind the head moves the head. -/
theorem Chained.append {trace' : TrajectoryTrace} {db' : Database}
    (h : Chained rt trace db) {event : TrajectoryEvent}
    (hevents : eventsOf trace.id db' = eventsOf trace.id db ++ [event])
    (htrace : trace'.id = trace.id ∧ trace'.companyId = trace.companyId ∧
      trace'.sequenceHead = trace.sequenceHead + 1 ∧
        trace'.headHash = some event.eventHash)
    (hcompany : event.companyId = trace.companyId)
    (hsequence : event.sequence = (trace.sequenceHead : ℤ) + 1)
    (hprevious : trace.headHash = some event.previousEventHash)
    (hvalid : (chain rt trace.id).Valid event) :
    Chained rt trace' db' := by
  obtain ⟨hid, hsameCompany, hnext, hhead⟩ := htrace
  constructor
  · rw [hid, hevents, hsameCompany]
    intro other hmem
    rcases List.mem_append.mp hmem with hold | hnew
    · exact h.company other hold
    · rw [List.mem_singleton.mp hnew, hcompany]
  · rw [hid, hevents, hnext, List.map_append, h.sequences, numbers_append,
      List.map_singleton, hsequence, add_comm]
  · rw [hid, hevents, HashChain.linked_append_singleton]
    refine ⟨h.linked, ?_, hvalid⟩
    exact Option.some.inj (hprevious.symm.trans h.head)
  · rw [hid, hevents, hhead, HashChain.head_append_singleton]
    rfl

end

/-! ## The head and the places behind it -/

/-- No event stands at this place of the trace. -/
def Vacant (traceId : String) (sequence : ℤ) (db : Database) : Prop :=
  ∀ event ∈ db.trajectoryEvents, event.traceId = traceId →
    event.sequence ≠ sequence

theorem mem_eventsOf {traceId : String} {db : Database}
    {event : TrajectoryEvent} :
    event ∈ eventsOf traceId db ↔
      event ∈ db.trajectoryEvents ∧ event.traceId = traceId := by
  unfold eventsOf
  rw [List.mem_filter, decide_eq_true_eq]

/-- Where the next place is vacant, no event was appended since. -/
theorem Chained.head_of_vacant {rt : Runtime} {trace : TrajectoryTrace}
    {db : Database} (h : Chained rt trace db) {k : ℕ}
    (hbehind : k ≤ trace.sequenceHead)
    (hvacant : Vacant trace.id ((k : ℤ) + 1) db) :
    trace.sequenceHead = k := by
  by_contra hne
  have hlt : k < trace.sequenceHead := by omega
  have hmem : (k : ℤ) + 1 ∈ numbers 1 trace.sequenceHead := by
    rw [mem_numbers]
    omega
  rw [← h.sequences, List.mem_map] at hmem
  obtain ⟨event, hevent, hsequence⟩ := hmem
  rw [mem_eventsOf] at hevent
  exact hvacant event hevent.1 hevent.2 hsequence

theorem AllChained.lookup {rt : Runtime} {db : Database}
    (h : AllChained rt db) {trace : TrajectoryTrace} {id : String}
    (hlookup : traceTable.lookup id db = some trace) :
    trace.id = id ∧ Chained rt trace db :=
  ⟨KeyedTable.key_of_lookup hlookup,
    h.chained trace (KeyedTable.mem_of_lookup hlookup)⟩

theorem AllChained.lookup_of_getTrace {rt : Runtime} {db : Database}
    (h : AllChained rt db) {companyId traceId : String}
    {trace : TrajectoryTrace}
    (hfound : getTrace companyId traceId db = some trace) :
    traceTable.lookup traceId db = some trace ∧
      trace.companyId = companyId := by
  have hmem := List.mem_of_find?_eq_some hfound
  have hkeys := List.find?_some hfound
  rw [decide_eq_true_eq] at hkeys
  have hlookup := KeyedTable.lookup_of_mem h.keys hmem
  rw [hkeys.1] at hlookup
  exact ⟨hlookup, hkeys.2⟩

theorem AllChained.getTrace_of_lookup {rt : Runtime} {db : Database}
    (h : AllChained rt db) {traceId : String} {trace : TrajectoryTrace}
    (hlookup : traceTable.lookup traceId db = some trace) :
    getTrace trace.companyId traceId db = some trace := by
  have hmem := KeyedTable.mem_of_lookup hlookup
  have hid : trace.id = traceId := KeyedTable.key_of_lookup hlookup
  have hsome : (getTrace trace.companyId traceId db).isSome := by
    unfold getTrace Table.find
    rw [List.find?_isSome]
    exact ⟨trace, hmem, decide_eq_true ⟨hid, rfl⟩⟩
  obtain ⟨found, hfound⟩ := Option.isSome_iff_exists.mp hsome
  have hsame := (h.lookup_of_getTrace hfound).1
  rw [hlookup, Option.some.injEq] at hsame
  rw [hfound, hsame]

theorem allChained_of_no_traces {rt : Runtime} {db : Database}
    (htraces : db.trajectoryTraces = []) (hevents : db.trajectoryEvents = []) :
    AllChained rt db := by
  constructor
  · rw [htraces]
    exact List.nodup_nil
  · rw [hevents]
    exact fun event hmem => absurd hmem List.not_mem_nil
  · rw [htraces]
    exact fun trace hmem => absurd hmem List.not_mem_nil

/-- A trace starts with no events, at the genesis hash. -/
theorem AllChained.created {rt : Runtime} {db : Database}
    (h : AllChained rt db) {input : CreateTraceInput} {uuid : String}
    (hfresh : traceTable.lookup uuid db = none) :
    AllChained rt (traceTable.insert (newTrace input uuid) db) := by
  have hkept : ∀ id, traceTable.lookup id db ≠ none →
      traceTable.lookup id (traceTable.insert (newTrace input uuid) db) ≠
        none := by
    intro id hfound
    change KeyedTable.lookup TrajectoryTrace.id id
      (db.trajectoryTraces ++ [newTrace input uuid]) ≠ none
    obtain ⟨row, hrow⟩ := Option.ne_none_iff_exists'.mp hfound
    unfold KeyedTable.lookup
    rw [List.find?_append]
    change KeyedTable.lookup TrajectoryTrace.id id db.trajectoryTraces = _
      at hrow
    unfold KeyedTable.lookup at hrow
    rw [hrow]
    simp
  constructor
  · exact h.keys.append_singleton hfresh
  · exact fun event hmem => hkept _ (h.owned event hmem)
  · intro trace hmem
    rcases List.mem_append.mp hmem with hold | hnew
    · exact (h.chained trace hold).of_same ⟨rfl, rfl, rfl, rfl⟩ rfl
    · rw [List.mem_singleton.mp hnew]
      have hnone : eventsOf uuid db = [] := by
        rw [List.eq_nil_iff_forall_not_mem]
        intro event hevent
        rw [mem_eventsOf] at hevent
        refine h.owned event hevent.1 ?_
        rw [hevent.2]
        exact hfresh
      have hnone' : eventsOf (newTrace input uuid).id
          (traceTable.insert (newTrace input uuid) db) = [] := hnone
      constructor
      · rw [hnone']
        exact fun event hevent => absurd hevent List.not_mem_nil
      · rw [hnone']
        rfl
      · rw [hnone']
        trivial
      · rw [hnone']
        rfl

theorem keeps_createTrace {rt : Runtime} (input : CreateTraceInput)
    (uuid : String) : Fallible.Keeps (AllChained rt) (createTrace input uuid) := by
  refine Fallible.Keeps.bind (Fallible.keeps_query _) (fun agent => ?_)
  cases agent with
  | none => exact Fallible.keeps_fail _
  | some agent =>
      exact Table.keeps_create (fun db hdb hnew => hdb.created hnew.1)

end Trajectory
end Orvex
