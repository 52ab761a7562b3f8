import Orvex.Concurrency.Guarantees
import Orvex.Core.Pinned
import Orvex.Trajectory.Chain

/-!
# Concurrent appends

Two appenders may read the same head.  Only one of them can insert the event
behind it, because the place of an event is unique: the other waits, and then
finds the place taken.  A head is therefore only moved by the call whose
event stands directly behind it.
-/

namespace Orvex
namespace Trajectory

open ReadCommitted

inductive TraceCall where
  | append (input : AppendEventInput) (uuid : String)
  | complete (companyId traceId : String) (now : ℤ)

def TraceCall.script (rt : Runtime) : TraceCall → TraceScript
  | .append input uuid => appendEvent rt input uuid
  | .complete companyId traceId now => completeTrace companyId traceId now

/-! ## What an append has read -/

/-- What an append computed from the trace it read. -/
structure Admits (rt : Runtime) (input : AppendEventInput)
    (admitted : Admitted) : Prop where
  trace_id : admitted.trace.id = input.traceId
  sequence : input.sequence = (admitted.trace.sequenceHead : ℚ) + 1
  agent : input.agentId = admitted.trace.agentId
  timestamp : ∃ instant, rt.parseDate input.timestamp = some instant ∧
    admitted.timestamp = rt.toISOString instant
  hash : admitted.hash = computeEventHash rt input.traceId input.sequence
    input.eventType admitted.timestamp input.payload input.provenanceRefs
    admitted.headHash

/-- The head that the append read is the head of the trace, or behind it. -/
def Behind (input : AppendEventInput) (admitted : Admitted)
    (db : Database) : Prop :=
  ∃ trace, traceTable.lookup input.traceId db = some trace ∧
    trace.companyId = input.companyId ∧
    admitted.trace.sequenceHead ≤ trace.sequenceHead ∧
    (trace.sequenceHead = admitted.trace.sequenceHead →
      trace.headHash = some admitted.headHash)

theorem admit_eq_ok {rt : Runtime} {input : AppendEventInput}
    {db : Database} {admitted : Admitted}
    (h : admission rt input db = .ok admitted) :
    getTrace input.companyId input.traceId db = some admitted.trace ∧
      admitted.headHash = admitted.trace.headHash.getD genesisHash ∧
      (input.previousEventHash.isSome →
        input.previousEventHash = some admitted.headHash) ∧
      (input.eventHash.isSome → input.eventHash = some admitted.hash) ∧
      Admits rt input admitted := by
  unfold admission at h
  cases hfound : getTrace input.companyId input.traceId db with
  | none => simp [hfound] at h
  | some trace =>
      simp only [hfound] at h
      split at h
      next => simp at h
      next hagent =>
      split at h
      next => simp at h
      next hactive =>
      split at h
      next => simp at h
      next hsequence =>
      split at h
      next => simp at h
      next hprevious =>
      cases hdate : rt.parseDate input.timestamp with
      | none => simp [hdate] at h
      | some instant =>
          simp only [hdate] at h
          split at h
          next => simp at h
          next hhash =>
            rw [Except.ok.injEq] at h
            subst h
            have hkeys := List.find?_some hfound
            rw [decide_eq_true_eq] at hkeys
            refine ⟨rfl, rfl, ?_, ?_, ?_⟩
            · intro hsome
              by_contra hne
              exact hprevious ⟨hsome, hne⟩
            · intro hsome
              by_contra hne
              exact hhash ⟨hsome, hne⟩
            · exact ⟨hkeys.1, not_not.mp hsequence, not_not.mp hagent,
                ⟨instant, hdate, rfl⟩, rfl⟩

/-- An event that continues an active trace is admitted. -/
theorem admit_of_continues {rt : Runtime} {input : AppendEventInput}
    {db : Database} {trace : TrajectoryTrace} {instant : ℤ}
    (hfound : getTrace input.companyId input.traceId db = some trace)
    (hagent : input.agentId = trace.agentId) (hactive : trace.status = .active)
    (hsequence : input.sequence = (trace.sequenceHead : ℚ) + 1)
    (hprevious : input.previousEventHash = none ∨
      input.previousEventHash = some (trace.headHash.getD genesisHash))
    (hdate : rt.parseDate input.timestamp = some instant)
    (hhash : input.eventHash = none ∨
      input.eventHash = some (computeEventHash rt input.traceId
        input.sequence input.eventType (rt.toISOString instant)
        input.payload input.provenanceRefs
        (trace.headHash.getD genesisHash))) :
    ∃ admitted, admission rt input db = .ok admitted := by
  have hlinked : ¬ (input.previousEventHash.isSome ∧
      input.previousEventHash ≠ some (trace.headHash.getD genesisHash)) := by
    rintro ⟨hsome, hne⟩
    rcases hprevious with hnone | hsame
    · rw [hnone] at hsome
      exact absurd hsome (by simp)
    · exact hne hsame
  unfold admission
  simp only [hfound]
  rw [if_neg (not_not.mpr hagent), if_neg (not_not.mpr hactive),
    if_neg (not_not.mpr hsequence), if_neg hlinked]
  simp only [hdate]
  split
  next hforged =>
    obtain ⟨hsome, hne⟩ := hforged
    rcases hhash with hnone | hsame
    · rw [hnone] at hsome
      exact absurd hsome (by simp)
    · exact absurd hsame hne
  next => exact ⟨_, rfl⟩

theorem behind_of_admit {rt : Runtime} {input : AppendEventInput}
    {db : Database} {admitted : Admitted} (hdb : AllChained rt db)
    (h : admission rt input db = .ok admitted) : Behind input admitted db := by
  obtain ⟨hfound, hhead, _⟩ := admit_eq_ok h
  obtain ⟨hlookup, hcompany⟩ := hdb.lookup_of_getTrace hfound
  obtain ⟨_, hchained⟩ := hdb.lookup hlookup
  refine ⟨admitted.trace, hlookup, hcompany, le_rfl, fun _ => ?_⟩
  rw [hhead, hchained.head, Option.getD_some]

/-! ## What an append publishes -/

/-- The event of an append that may be published. -/
structure Ready (rt : Runtime) (input : AppendEventInput)
    (admitted : Admitted) (event : TrajectoryEvent) (db : Database) :
    Prop where
  admits : Admits rt input admitted
  behind : Behind input admitted db
  event_eq : ∃ instant uuid, rt.parseDate admitted.timestamp = some instant ∧
    event = newEvent input admitted instant uuid
  vacant : Vacant input.traceId ((admitted.trace.sequenceHead : ℤ) + 1) db

def appended (admitted : Admitted) (event : TrajectoryEvent)
    (db : Database) : Database :=
  traceTable.modify admitted.trace.id (advance admitted)
    (trajectoryEventTable.insert event db)

section

variable {rt : Runtime} {input : AppendEventInput} {admitted : Admitted}
  {event : TrajectoryEvent} {db : Database}

theorem keepsKey_complete (now : ℤ) :
    KeyedTable.KeepsKey TrajectoryTrace.id (complete now) := fun _ => rfl

theorem keepsKey_advance (admitted : Admitted) :
    KeyedTable.KeepsKey TrajectoryTrace.id (advance admitted) := fun _ => rfl

theorem lookup_modify_trace {change : TrajectoryTrace → TrajectoryTrace}
    (hkeep : KeyedTable.KeepsKey TrajectoryTrace.id change)
    (id other : String) (db : Database) :
    traceTable.lookup other (traceTable.modify id change db) =
      if other = id then (traceTable.lookup id db).map change
      else traceTable.lookup other db := by
  change KeyedTable.lookup TrajectoryTrace.id other
    (KeyedTable.modify TrajectoryTrace.id id change db.trajectoryTraces) = _
  rw [KeyedTable.lookup_modify hkeep]
  rfl

/-- The trace that a ready event continues. -/
theorem Ready.trace (h : Ready rt input admitted event db)
    (hdb : AllChained rt db) :
    ∃ trace, traceTable.lookup input.traceId db = some trace ∧
      trace.id = input.traceId ∧ trace.companyId = input.companyId ∧
      trace.sequenceHead = admitted.trace.sequenceHead ∧
      trace.headHash = some admitted.headHash ∧ Chained rt trace db := by
  obtain ⟨trace, hlookup, hcompany, hbehind, hhead⟩ := h.behind
  obtain ⟨hid, hchained⟩ := hdb.lookup hlookup
  have hsame : trace.sequenceHead = admitted.trace.sequenceHead := by
    apply hchained.head_of_vacant hbehind
    rw [hid]
    exact h.vacant
  exact ⟨trace, hlookup, hid, hcompany, hsame, hhead hsame, hchained⟩

theorem Ready.valid (hdates : rt.DatesReadBack)
    (h : Ready rt input admitted event db) :
    (chain rt input.traceId).Valid event := by
  obtain ⟨instant, uuid, hparse, rfl⟩ := h.event_eq
  obtain ⟨written, hwritten, htext⟩ := h.admits.timestamp
  have hinstant : instant = written := by
    have hback := hdates _ _ hwritten
    rw [← htext, hparse, Option.some.injEq] at hback
    exact hback
  subst hinstant
  change admitted.hash = computeEventHash rt input.traceId
    (((admitted.trace.sequenceHead : ℤ) + 1 : ℤ) : ℚ) input.eventType
    (rt.toISOString instant) input.payload input.provenanceRefs
    admitted.headHash
  rw [h.admits.hash, h.admits.sequence, htext]
  push_cast
  rfl

theorem eventsOf_insert (traceId : String) (event : TrajectoryEvent)
    (db : Database) :
    eventsOf traceId (trajectoryEventTable.insert event db) =
      if event.traceId = traceId then eventsOf traceId db ++ [event]
      else eventsOf traceId db := by
  unfold eventsOf
  change (db.trajectoryEvents ++ [event]).filter _ = _
  rw [List.filter_append]
  by_cases htrace : event.traceId = traceId <;> simp [htrace]

theorem vacant_of_allowed {event : TrajectoryEvent} {traceId : String}
    {sequence : ℤ} (htrace : event.traceId = traceId)
    (hsequence : event.sequence = sequence)
    (h : eventAllowed event db = true) : Vacant traceId sequence db := by
  unfold eventAllowed at h
  rw [Bool.and_eq_true, List.all_eq_true] at h
  intro other hmem hother hsame
  have hplace := h.2 other hmem
  simp [hother, hsame, htrace, hsequence] at hplace

theorem AllChained.completes (hdb : AllChained rt db) (id : String)
    (now : ℤ) : AllChained rt (traceTable.modify id (complete now) db) := by
  constructor
  · exact hdb.keys.modify (keepsKey_complete now) id
  · intro event hmem
    rw [lookup_modify_trace (keepsKey_complete now)]
    have howned := hdb.owned event hmem
    split
    next heq =>
      rw [heq] at howned
      simpa using howned
    next => exact howned
  · intro trace hmem
    obtain ⟨old, hold, heq⟩ := List.mem_map.mp hmem
    have hchained := hdb.chained old hold
    rw [← heq]
    split
    · exact hchained.of_same ⟨rfl, rfl, rfl, rfl⟩ rfl
    · exact hchained.of_same ⟨rfl, rfl, rfl, rfl⟩ rfl

theorem AllChained.appends (hdates : rt.DatesReadBack)
    (hdb : AllChained rt db) (h : Ready rt input admitted event db) :
    AllChained rt (appended admitted event db) := by
  obtain ⟨current, hlookup, hid, hcompany, hsequence, hhead, _⟩ :=
    h.trace hdb
  obtain ⟨instant, uuid, _, hevent⟩ := h.event_eq
  have htrace : event.traceId = input.traceId := by rw [hevent]; rfl
  have hkeep := keepsKey_advance admitted
  constructor
  · exact hdb.keys.modify hkeep admitted.trace.id
  · intro other hmem
    unfold appended
    rw [lookup_modify_trace hkeep]
    have howned : traceTable.lookup other.traceId db ≠ none := by
      rcases List.mem_append.mp hmem with hold | hnew
      · exact hdb.owned other hold
      · rw [List.mem_singleton.mp hnew, htrace, hlookup]
        simp
    split
    next heq =>
      rw [heq] at howned
      change (traceTable.lookup admitted.trace.id db).map _ ≠ none
      simpa using howned
    next => exact howned
  · intro trace hmem
    obtain ⟨old, hold, heq⟩ := List.mem_map.mp hmem
    have hchained := hdb.chained old hold
    have hevents : eventsOf old.id (appended admitted event db) =
        if input.traceId = old.id then eventsOf old.id db ++ [event]
        else eventsOf old.id db := by
      rw [← htrace]
      exact eventsOf_insert old.id event db
    rw [h.admits.trace_id] at heq
    by_cases hown : old.id = input.traceId
    · have hcurrent : current = old := by
        have hsame := KeyedTable.lookup_of_mem hdb.keys hold
        rw [hown] at hsame
        exact Option.some.inj (hlookup.symm.trans hsame)
      subst hcurrent
      have hkey : traceTable.key current = input.traceId := hown
      rw [if_pos hkey] at heq
      rw [← heq]
      rw [if_pos hown.symm] at hevents
      refine hchained.append hevents ⟨rfl, rfl, ?_, ?_⟩ ?_ ?_ ?_ ?_
      · change admitted.trace.sequenceHead + 1 = _
        rw [hsequence]
      · rw [hevent]
        rfl
      · rw [hcompany, hevent]
        rfl
      · rw [hevent, hsequence]
        rfl
      · rw [hhead, hevent]
        rfl
      · rw [hown]
        exact h.valid hdates
    · have hkey : ¬ traceTable.key old = input.traceId := hown
      rw [if_neg hkey] at heq
      rw [← heq]
      rw [if_neg (fun hsame => hown hsame.symm)] at hevents
      exact hchained.of_same ⟨rfl, rfl, rfl, rfl⟩ hevents

end

/-! ## What calls do to the tables -/

/-- How a trace moves on; its status stays unless calls complete traces. -/
structure Ahead (ends : Prop) (before after : TrajectoryTrace) : Prop where
  id : after.id = before.id
  companyId : after.companyId = before.companyId
  agentId : after.agentId = before.agentId
  sequenceHead : before.sequenceHead ≤ after.sequenceHead
  headHash : after.sequenceHead = before.sequenceHead →
    after.headHash = before.headHash
  status : ¬ ends → after.status = before.status

/-- How the tables move on while a session holds some rows.  Only events
that are `made` are added. -/
structure Moves (rt : Runtime) (made : TrajectoryEvent → Prop) (ends : Prop)
    (held : List RowKey) (db db' : Database) : Prop where
  chained : AllChained rt db'
  traces : ∀ id trace, traceTable.lookup id db = some trace →
    ∃ later, traceTable.lookup id db' = some later ∧ Ahead ends trace later
  events : ∃ added, db'.trajectoryEvents = db.trajectoryEvents ++ added ∧
    ∀ event ∈ added, made event
  vacant : ∀ traceId sequence, RowKey.place traceId sequence ∈ held →
    Vacant traceId sequence db → Vacant traceId sequence db'

section

variable {rt : Runtime} {made : TrajectoryEvent → Prop} {ends : Prop}
  {held : List RowKey}

theorem Ahead.refl (trace : TrajectoryTrace) : Ahead ends trace trace :=
  ⟨rfl, rfl, rfl, le_rfl, fun _ => rfl, fun _ => rfl⟩

theorem Ahead.trans {a b c : TrajectoryTrace} (hab : Ahead ends a b)
    (hbc : Ahead ends b c) : Ahead ends a c := by
  refine ⟨hbc.id.trans hab.id, hbc.companyId.trans hab.companyId,
    hbc.agentId.trans hab.agentId, hab.sequenceHead.trans hbc.sequenceHead,
    fun hsame => ?_, fun hends => (hbc.status hends).trans (hab.status hends)⟩
  have hbefore := hab.sequenceHead
  have hafter := hbc.sequenceHead
  rw [hbc.headHash (by omega), hab.headHash (by omega)]

theorem Moves.refl {db : Database} (hdb : AllChained rt db) :
    Moves rt made ends held db db := by
  refine ⟨hdb, fun id trace hlookup => ⟨trace, hlookup, .refl trace⟩,
    ⟨[], ?_, ?_⟩, fun _ _ _ hvacant => hvacant⟩
  · rw [List.append_nil]
  · exact fun event hmem => absurd hmem List.not_mem_nil

theorem Moves.trans {a b c : Database} (hab : Moves rt made ends held a b)
    (hbc : Moves rt made ends held b c) : Moves rt made ends held a c := by
  refine ⟨hbc.chained, ?_, ?_, fun traceId sequence hheld hvacant =>
    hbc.vacant _ _ hheld (hab.vacant _ _ hheld hvacant)⟩
  · intro id trace hlookup
    obtain ⟨middle, hmiddle, hfirst⟩ := hab.traces id trace hlookup
    obtain ⟨later, hlater, hsecond⟩ := hbc.traces id middle hmiddle
    exact ⟨later, hlater, hfirst.trans hsecond⟩
  · obtain ⟨first, hfirst, hmade⟩ := hab.events
    obtain ⟨second, hsecond, hmade'⟩ := hbc.events
    refine ⟨first ++ second, ?_, ?_⟩
    · rw [hsecond, hfirst, List.append_assoc]
    · intro event hmem
      rcases List.mem_append.mp hmem with hmem | hmem
      · exact hmade event hmem
      · exact hmade' event hmem

variable (rt made ends) in
def trajectoryRely : Rely Database RowKey where
  moves held db db' := AllChained rt db → Moves rt made ends held db db'
  refl _ _ := Moves.refl
  trans _ _ _ _ hab hbc hdb := (hab hdb).trans (hbc (hab hdb).chained)

theorem moves_completes {db : Database} (hends : ends)
    (hdb : AllChained rt db) (id : String) (now : ℤ) :
    Moves rt made ends held db (traceTable.modify id (complete now) db) := by
  refine ⟨hdb.completes id now, ?_, ⟨[], ?_, ?_⟩, fun _ _ _ hvacant =>
    hvacant⟩
  · intro other trace hlookup
    rw [lookup_modify_trace (keepsKey_complete now)]
    by_cases hother : other = id
    · rw [if_pos hother, ← hother, hlookup]
      exact ⟨complete now trace, rfl, rfl, rfl, rfl, le_rfl, fun _ => rfl,
        fun hnot => absurd hends hnot⟩
    · rw [if_neg hother]
      exact ⟨trace, hlookup, .refl trace⟩
  · exact (List.append_nil _).symm
  · exact fun event hmem => absurd hmem List.not_mem_nil

theorem moves_appends {input : AppendEventInput} {admitted : Admitted}
    {event : TrajectoryEvent} {db : Database}
    (hdates : rt.DatesReadBack) (hdb : AllChained rt db)
    (hready : Ready rt input admitted event db) (hmade : made event)
    (hapart : RowKey.place input.traceId
      ((admitted.trace.sequenceHead : ℤ) + 1) ∉ held) :
    Moves rt made ends held db (appended admitted event db) := by
  obtain ⟨current, hcurrent, _, _, hsequence, _⟩ := hready.trace hdb
  obtain ⟨instant, uuid, _, hevent⟩ := hready.event_eq
  refine ⟨hdb.appends hdates hready, ?_, ⟨[event], rfl, ?_⟩, ?_⟩
  · intro id trace hlookup
    unfold appended
    rw [lookup_modify_trace (keepsKey_advance admitted),
      hready.admits.trace_id]
    by_cases hid : id = input.traceId
    · rw [if_pos hid]
      have hsame : current = trace := by
        rw [hid, hcurrent] at hlookup
        exact Option.some.inj hlookup
      subst hsame
      refine ⟨advance admitted current, ?_, rfl, rfl, rfl, ?_, ?_,
        fun _ => rfl⟩
      · change (traceTable.lookup input.traceId db).map _ = _
        rw [hcurrent, Option.map_some]
      · change current.sequenceHead ≤ admitted.trace.sequenceHead + 1
        omega
      · intro hsame
        have hnext : admitted.trace.sequenceHead + 1 =
            current.sequenceHead := hsame
        omega
    · rw [if_neg hid]
      exact ⟨trace, hlookup, .refl trace⟩
  · intro other hmem
    rw [List.mem_singleton.mp hmem]
    exact hmade
  · intro traceId sequence hheld hvacant other hmem htrace
    rcases List.mem_append.mp hmem with hold | hnew
    · exact hvacant other hold htrace
    · intro hplace
      have hother : other = newEvent input admitted instant uuid := by
        rw [List.mem_singleton.mp hnew, hevent]
      rw [hother] at htrace hplace
      have hkey : RowKey.place traceId sequence =
          .place input.traceId
            ((admitted.trace.sequenceHead : ℤ) + 1) := by
        rw [RowKey.place.injEq]
        exact ⟨htrace.symm, hplace.symm⟩
      exact hapart (hkey ▸ hheld)

/-! ## What the moves leave of an append's view -/

/-- A head stays at or ahead of what an append has read of it. -/
theorem Behind.moved {input : AppendEventInput} {admitted : Admitted}
    {db db' : Database} (h : Behind input admitted db)
    (hmoves : Moves rt made ends held db db') : Behind input admitted db' := by
  obtain ⟨trace, hlookup, hcompany, hbehind, hhead⟩ := h
  obtain ⟨later, hlater, hahead⟩ := hmoves.traces _ _ hlookup
  have hmoved := hahead.sequenceHead
  refine ⟨later, hlater, hahead.companyId.trans hcompany, by omega, ?_⟩
  intro hsame
  rw [hahead.headHash (by omega)]
  exact hhead (by omega)

/-- An event whose place is held stays ready. -/
theorem Ready.moved {input : AppendEventInput} {admitted : Admitted}
    {event : TrajectoryEvent} {db db' : Database}
    (h : Ready rt input admitted event db)
    (hmoves : Moves rt made ends held db db')
    (hheld : RowKey.place input.traceId
      ((admitted.trace.sequenceHead : ℤ) + 1) ∈ held) :
    Ready rt input admitted event db' :=
  ⟨h.admits, h.behind.moved hmoves, h.event_eq,
    hmoves.vacant _ _ hheld h.vacant⟩

/-! ## The calls -/

/-- The trace has come to the sequence of the append. -/
def Reached (input : AppendEventInput) (db : Database) : Prop :=
  ∃ trace, traceTable.lookup input.traceId db = some trace ∧
    input.sequence ≤ (trace.sequenceHead : ℚ)

theorem Reached.moved {input : AppendEventInput} {db db' : Database}
    (h : Reached input db) (hmoves : Moves rt made ends held db db') :
    Reached input db' := by
  obtain ⟨trace, hlookup, hreached⟩ := h
  obtain ⟨later, hlater, hahead⟩ := hmoves.traces _ _ hlookup
  refine ⟨later, hlater, hreached.trans ?_⟩
  exact_mod_cast hahead.sequenceHead

/-- What `post` has to allow an append to return, in tables that have moved
on from the start. -/
structure Allows (rt : Runtime) (made : TrajectoryEvent → Prop)
    (ends : Prop) (start : Database) (ok : Database → Prop)
    (input : AppendEventInput) (uuid : String)
    (post : Answer → Database → Prop) : Prop where
  adds : ∀ admitted instant, Admits rt input admitted →
    rt.parseDate admitted.timestamp = some instant →
      made (newEvent input admitted instant uuid)
  stays : ∀ answer held db db', Moves rt made ends held db db' →
    post answer db → post answer db'
  refused : ∀ db failure, Moves rt made ends [] start db → ok db →
    admission rt input db = .error failure → post (.event (.error failure)) db
  duplicate : ∀ db admitted event, Moves rt made ends [] start db → ok db →
    Admits rt input admitted → findEvent admitted.hash db = some event →
      post (.event (.ok event)) db
  violated : ∀ db admitted, Moves rt made ends [] start db → ok db →
    Admits rt input admitted →
      planEvent rt input admitted uuid db = none →
        post (.event (.error .constraint)) db
  stored : ∀ db event, Reached input db → post (.event (.ok event)) db

theorem Moves.released {db db' : Database}
    (h : Moves rt made ends held db db') : Moves rt made ends [] db db' :=
  ⟨h.chained, h.traces, h.events,
    fun _ _ hmem => absurd hmem List.not_mem_nil⟩

variable {start : Database} {ok : Database → Prop} {input : AppendEventInput}
  {uuid : String} {post : Answer → Database → Prop}

theorem refuse_guaranteed
    (hallows : Allows rt made ends start ok input uuid post)
    {failure : Failure} {pending : List (Write Database RowKey)}
    {db : Database} (hdb : AllChained rt db)
    (hpost : post (.event (.error failure)) db) :
    (refuse failure).Guaranteed (trajectoryRely rt made ends) ok post pending
      held db := by
  intro db' hmoved _ later hlater
  have hmoves := hmoved hdb
  exact hallows.stays _ _ _ _ (hlater hmoves.chained)
    (hallows.stays _ _ _ _ hmoves hpost)

/-- The event has its place: the head moves on and the call commits. -/
theorem advanceHead_guaranteed (hdates : rt.DatesReadBack)
    (hallows : Allows rt made ends start ok input uuid post)
    {admitted : Admitted} {event : TrajectoryEvent} {db : Database}
    (hdb : AllChained rt db) (hready : Ready rt input admitted event db)
    (hmade : made event)
    (hheld : RowKey.place input.traceId
      ((admitted.trace.sequenceHead : ℤ) + 1) ∈ held) :
    (advanceHead admitted event).Guaranteed (trajectoryRely rt made ends) ok
      post [insertEvent event] held db := by
  intro db hmoved _
  have hmoves := hmoved hdb
  have hdb := hmoves.chained
  have hready := hready.moved hmoves hheld
  refine ⟨fun own hplan => ?_, fun hplan => ?_⟩
  · obtain ⟨row, _, rfl⟩ := Option.map_eq_some_iff.mp hplan
    intro db hmoved _
    have hmoves := hmoved hdb
    have hdb := hmoves.chained
    have hready := hready.moved hmoves (List.mem_append_right _ hheld)
    refine ⟨fun others hapart _ => moves_appends hdates hdb hready hmade
      (fun hmem => hapart _ hmem (List.mem_append_right _ hheld)), ?_⟩
    have hafter := hdb.appends hdates hready
    obtain ⟨current, hcurrent, _⟩ := hready.trace hdb
    have hreached : Reached input (appended admitted event db) := by
      refine ⟨advance admitted current, ?_, ?_⟩
      · unfold appended
        rw [lookup_modify_trace (keepsKey_advance admitted),
          hready.admits.trace_id, if_pos rfl]
        change (traceTable.lookup input.traceId db).map _ = _
        rw [hcurrent, Option.map_some]
      · rw [hready.admits.sequence]
        change (admitted.trace.sequenceHead : ℚ) + 1 ≤
          ((admitted.trace.sequenceHead + 1 : ℕ) : ℚ)
        push_cast
        exact le_rfl
    exact fun later hlater => hallows.stays _ _ _ _ (hlater hafter)
      (hallows.stored _ _ hreached)
  · obtain ⟨current, hcurrent, _⟩ := hready.trace hdb
    have hlookup : traceTable.lookup admitted.trace.id
        (overlay [insertEvent event] db) = some current := by
      rw [hready.admits.trace_id]
      exact hcurrent
    unfold planTrace at hplan
    rw [hlookup] at hplan
    exact absurd hplan (by simp)

theorem appendEvent_guaranteed (hdates : rt.DatesReadBack)
    (hallows : Allows rt made ends start ok input uuid post)
    (hstart : AllChained rt start) :
    (appendEvent rt input uuid).Guaranteed (trajectoryRely rt made ends) ok
      post [] [] start := by
  -- the trace
  intro db hmoved hok
  have hsince := hmoved hstart
  simp only [overlay_nil]
  cases hadmit : admission rt input db with
  | error failure =>
      exact refuse_guaranteed hallows hsince.chained
        (hallows.refused _ _ hsince hok hadmit)
  | ok admitted =>
      have hadmits := (admit_eq_ok hadmit).2.2.2.2
      have hbehind := behind_of_admit hsince.chained hadmit
      -- the duplicate
      intro db hmoved hok
      have hmoves := hmoved hsince.chained
      have hsince := hsince.trans hmoves
      have hbehind := hbehind.moved hmoves
      simp only [overlay_nil]
      split
      next event hfound =>
        have hpost := hallows.duplicate _ _ _ hsince hok hadmits hfound
        intro db hmoved _
        have hmoves := hmoved hsince.chained
        refine ⟨fun _ _ => (trajectoryRely rt made ends).refl _ _,
          fun later hlater => ?_⟩
        exact hallows.stays _ _ _ _ (hlater hmoves.chained)
          (hallows.stays _ _ _ _ hmoves hpost)
      next =>
      -- the insertion
      intro db hmoved hok
      have hmoves := hmoved hsince.chained
      have hsince := hsince.trans hmoves
      have hbehind := hbehind.moved hmoves
      simp only [overlay_nil]
      refine ⟨fun own hplan => ?_, fun hplan =>
        refuse_guaranteed hallows hsince.chained
          (hallows.violated _ _ hsince hok hadmits hplan)⟩
      obtain ⟨instant, hinstant, hrow⟩ := Option.bind_eq_some_iff.mp hplan
      have hevent : insertedEvent rt input admitted uuid =
          newEvent input admitted instant uuid := by
        unfold insertedEvent
        rw [hinstant, Option.getD_some]
      simp only at hrow
      split at hrow
      next hallowed =>
        obtain rfl := Option.some.inj hrow
        rw [hevent]
        refine advanceHead_guaranteed hdates hallows hsince.chained
          ⟨hadmits, hbehind, ⟨instant, uuid, hinstant, rfl⟩,
            vacant_of_allowed rfl rfl hallowed⟩
          (hallows.adds _ _ hadmits hinstant) ?_
        exact List.mem_append_left _ (by simp [insertEvent, newEvent])
      next => exact absurd hrow (by simp)

theorem completeTrace_guaranteed (hends : ends) (companyId traceId : String)
    (now : ℤ) {db : Database} (hdb : AllChained rt db) :
    (completeTrace companyId traceId now).Guaranteed
      (trajectoryRely rt made ends) (fun _ => True) (fun _ _ => True) []
      [] db := by
  intro db hmoved _
  have hdb := (hmoved hdb).chained
  simp only [overlay_nil]
  split
  next => exact fun _ _ => trivial
  next trace _ =>
    intro db hmoved _
    have hdb := (hmoved hdb).chained
    refine ⟨fun own hplan => ?_, fun _ _ _ _ _ _ => trivial⟩
    obtain ⟨row, _, rfl⟩ := Option.map_eq_some_iff.mp hplan
    intro db hmoved _
    have hdb := (hmoved hdb).chained
    exact ⟨fun others _ hdb => moves_completes hends hdb trace.id now,
      fun _ _ => trivial⟩

theorem call_guaranteed (hdates : rt.DatesReadBack) (call : TraceCall)
    {db : Database} (hdb : AllChained rt db) :
    (call.script rt).Guaranteed (trajectoryRely rt (fun _ => True) True)
      (fun _ => True) (fun _ _ => True) [] [] db := by
  cases call with
  | append input uuid =>
      refine appendEvent_guaranteed hdates ?_ hdb
      constructor <;> intros <;> trivial
  | complete companyId traceId now =>
      exact completeTrace_guaranteed trivial companyId traceId now hdb

end

/-! ## Every run -/

abbrev TraceMachine (ι : Type) := Machine ι Database RowKey TraceScript

theorem allChained_of_run {ι : Type} [Fintype ι] [DecidableEq ι]
    {rt : Runtime} {calls : ι → TraceCall} (hdates : rt.DatesReadBack)
    {db : Database} (hdb : AllChained rt db) {schedule : List (Event ι)}
    {final : TraceMachine ι}
    (hrun : (Machine.starting db (fun i => (calls i).script rt)).run
      (Script.program Answer.lost) schedule = some final) :
    AllChained rt final.committed := by
  obtain ⟨_, hmoves⟩ := Machine.guaranteed_run
    (Machine.guarding_starting
      (fun i => call_guaranteed hdates (calls i) hdb))
    (Machine.respects_true _ _) hrun
  exact (hmoves hdb).chained

section

variable {ι : Type} [DecidableEq ι] {rt : Runtime} {calls : ι → TraceCall}

/-- The events of the trace carry the sequences 1 to n, link back to the
genesis hash, and end with what the trace holds. -/
structure Intact (rt : Runtime) (trace : TrajectoryTrace) (db : Database) :
    Prop where
  sequences : (getEvents trace.companyId trace.id db).map
      TrajectoryEvent.sequence =
    (List.range trace.sequenceHead).map (fun k : ℕ => (k : ℤ) + 1)
  links : (getEvents trace.companyId trace.id db).map
      TrajectoryEvent.previousEventHash =
    (genesisHash :: (getEvents trace.companyId trace.id db).map
      TrajectoryEvent.eventHash).take trace.sequenceHead
  head : trace.headHash = some (((getEvents trace.companyId trace.id
    db).map TrajectoryEvent.eventHash).getLastD genesisHash)
  verified : verifyChain rt trace.companyId trace.id db = true

omit [DecidableEq ι] in
theorem Chained.intact {trace : TrajectoryTrace} {db : Database}
    (h : Chained rt trace db) : Intact rt trace db := by
  constructor
  · rw [h.getEvents_eq, h.sequences]
    unfold numbers
    apply List.map_congr_left
    intro k _
    exact add_comm _ _
  · rw [h.getEvents_eq, ← h.length]
    exact h.linked.previous_eq
  · rw [h.getEvents_eq, h.head, HashChain.head_eq_getLastD]
    rfl
  · exact h.verified

/-- Whatever appends and completions run at once, in every state of every
schedule every trace is intact. -/
theorem always_intact [Fintype ι] (hdates : rt.DatesReadBack)
    {db : Database} (hdb : AllChained rt db) {schedule : List (Event ι)}
    {final : TraceMachine ι}
    (hrun : (Machine.starting db (fun i => (calls i).script rt)).run
      (Script.program Answer.lost) schedule = some final)
    {trace : TrajectoryTrace}
    (htrace : trace ∈ final.committed.trajectoryTraces) :
    Intact rt trace final.committed :=
  ((allChained_of_run hdates hdb hrun).chained trace htrace).intact

end

/-! ## Two appends at one head -/

def sampleTrace : TrajectoryTrace :=
  newTrace ⟨"acme", "agent-1", none⟩ "trace-1"

def sampleTables : Database :=
  { Database.empty with
    companies := ["acme"]
    trajectoryTraces := [sampleTrace] }

def sampleEvent (eventType : String) : AppendEventInput where
  companyId := "acme"
  traceId := "trace-1"
  agentId := "agent-1"
  sequence := 1
  eventType := eventType
  timestamp := "2026-03-01T12:00:00.000Z"
  payload := .object [("tool", .string "search")]
  sourceRef := some "run-7"
  trustContext := none
  provenanceRefs := some ["doc-1"]
  eventHash := none
  previousEventHash := none

def sampleInstant : ℤ := 1772366400000

def sampleRace : Bool → TraceCall
  | false => .append (sampleEvent "tool_call") "event-1"
  | true => .append (sampleEvent "observation") "event-2"

/-- Both appends read the head before either has inserted its event. -/
def sampleSchedule : List (Event Bool) :=
  [.run false, .run true, .run false, .run true, .run false, .run false,
    .run false, .run true, .run true]

theorem sampleTables_chained (rt : Runtime) : AllChained rt sampleTables := by
  have hempty : AllChained rt { Database.empty with companies := ["acme"] } :=
    allChained_of_no_traces rfl rfl
  exact hempty.created rfl

theorem sample_intact :
    ∃ final trace, (Machine.starting sampleTables (fun i =>
        (sampleRace i).script (Runtime.reference.onDates [sampleInstant]))).run
          (Script.program Answer.lost) sampleSchedule = some final ∧
      trace ∈ final.committed.trajectoryTraces ∧ trace.sequenceHead = 1 ∧
      Intact (Runtime.reference.onDates [sampleInstant]) trace
        final.committed := by
  have hheads : ((Machine.starting sampleTables (fun i =>
      (sampleRace i).script (Runtime.reference.onDates [sampleInstant]))).run
        (Script.program Answer.lost) sampleSchedule).map (fun final =>
          final.committed.trajectoryTraces.map
            TrajectoryTrace.sequenceHead) = some [1] := by
    decide +kernel
  obtain ⟨final, hrun, hfinal⟩ := Option.map_eq_some_iff.mp hheads
  have hhead : 1 ∈ final.committed.trajectoryTraces.map
      TrajectoryTrace.sequenceHead := by
    rw [hfinal]
    exact List.mem_singleton_self 1
  obtain ⟨trace, htrace, hsequence⟩ := List.mem_map.mp hhead
  exact ⟨final, trace, hrun, htrace, hsequence,
    always_intact (Runtime.reference.onDates_readBack _)
      (sampleTables_chained _) hrun htrace⟩

end Trajectory
end Orvex
