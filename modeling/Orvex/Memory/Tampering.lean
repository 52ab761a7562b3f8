import Orvex.Core.Hash
import Orvex.Core.Pinned
import Orvex.Foundation.HashChain
import Orvex.Foundation.Quoting
import Orvex.Memory.SessionState
import Mathlib.Logic.Equiv.List

/-!
# Altered sessions

The hash of an event covers its trace, its place, its type, its action and the
hash before it, joined by bars.  What else the event says, and where the list
ends, no hash covers, and nothing outside the list fixes its last hash.
-/

namespace Orvex
namespace SessionState

/-- What the Python standard library is relied on for: digests do not collide
and are hexadecimal, and a JSON text closes its string literals, with bars and
backslashes only in them. -/
structure Library.Documented (lib : Library) : Prop where
  collisionFree : Function.Injective lib.sha256
  hexadecimal : ∀ text, '|' ∉ (lib.sha256 text).toList
  literals : ∀ value, Quoting.Quoted '|' (lib.dumps value).toList

variable {lib : Library} {context : ExecutionContext}

/-! ## The chain of a buffer -/

theorem verifyFrom_cons {previous : String} {place : ℕ}
    {event : TrajectoryEvent} {rest : List TrajectoryEvent} :
    verifyFrom lib previous place (event :: rest) = true ↔
      event.previousEventHash = previous ∧
        event.eventHash = eventHashOf lib event.traceId place
          event.eventType event.action previous ∧
        verifyFrom lib event.eventHash (place + 1) rest = true := by
  rw [verifyFrom]
  by_cases hprevious : event.previousEventHash = previous
  · by_cases hhash : event.eventHash = eventHashOf lib event.traceId place
        event.eventType event.action previous
    · rw [if_neg (not_not.mpr hprevious), if_neg (not_not.mpr hhash)]
      exact ⟨fun h => ⟨hprevious, hhash, h⟩, fun h => h.2.2⟩
    · rw [if_neg (not_not.mpr hprevious), if_pos hhash]
      exact ⟨fun h => absurd h (by decide), fun h => absurd h.2.1 hhash⟩
  · rw [if_pos hprevious]
    exact ⟨fun h => absurd h (by decide), fun h => absurd h.1 hprevious⟩

theorem lastHash_eq_getLastD {events : List TrajectoryEvent} :
    lastHash events =
      (events.map TrajectoryEvent.eventHash).getLastD genesisHash := by
  unfold lastHash
  rw [List.getLastD_eq_getLast?, List.getLast?_map]

/-- A list that continues the chain of another. -/
theorem verifyFrom_append {previous : String} {place : ℕ}
    {events more : List TrajectoryEvent} :
    verifyFrom lib previous place (events ++ more) = true ↔
      verifyFrom lib previous place events = true ∧
        verifyFrom lib
          ((events.map TrajectoryEvent.eventHash).getLastD previous)
          (place + events.length) more = true := by
  induction events generalizing previous place with
  | nil => simp [verifyFrom]
  | cons event rest ih =>
      have hplace : place + (event :: rest).length =
          place + 1 + rest.length := by
        rw [List.length_cons]
        omega
      rw [List.cons_append, verifyFrom_cons, verifyFrom_cons, ih,
        List.map_cons, List.getLastD_cons, hplace, and_assoc, and_assoc]

/-- Appending keeps the chain verified. -/
theorem verifyChain_append {events : List TrajectoryEvent}
    (h : verifyChain lib events = true) (call : AppendCall) :
    verifyChain lib (append lib context events call) = true := by
  unfold append verifyChain
  rw [verifyFrom_append, Nat.zero_add]
  refine ⟨h, ?_⟩
  rw [verifyFrom_cons, ← lastHash_eq_getLastD]
  exact ⟨rfl, rfl, rfl⟩

theorem verifyChain_buffer (calls : List AppendCall) :
    verifyChain lib (buffer lib context calls) = true := by
  have hfold : ∀ events, verifyChain lib events = true →
      verifyChain lib (calls.foldl (append lib context) events) = true := by
    induction calls with
    | nil => exact fun _ h => h
    | cons call rest ih =>
        exact fun events h => ih _ (verifyChain_append h call)
  exact hfold [] rfl

/-- The events with their places. -/
def chain (lib : Library) : HashChain (TrajectoryEvent × ℕ) String where
  previous := fun entry => entry.1.previousEventHash
  hash := fun entry => entry.1.eventHash
  Valid := fun entry =>
    entry.1.eventHash = eventHashOf lib entry.1.traceId entry.2
      entry.1.eventType entry.1.action entry.1.previousEventHash ∧
    '|' ∉ entry.1.previousEventHash.toList

theorem bar_not_mem_hash (hlib : lib.Documented) (parts : List String) :
    '|' ∉ (hash lib parts).toList := by
  unfold hash
  rw [String.toList_append, List.mem_append, not_or]
  exact ⟨by decide, hlib.hexadecimal _⟩

theorem linked_of_verify (hlib : lib.Documented) {previous : String}
    {place : ℕ} {events : List TrajectoryEvent}
    (hbar : '|' ∉ previous.toList)
    (h : verifyFrom lib previous place events = true) :
    (chain lib).Linked previous (events.zipIdx place) := by
  induction events generalizing previous place with
  | nil => trivial
  | cons event rest ih =>
      obtain ⟨hprevious, hhash, hrest⟩ := verifyFrom_cons.mp h
      have hnext : '|' ∉ event.eventHash.toList := by
        rw [hhash]
        exact bar_not_mem_hash hlib _
      rw [List.zipIdx_cons]
      refine ⟨hprevious, ⟨?_, ?_⟩, ih hnext hrest⟩
      · rw [hprevious]
        exact hhash
      · rw [hprevious]
        exact hbar

/-! ## What the hash covers -/

structure Covered where
  traceId : String
  eventType : EventType
  action : String
  previousEventHash : String
  eventHash : String

def covered (lib : Library) (event : TrajectoryEvent) : Covered where
  traceId := event.traceId
  eventType := event.eventType
  action := lib.dumps event.action
  previousEventHash := event.previousEventHash
  eventHash := event.eventHash

/-- Changes of what no hash covers are not noticed. -/
theorem verifyFrom_of_covered {events changed : List TrajectoryEvent}
    (hcovered : changed.map (covered lib) = events.map (covered lib))
    {previous : String} {place : ℕ}
    (h : verifyFrom lib previous place events = true) :
    verifyFrom lib previous place changed = true := by
  induction events generalizing changed previous place with
  | nil =>
      rw [List.map_nil, List.map_eq_nil_iff] at hcovered
      rw [hcovered]
      rfl
  | cons event rest ih =>
      cases changed with
      | nil => rfl
      | cons other others =>
          rw [List.map_cons, List.map_cons, List.cons.injEq] at hcovered
          obtain ⟨hsame, hrest⟩ := hcovered
          simp only [covered, Covered.mk.injEq] at hsame
          obtain ⟨htrace, htype, haction, hprevious, hhash⟩ := hsame
          obtain ⟨hlink, hown, hmore⟩ := verifyFrom_cons.mp h
          apply verifyFrom_cons.mpr
          unfold eventHashOf at hown ⊢
          rw [htrace, htype, haction, hprevious, hhash]
          exact ⟨hlink, hown, ih hrest hmore⟩

def allEventTypes : List EventType :=
  [.userRequest, .intentCreated, .intentUpdated, .planCreated, .toolCall,
    .toolResult, .webAccess, .apiCall, .memoryRead, .memoryWrite,
    .externalInput, .observation, .planChange, .recipientChange,
    .amountChange, .assetChange, .proposalCreated, .securityAnalysis,
    .policyCheck, .simulation, .approvalRequest, .approvalResult,
    .executionRequest, .executionResult, .toolError]

theorem mem_allEventTypes (eventType : EventType) :
    eventType ∈ allEventTypes := by
  cases eventType <;> decide

theorem text_injective : Function.Injective EventType.text := by
  have hnodup : (allEventTypes.map EventType.text).Nodup := by decide
  intro a b h
  exact List.inj_on_of_nodup_map hnodup (mem_allEventTypes a)
    (mem_allEventTypes b) h

theorem bar_not_mem_text (eventType : EventType) :
    '|' ∉ eventType.text.toList := by
  cases eventType <;> decide

theorem bar_not_mem_toString (n : ℕ) : '|' ∉ (toString n).toList := by
  intro h
  rw [Nat.toString_eq_repr, Nat.repr, String.toList_ofList] at h
  exact absurd (Nat.isDigit_of_mem_toDigits (by norm_num) (by norm_num) h)
    (by decide)

/-- The five parts can be read back from the text that is hashed: the bars of
an action stand in its string literals. -/
theorem parts_of_hash (hlib : lib.Documented) {a b : TrajectoryEvent}
    {i j : ℕ} (hbar : '|' ∉ a.previousEventHash.toList)
    (hbar' : '|' ∉ b.previousEventHash.toList)
    (h : eventHashOf lib a.traceId i a.eventType a.action
        a.previousEventHash =
      eventHashOf lib b.traceId j b.eventType b.action
        b.previousEventHash) :
    a.previousEventHash = b.previousEventHash ∧
      lib.dumps a.action = lib.dumps b.action ∧
      a.eventType = b.eventType ∧ a.traceId = b.traceId := by
  have hjoin : ∀ s t u v w : String,
      ("|".intercalate [s, t, u, v, w]).toList =
        s.toList ++ ['|'] ++ t.toList ++ ['|'] ++ u.toList ++ ['|'] ++
          v.toList ++ ['|'] ++ w.toList := by
    intro s t u v w
    have hunfold : "|".intercalate [s, t, u, v, w] =
        s ++ "|" ++ t ++ "|" ++ u ++ "|" ++ v ++ "|" ++ w := rfl
    rw [hunfold]
    simp only [String.toList_append]
    rfl
  unfold eventHashOf hash at h
  have hdigest := congrArg String.toList h
  rw [String.toList_append, String.toList_append,
    List.append_cancel_left_eq] at hdigest
  have htext := congrArg String.toList
    (hlib.collisionFree (String.toList_injective hdigest))
  rw [hjoin, hjoin] at htext
  obtain ⟨hrest, hprevious⟩ :=
    Quoting.cut_last Quoting.whole_notMem hbar hbar' htext
  obtain ⟨hrest, haction⟩ := Quoting.cut_last
    (Quoting.whole_quoted (by decide) (by decide))
    (hlib.literals a.action) (hlib.literals b.action) hrest
  obtain ⟨hrest, htype⟩ := Quoting.cut_last Quoting.whole_notMem
    (bar_not_mem_text a.eventType) (bar_not_mem_text b.eventType) hrest
  obtain ⟨htrace, _⟩ := Quoting.cut_last Quoting.whole_notMem
    (bar_not_mem_toString i) (bar_not_mem_toString j) hrest
  exact ⟨String.toList_injective hprevious, String.toList_injective haction,
    text_injective (String.toList_injective htype),
    String.toList_injective htrace⟩

/-! ## Altering the events -/

/-- The event, up to the order of the keys in its action. -/
def recorded (event : TrajectoryEvent) : TrajectoryEvent :=
  { event with action := ordered event.action }

/-- There are as many events, and the last of them has the hash of the last
one. -/
def EndsAs (events changed : List TrajectoryEvent) : Prop :=
  changed.length = events.length ∧ lastHash changed = lastHash events

/-- The parts of an event that its hash leaves out are as they were; so is an
action whose text is. -/
structure UnhashedKept (lib : Library) (before after : TrajectoryEvent) :
    Prop where
  eventId : before.eventId = after.eventId
  sequence : before.sequence = after.sequence
  timestamp : before.timestamp = after.timestamp
  agentId : before.agentId = after.agentId
  inputRef : before.inputRef = after.inputRef
  outputRef : before.outputRef = after.outputRef
  trustContext : before.trustContext = after.trustContext
  action : lib.dumps before.action = lib.dumps after.action →
    ordered before.action = ordered after.action

theorem recorded_of_covered {a b : TrajectoryEvent}
    (hcovered : covered lib a = covered lib b)
    (hkept : UnhashedKept lib a b) : recorded a = recorded b := by
  simp only [covered, Covered.mk.injEq] at hcovered
  obtain ⟨htrace, htype, haction, hprevious, hhash⟩ := hcovered
  unfold recorded
  rw [htrace, htype, hprevious, hhash, hkept.eventId, hkept.sequence,
    hkept.timestamp, hkept.agentId, hkept.inputRef, hkept.outputRef,
    hkept.trustContext, hkept.action haction]

theorem unhashedKept_of_recorded {a b : TrajectoryEvent}
    (h : recorded a = recorded b) : UnhashedKept lib a b := by
  simp only [recorded, TrajectoryEvent.mk.injEq] at h
  obtain ⟨hid, _, hsequence, htime, hagent, _, haction, hinput, houtput,
    htrust, _, _⟩ := h
  exact ⟨hid, hsequence, htime, hagent, hinput, houtput, htrust,
    fun _ => haction⟩

theorem map_zipIdx {α : Type} (f : TrajectoryEvent → α)
    (events : List TrajectoryEvent) :
    events.zipIdx.map (fun entry => f entry.1) = events.map f := by
  have hcomp : events.zipIdx.map (fun entry => f entry.1) =
      (events.zipIdx.map Prod.fst).map f := List.map_map.symm
  rw [hcomp, List.zipIdx_map_fst]

theorem head_zipIdx (events : List TrajectoryEvent) :
    (chain lib).head genesisHash events.zipIdx = lastHash events := by
  rw [HashChain.head_eq_getLastD, lastHash_eq_getLastD]
  exact congrArg (List.getLastD · genesisHash)
    (map_zipIdx TrajectoryEvent.eventHash events)

theorem forall_mem_zip_zipIdx {events changed : List TrajectoryEvent} :
    (∀ pair ∈ events.zipIdx.zip changed.zipIdx,
      UnhashedKept lib pair.1.1 pair.2.1) ↔
    ∀ pair ∈ events.zip changed, UnhashedKept lib pair.1 pair.2 := by
  have hzip : events.zip changed =
      (events.zipIdx.zip changed.zipIdx).map (Prod.map Prod.fst Prod.fst) := by
    rw [← List.zip_map, List.zipIdx_map_fst, List.zipIdx_map_fst]
  rw [hzip, List.forall_mem_map]
  rfl

/-- Where verification accepts the altered events, they are those appended
exactly if they end as those do and keep what no hash covers. -/
theorem altered_events_iff (hlib : lib.Documented)
    (context : ExecutionContext) (calls : List AppendCall)
    {changed : List TrajectoryEvent}
    (hverified : verifyChain lib changed = true) :
    changed.map recorded = (buffer lib context calls).map recorded ↔
      EndsAs (buffer lib context calls) changed ∧
        ∀ pair ∈ (buffer lib context calls).zip changed,
          UnhashedKept lib pair.1 pair.2 := by
  have hgenesis : '|' ∉ genesisHash.toList := by decide
  have hevents := linked_of_verify hlib hgenesis
    (@verifyChain_buffer lib context calls)
  have hchanged := linked_of_verify hlib hgenesis hverified
  have hfree : ∀ a b, (chain lib).Valid a → (chain lib).Valid b →
      (chain lib).hash a = (chain lib).hash b →
        (chain lib).previous a = (chain lib).previous b ∧
          covered lib a.1 = covered lib b.1 := by
    intro a b ⟨ha, hbar⟩ ⟨hb, hbar'⟩ hhash
    obtain ⟨hprevious, haction, htype, htrace⟩ :=
      parts_of_hash hlib hbar hbar' (ha.symm.trans (hhash.trans hb))
    have hhash : a.1.eventHash = b.1.eventHash := hhash
    refine ⟨hprevious, ?_⟩
    unfold covered
    rw [hprevious, haction, htype, htrace, hhash]
  have hdetermined : ∀ a b, (chain lib).Valid a → (chain lib).Valid b →
      (chain lib).previous a = (chain lib).previous b →
        recorded a.1 = recorded b.1 →
          (chain lib).hash a = (chain lib).hash b := by
    intro a b _ _ _ hsame
    have hhash : (recorded a.1).eventHash = (recorded b.1).eventHash := by
      rw [hsame]
    exact hhash
  have hiff := HashChain.recorded_iff hfree hdetermined
    (fun _ _ => recorded_of_covered) (fun _ _ => unhashedKept_of_recorded)
    hevents hchanged
  rw [map_zipIdx recorded, map_zipIdx recorded, head_zipIdx, head_zipIdx,
    List.length_zipIdx, List.length_zipIdx, forall_mem_zip_zipIdx] at hiff
  exact hiff

/-! ## A session of two events -/

/-- The texts that are hashed for the two events. -/
def sampleTexts : List String :=
  List.map String.join [
    ["trace-1|0|WEB_ACCESS|\x7b\"method\": \"GET\", ",
      "\"url\": \"/prices\"\x7d|0x00000000000000000000000000000000",
      "00000000000000000000000000000000"],
    ["trace-1|1|TOOL_RESULT|\x7b\x7d|0x365d5de538f1fa81cfbd237df8f1e52b",
      "a380e58924606720b8b31d920ef94ef4"]]

theorem sampleTexts_nodup :
    (sampleTexts.map Reference.sha256Hex).Nodup :=
  @Reference.nodup_digests sampleTexts [[_, _, _], [_, _]] rfl
    (by decide +kernel)

/-- The number of a text. -/
def numbered (text : String) : String :=
  String.ofList (Reference.naturalText
    (Encodable.encode (text.toList.map Char.toNat)))

theorem numbered_injective : Function.Injective numbered := by
  intro a b h
  have hcodes := Encodable.encode_injective
    (Reference.naturalText_injective (String.ofList_injective h))
  exact String.toList_injective
    (List.map_injective_iff.mpr (fun _ _ => Char.toNat_inj.mp) hcodes)

def sampleLibrary : Library where
  sha256 := Reference.digestOn sampleTexts numbered
  dumps := fun action =>
    match action with
    | .object [] => "\x7b\x7d"
    | _ => "\x7b\"method\": \"GET\", \"url\": \"/prices\"\x7d"

theorem sample_documented : sampleLibrary.Documented where
  collisionFree :=
    Reference.digestOn_injective sampleTexts_nodup numbered_injective
  hexadecimal := by
    intro text h
    simp only [sampleLibrary, Reference.digestOn] at h
    split at h
    · obtain ⟨k, hk, hdigit⟩ := Reference.hexDigit_of_mem_sha256Hex h
      have hnever : ∀ k < 16, JsonText.hexDigit k ≠ '|' := by decide
      exact hnever k hk hdigit
    · rw [String.toList_append, List.mem_append] at h
      rcases h with hmark | hnumber
      · exact absurd hmark (by decide)
      · rw [numbered, String.toList_ofList] at hnumber
        exact absurd (Reference.isDigit_of_mem_naturalText hnumber)
          (by decide)
  literals := by
    intro action
    simp only [sampleLibrary]
    split
    · decide
    · decide

def sampleContext : ExecutionContext := ⟨"agent-1", "trace-1"⟩

def untrustedPage : AppendCall where
  eventType := .webAccess
  action := some (.object
    [("url", .string "/prices"), ("method", .string "GET")])
  inputRef := none
  outputRef := none
  trustContext := some ⟨"web", .untrusted⟩
  timestamp := "2026-01-01T00:00:00+00:00"
  eventId := "trajectory_1"

def readPrice : AppendCall where
  eventType := .toolResult
  action := none
  inputRef := none
  outputRef := some "price-1"
  trustContext := none
  timestamp := "2026-01-01T00:00:01+00:00"
  eventId := "trajectory_2"

def sampleEvents : List TrajectoryEvent :=
  buffer sampleLibrary sampleContext [untrustedPage, readPrice]

/-- The events with the keys of their actions the other way round. -/
def reorderedEvents : List TrajectoryEvent :=
  sampleEvents.map (fun event =>
    { event with action :=
        match event.action with
        | .object fields => .object fields.reverse
        | other => other })

theorem sample_reordered :
    verifyChain sampleLibrary reorderedEvents = true ∧
      reorderedEvents ≠ sampleEvents ∧
      reorderedEvents.map recorded = sampleEvents.map recorded := by
  have hcovered : reorderedEvents.map (covered sampleLibrary) =
      sampleEvents.map (covered sampleLibrary) := rfl
  have hverified : verifyChain sampleLibrary reorderedEvents = true :=
    verifyFrom_of_covered hcovered (verifyChain_buffer _)
  refine ⟨hverified, ?_, ?_⟩
  · intro hsame
    have haction := congrArg (List.map TrajectoryEvent.action) hsame
    simp [reorderedEvents, sampleEvents, buffer, append, untrustedPage,
      readPrice] at haction
  · apply (altered_events_iff sample_documented sampleContext _
      hverified).mpr
    refine ⟨⟨rfl, rfl⟩, ?_⟩
    intro pair hpair
    have hpairs : pair ∈ [(sampleEvents[0], reorderedEvents[0]),
        (sampleEvents[1], reorderedEvents[1])] := hpair
    have hordered : ordered sampleEvents[0].action =
        ordered reorderedEvents[0].action := rfl
    rcases List.mem_pair.mp hpairs with hfirst | hsecond
    · rw [hfirst]
      exact ⟨rfl, rfl, rfl, rfl, rfl, rfl, rfl, fun _ => hordered⟩
    · rw [hsecond]
      exact ⟨rfl, rfl, rfl, rfl, rfl, rfl, rfl, fun _ => rfl⟩

/-- The events with their first source trusted. -/
def trustedEvents : List TrajectoryEvent :=
  sampleEvents.map (fun event =>
    { event with trustContext := some ⟨"web", .trusted⟩ })

theorem trust_level_unnoticed :
    sampleLibrary.Documented ∧
      (verifyChain sampleLibrary trustedEvents = true ∧
        trustedEvents.map recorded ≠ sampleEvents.map recorded) ∧
      verifyChain sampleLibrary [] = true ∧ sampleEvents ≠ [] := by
  have hcovered : trustedEvents.map (covered sampleLibrary) =
      sampleEvents.map (covered sampleLibrary) := rfl
  refine ⟨sample_documented, ⟨?_, ?_⟩, rfl, List.cons_ne_nil _ _⟩
  · exact verifyFrom_of_covered hcovered (verifyChain_buffer _)
  · intro hsame
    have htrust := congrArg (List.map TrajectoryEvent.trustContext) hsame
    revert htrust
    decide

end SessionState
end Orvex
