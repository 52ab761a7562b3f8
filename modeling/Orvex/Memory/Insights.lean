import Mathlib.Data.List.Basic
import Orvex.Foundation.Action
import Orvex.Memory.Retrieval

/-!
# Changes after untrusted content

The scan keeps the first untrusted event and the first change of each kind.
A first change that comes before all untrusted events hides the later ones.
-/

namespace Orvex
namespace Retrieval

/-- The trust context is a dictionary or nothing. -/
def Readable (event : PyDict) : Prop :=
  ∃ trust, event.getDict "trust_context" = .ok trust

def untrusted (event : PyDict) : Bool :=
  match event.getDict "trust_context" with
  | .ok trust => (trust.get "trust_level").isText "UNTRUSTED"
  | .error _ => false

def ofType (kind : String) (event : PyDict) : Bool :=
  (event.get "event_type").isText kind

/-- The sequence of an event, which is an integer. -/
def sequence (event : PyDict) : ℤ :=
  match event.get "sequence" with
  | .int n => n
  | _ => 0

/-- The sequences are integers in increasing order. -/
structure Sequenced (events : List PyDict) : Prop where
  integers : ∀ event ∈ events, event.get "sequence" = .int (sequence event)
  increasing : events.Pairwise (fun a b => sequence a ≤ sequence b)

def recipientChange : String := "RECIPIENT_CHANGE"

def amountChange : String := "AMOUNT_CHANGE"

/-- Some change of this kind is not before some untrusted event. -/
def ChangedAfter (kind : String) (events : List PyDict) : Prop :=
  ∃ source ∈ events, ∃ change ∈ events, untrusted source = true ∧
    ofType kind change = true ∧ sequence source ≤ sequence change

/-- Another change of the kind is before every untrusted event. -/
def Masked (kind : String) (events : List PyDict) : Prop :=
  ChangedAfter kind events ∧
    ∃ change ∈ events, ofType kind change = true ∧
      ∀ source ∈ events, untrusted source = true →
        sequence change < sequence source

/-! ## The first events -/

variable {events : List PyDict}

theorem Sequenced.first_le (h : Sequenced events) {p : PyDict → Bool}
    {first : PyDict} (hfirst : events.find? p = some first) :
    ∀ event ∈ events, p event = true → sequence first ≤ sequence event := by
  obtain ⟨-, before, after, hevents, hbefore⟩ :=
    List.find?_eq_some_iff_append.mp hfirst
  have hincreasing := h.increasing
  rw [hevents, List.pairwise_append, List.pairwise_cons] at hincreasing
  intro event hevent hp
  rw [hevents] at hevent
  rcases List.mem_append.mp hevent with hearlier | hlater
  · have hnot := hbefore event hearlier
    rw [hp] at hnot
    cases hnot
  · rcases List.mem_cons.mp hlater with heq | hafter
    · rw [heq]
    · exact hincreasing.2.1.1 event hafter

/-- The first change of the kind is not before the first untrusted event. -/
def changedFirst (kind : String) (events : List PyDict) : Bool :=
  match events.find? untrusted, events.find? (ofType kind) with
  | some source, some change => sequence source ≤ sequence change
  | _, _ => false

theorem changedFirst_eq_true {kind : String} :
    changedFirst kind events = true ↔
      ∃ source change, events.find? untrusted = some source ∧
        events.find? (ofType kind) = some change ∧
        sequence source ≤ sequence change := by
  unfold changedFirst
  cases events.find? untrusted with
  | none => simp
  | some source =>
      cases events.find? (ofType kind) with
      | none => simp
      | some change => simp

theorem changedAfter_of_first {kind : String}
    (h : changedFirst kind events = true) : ChangedAfter kind events := by
  obtain ⟨source, change, hsource, hchange, hle⟩ :=
    changedFirst_eq_true.mp h
  exact ⟨source, List.mem_of_find?_eq_some hsource, change,
    List.mem_of_find?_eq_some hchange, List.find?_some hsource,
    List.find?_some hchange, hle⟩

/-- The first events show a change exactly when no other change masks it. -/
theorem Sequenced.changedFirst_iff (h : Sequenced events) (kind : String) :
    (changedFirst kind events = true ↔ ChangedAfter kind events) ↔
      ¬ Masked kind events := by
  constructor
  · intro hiff hmasked
    obtain ⟨hafter, hidden, hmem, htype, hbefore⟩ := hmasked
    obtain ⟨source, change, hsource, hchange, hle⟩ :=
      changedFirst_eq_true.mp (hiff.mpr hafter)
    have hearliest := h.first_le hchange hidden hmem htype
    have hlt := hbefore source (List.mem_of_find?_eq_some hsource)
      (List.find?_some hsource)
    omega
  · intro hmasked
    refine ⟨changedAfter_of_first, ?_⟩
    intro hafter
    by_contra hnot
    apply hmasked
    refine ⟨hafter, ?_⟩
    obtain ⟨source, hsource, change, hchange, hfrom, htype, hle⟩ := hafter
    cases hfirst : events.find? (ofType kind) with
    | none =>
        have hnone := List.find?_eq_none.mp hfirst change hchange
        exact absurd htype hnone
    | some first =>
        refine ⟨first, List.mem_of_find?_eq_some hfirst,
          List.find?_some hfirst, ?_⟩
        cases horigin : events.find? untrusted with
        | none =>
            have hnone := List.find?_eq_none.mp horigin source hsource
            exact absurd hfrom hnone
        | some origin =>
            intro other hother huntrusted
            have hleast := h.first_le horigin other hother huntrusted
            have hbefore : sequence first < sequence origin := by
              by_contra hge
              apply hnot
              apply changedFirst_eq_true.mpr
              exact ⟨origin, first, horigin, hfirst, not_lt.mp hge⟩
            omega

/-! ## The scan -/

/-- A variable that is assigned at the first event that is found. -/
def firstOf (held : PyValue) (found : Option PyDict) : PyValue :=
  if held.isNone then
    match found with
    | some event => event.get "sequence"
    | none => .none
  else held

theorem firstOf_cons {held : PyValue} {p : PyDict → Bool} {event : PyDict}
    {rest : List PyDict} {n : ℤ} (hevent : event.get "sequence" = .int n) :
    firstOf (if p event then assignOnce held (event.get "sequence") else held)
        (rest.find? p) = firstOf held ((event :: rest).find? p) := by
  rw [List.find?_cons, hevent]
  cases p event with
  | false => rfl
  | true =>
      unfold firstOf assignOnce
      cases hheld : held.isNone with
      | false => simp [hheld]
      | true => simp [hevent, PyValue.isNone]

theorem step_eq_ok_iff {scan : Scan} {event : PyDict} :
    (∃ next, scan.step event = .ok next) ↔ Readable event := by
  unfold Scan.step Readable
  cases event.getDict "trust_context" with
  | ok trust => exact iff_of_true ⟨_, rfl⟩ ⟨trust, rfl⟩
  | error e =>
      refine iff_of_false ?_ ?_
      · intro h
        obtain ⟨next, h⟩ := h
        cases h
      · intro h
        obtain ⟨trust, h⟩ := h
        cases h

/-- What the scan holds after the events. -/
structure Scanned (scan final : Scan) (events : List PyDict) : Prop where
  untrustedIds : final.untrustedIds =
    scan.untrustedIds ++
      (events.filter untrusted).map (fun event => event.get "event_id")
  firstUntrusted : final.firstUntrusted =
    firstOf scan.firstUntrusted (events.find? untrusted)
  recipient : final.recipientChange =
    firstOf scan.recipientChange (events.find? (ofType recipientChange))
  amount : final.amountChange =
    firstOf scan.amountChange (events.find? (ofType amountChange))

theorem firstOf_none (held : PyValue) : firstOf held none = held := by
  unfold firstOf
  cases held <;> rfl

theorem scanned_nil (scan : Scan) : Scanned scan scan [] := by
  constructor
  · rw [List.filter_nil, List.map_nil, List.append_nil]
  · exact (firstOf_none _).symm
  · exact (firstOf_none _).symm
  · exact (firstOf_none _).symm

theorem Scanned.cons {scan next final : Scan} {event : PyDict}
    {rest : List PyDict} {n : ℤ} (hevent : event.get "sequence" = .int n)
    (hstep : scan.step event = .ok next) (h : Scanned next final rest) :
    Scanned scan final (event :: rest) := by
  unfold Scan.step at hstep
  cases htrust : event.getDict "trust_context" with
  | error e =>
      rw [htrust] at hstep
      cases hstep
  | ok trust =>
      have huntrusted : untrusted event =
          (trust.get "trust_level").isText "UNTRUSTED" := by
        rw [untrusted, htrust]
      rw [htrust] at hstep
      cases hstep
      rw [← huntrusted] at h
      constructor
      · rw [h.untrustedIds, List.filter_cons]
        cases untrusted event with
        | false => rfl
        | true => simp
      · rw [h.firstUntrusted]
        exact firstOf_cons hevent
      · rw [h.recipient]
        exact @firstOf_cons _ (ofType recipientChange) _ _ _ hevent
      · rw [h.amount]
        exact @firstOf_cons _ (ofType amountChange) _ _ _ hevent

theorem foldlM_scanned {scan final : Scan}
    (hintegers : ∀ event ∈ events, ∃ n, event.get "sequence" = .int n)
    (h : events.foldlM Scan.step scan = .ok final) :
    Scanned scan final events := by
  induction events generalizing scan with
  | nil =>
      cases h
      exact scanned_nil _
  | cons event rest ih =>
      rw [List.foldlM_cons] at h
      obtain ⟨next, hstep, h⟩ := Fallible.result_bind_eq_ok.mp h
      obtain ⟨n, hevent⟩ := hintegers event List.mem_cons_self
      apply Scanned.cons hevent hstep
      apply ih
      · intro other hother
        exact hintegers other (List.mem_cons_of_mem event hother)
      · exact h

theorem foldlM_ok_iff (scan : Scan) :
    (∃ final, events.foldlM Scan.step scan = .ok final) ↔
      ∀ event ∈ events, Readable event := by
  induction events generalizing scan with
  | nil => exact iff_of_true ⟨_, rfl⟩ (fun _ h => absurd h List.not_mem_nil)
  | cons event rest ih =>
      rw [List.forall_mem_cons, List.foldlM_cons]
      constructor
      · intro h
        obtain ⟨final, h⟩ := h
        obtain ⟨next, hstep, h⟩ := Fallible.result_bind_eq_ok.mp h
        exact ⟨step_eq_ok_iff.mp ⟨next, hstep⟩, (ih next).mp ⟨final, h⟩⟩
      · intro h
        obtain ⟨next, hstep⟩ := (@step_eq_ok_iff scan event).mpr h.1
        obtain ⟨final, hfinal⟩ := (ih next).mpr h.2
        exact ⟨final, by rw [hstep]; exact hfinal⟩

/-! ## The flags -/

/-- Integers are compared by their order. -/
def OrdersIntegers (py : Python) : Prop :=
  ∀ a b : ℤ, py.ge (.int a) (.int b) = some (decide (b ≤ a))

theorem after_first {py : Python} (hpy : OrdersIntegers py) {final : Scan}
    (h : Sequenced events) {kind : String} {change : PyValue}
    (hfirst : final.firstUntrusted =
      firstOf .none (events.find? untrusted))
    (hchange : change = firstOf .none (events.find? (ofType kind))) :
    after py final change = .ok (changedFirst kind events) := by
  unfold after changedFirst
  rw [hfirst, hchange]
  cases hsource : events.find? untrusted with
  | none =>
      rw [if_pos]
      exact Bool.or_true _
  | some source =>
      have hsourceSequence := h.integers source
        (List.mem_of_find?_eq_some hsource)
      cases hkind : events.find? (ofType kind) with
      | none =>
          rw [if_pos]
          rfl
      | some event =>
          have heventSequence := h.integers event
            (List.mem_of_find?_eq_some hkind)
          have hge := hpy (sequence event) (sequence source)
          simp only [firstOf, PyValue.isNone, heventSequence,
            hsourceSequence, hge, if_true, Bool.or_self]
          rfl

/-- What a trajectory of readable events shows. -/
structure Shows (insights : TrajectoryInsights) (events : List PyDict) :
    Prop where
  untrustedIds : insights.untrustedEventIds =
    (events.filter untrusted).map (fun event => event.get "event_id")
  recipient : insights.recipientChangeAfterUntrusted =
    changedFirst recipientChange events
  amount : insights.amountChangeAfterUntrusted =
    changedFirst amountChange events

theorem shows_of_analyze {py : Python} (hpy : OrdersIntegers py)
    (h : Sequenced events) {insights : TrajectoryInsights}
    (hinsights : analyzeTrajectory py events = .ok insights) :
    Shows insights events := by
  obtain ⟨final, hfinal, hinsights⟩ :=
    Fallible.result_bind_eq_ok.mp hinsights
  have hscanned := foldlM_scanned
    (fun event hevent => ⟨_, h.integers event hevent⟩) hfinal
  have hrecipient := after_first hpy h hscanned.firstUntrusted
    hscanned.recipient
  have hamount := after_first hpy h hscanned.firstUntrusted hscanned.amount
  rw [hrecipient, Fallible.result_ok_bind, hamount,
    Fallible.result_ok_bind] at hinsights
  cases hinsights
  exact ⟨hscanned.untrustedIds, rfl, rfl⟩

theorem analyze_ok_iff {py : Python} (hpy : OrdersIntegers py)
    (h : Sequenced events) :
    (∃ insights, analyzeTrajectory py events = .ok insights) ↔
      ∀ event ∈ events, Readable event := by
  rw [← foldlM_ok_iff Scan.initial]
  constructor
  · intro hinsights
    obtain ⟨insights, hinsights⟩ := hinsights
    obtain ⟨final, hfinal, -⟩ := Fallible.result_bind_eq_ok.mp hinsights
    exact ⟨final, hfinal⟩
  · intro hfinal
    obtain ⟨final, hfinal⟩ := hfinal
    have hscanned := foldlM_scanned
      (fun event hevent => ⟨_, h.integers event hevent⟩) hfinal
    have hrecipient := after_first hpy h hscanned.firstUntrusted
      hscanned.recipient
    have hamount := after_first hpy h hscanned.firstUntrusted
      hscanned.amount
    refine ⟨⟨final.untrustedIds, changedFirst recipientChange events,
      changedFirst amountChange events, final.firstUntrusted,
      final.proposal⟩, ?_⟩
    rw [analyzeTrajectory, hfinal, Fallible.result_ok_bind, hrecipient,
      Fallible.result_ok_bind, hamount, Fallible.result_ok_bind]
    rfl

/-- Each flag is set exactly when a change comes after untrusted content. -/
def FlagsExact (py : Python) (events : List PyDict) : Prop :=
  ∃ insights, analyzeTrajectory py events = .ok insights ∧
    (insights.recipientChangeAfterUntrusted = true ↔
      ChangedAfter recipientChange events) ∧
    (insights.amountChangeAfterUntrusted = true ↔
      ChangedAfter amountChange events)

theorem flagsExact_iff {py : Python} (hpy : OrdersIntegers py)
    (h : Sequenced events) :
    FlagsExact py events ↔
      (∀ event ∈ events, Readable event) ∧
        ¬ Masked recipientChange events ∧ ¬ Masked amountChange events := by
  rw [← analyze_ok_iff hpy h, ← h.changedFirst_iff, ← h.changedFirst_iff]
  constructor
  · intro hexact
    obtain ⟨insights, hinsights, hrecipient, hamount⟩ := hexact
    have hshows := shows_of_analyze hpy h hinsights
    rw [hshows.recipient] at hrecipient
    rw [hshows.amount] at hamount
    exact ⟨⟨insights, hinsights⟩, hrecipient, hamount⟩
  · intro hexact
    obtain ⟨⟨insights, hinsights⟩, hrecipient, hamount⟩ := hexact
    have hshows := shows_of_analyze hpy h hinsights
    refine ⟨insights, hinsights, ?_, ?_⟩
    · rw [hshows.recipient]
      exact hrecipient
    · rw [hshows.amount]
      exact hamount

end Retrieval
end Orvex
