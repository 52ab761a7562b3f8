import Orvex.Concurrency.Scripts
import Mathlib.Data.Set.Insert
import Mathlib.Logic.Relation

/-!
# Runs without stale writes

A session is stale once another session has committed a change to what it
observes, after it began and before it ended.  Where no stale session
commits a write, every commit acts on the tables that its session has read,
so that the scripts can be judged one by one.
-/

namespace ReadCommitted

variable {ι σ κ α ρ : Type} [DecidableEq ι]

/-- The session is about to publish writes. -/
def Machine.Publishes (machine : Machine ι σ κ (Script σ κ α)) (i : ι) :
    Prop :=
  (∃ next, (machine.sessions i).point = .commit next) ∧
    (machine.sessions i).pending ≠ []

/-- The session has not ended. -/
def Machine.Busy (machine : Machine ι σ κ (Script σ κ α)) (i : ι) : Prop :=
  ∀ result, (machine.sessions i).point ≠ .done result

/-- The sessions whose observation the event has made out of date. -/
def Machine.disturbed (observe : ι → σ → ρ) (begun : Set ι)
    (machine next : Machine ι σ κ (Script σ κ α)) (event : Event ι) : Set ι :=
  {j | j ∈ begun ∧ j ≠ event.session ∧ machine.Busy j ∧
    observe j next.committed ≠ observe j machine.committed}

/-- The event is no stale publication, and `ok` lets its session move while
it is not stale. -/
def Machine.Admits (ok : ι → σ → Prop) (stale : Set ι)
    (machine : Machine ι σ κ (Script σ κ α)) : Event ι → Prop
  | .run i =>
      (machine.Publishes i → i ∉ stale) ∧ (i ∉ stale → ok i machine.committed)
  | .lose _ => True

/-- No stale session publishes, and the others only move where `ok` lets
them. -/
def Machine.Undisturbed [Fintype ι] [DecidableEq κ] (gone : α)
    (observe : ι → σ → ρ) (ok : ι → σ → Prop) :
    Set ι → Set ι → Machine ι σ κ (Script σ κ α) → List (Event ι) → Prop
  | _, _, _, [] => True
  | begun, stale, machine, event :: rest =>
      machine.Admits ok stale event ∧
      ∀ next, machine.step (Script.program gone) event = some next →
        next.Undisturbed gone observe ok (insert event.session begun)
          (stale ∪ machine.disturbed observe begun next event) rest

/-! ## Scripts that are safe on what they observe -/

/-- What a script must keep while its observation `o` is up to date:
every commit keeps the invariant and is allowed by `rel`, and every result
is one that `post` allows. -/
def Script.Safe (inv : σ → Prop) (rel : σ → σ → Prop) (ok : σ → Prop)
    (observe : σ → ρ) (post : α → ρ → Prop) :
    Script σ κ α → List (Write σ κ) → ρ → Prop
  | .done result, _, o => post result o
  | .read next, pending, o => ∀ tables, inv tables → ok tables →
      observe tables = o →
        (next (overlay pending tables)).Safe inv rel ok observe post pending o
  | .write plan next failed, pending, o => ∀ tables, inv tables →
      ok tables → observe tables = o →
        (∀ own, plan (overlay pending tables) = some own →
          (next (overlay pending tables)).Safe inv rel ok observe post
            (pending ++ [own]) o) ∧
        (plan (overlay pending tables) = none →
          failed.Safe inv rel ok observe post pending o)
  | .commit next, pending, o => ∀ tables, inv tables → ok tables →
      observe tables = o →
        inv (overlay pending tables) ∧ rel tables (overlay pending tables) ∧
          next.Safe inv rel ok observe post []
            (observe (overlay pending tables))
  | .rollback next, _, o => next.Safe inv rel ok observe post [] o

/-! ## The rule -/

section

variable {gone : α} {inv : σ → Prop} {rel : σ → σ → Prop}
  {ok : ι → σ → Prop} {observe : ι → σ → ρ} {post : ι → α → ρ → Prop}
  {scripts : ι → Script σ κ α}

/-- What holds of every session while no stale session publishes. -/
structure Machine.Sound (gone : α) (inv : σ → Prop) (rel : σ → σ → Prop)
    (ok : ι → σ → Prop) (observe : ι → σ → ρ) (post : ι → α → ρ → Prop)
    (scripts : ι → Script σ κ α) (tables : σ) (begun stale : Set ι)
    (machine : Machine ι σ κ (Script σ κ α)) : Prop where
  kept : inv machine.committed
  reached : Relation.ReflTransGen rel tables machine.committed
  fresh : ∀ i, machine.Busy i → i ∈ begun → i ∉ stale →
    (machine.sessions i).point.Safe inv rel (ok i) (observe i) (post i)
      (machine.sessions i).pending (observe i machine.committed)
  waiting : ∀ i, i ∉ begun → machine.sessions i = .start σ κ (scripts i)
  ended : ∀ i result, i ∈ begun → i ∉ stale →
    (machine.sessions i).point = .done result → result ≠ gone →
      ∃ seen, Relation.ReflTransGen rel tables seen ∧
        Relation.ReflTransGen rel seen machine.committed ∧
          post i result (observe i seen)
  changed : ∀ i ∈ stale, ∃ before after, rel before after ∧
    observe i after ≠ observe i before ∧
      Relation.ReflTransGen rel after machine.committed

/-- A session that moves on keeps what holds of the others, as long as the
tables stay. -/
theorem Machine.Sound.put {tables : σ} {begun stale : Set ι}
    {machine : Machine ι σ κ (Script σ κ α)}
    (h : machine.Sound gone inv rel ok observe post scripts tables begun
      stale) {i : ι} (session : Session σ κ (Script σ κ α))
    (hsafe : i ∉ stale →
      session.point.Safe inv rel (ok i) (observe i) (post i) session.pending
        (observe i machine.committed) ∨ session.point = .done gone) :
    (machine.put i session).Sound gone inv rel ok observe post scripts
      tables (insert i begun) stale := by
  constructor
  · exact h.kept
  · exact h.reached
  · intro j hbusy hbegun hstale
    by_cases hj : j = i
    · subst hj
      rw [Machine.put_sessions_self, Machine.put_committed]
      rcases hsafe hstale with hsafe | hgone
      · exact hsafe
      · refine absurd ?_ (hbusy gone)
        rw [Machine.put_sessions_self, hgone]
    · rw [Machine.put_sessions_of_ne machine hj]
      have hbusy' : machine.Busy j := by
        intro result hpoint
        refine hbusy result ?_
        rw [Machine.put_sessions_of_ne machine hj, hpoint]
      exact h.fresh j hbusy' (Set.mem_of_mem_insert_of_ne hbegun hj) hstale
  · intro j hj
    have hne : j ≠ i := fun heq => hj (heq ▸ Set.mem_insert j begun)
    rw [Machine.put_sessions_of_ne machine hne]
    exact h.waiting j (fun hmem => hj (Set.mem_insert_of_mem i hmem))
  · intro j result hbegun hstale hpoint hresult
    by_cases hj : j = i
    · subst hj
      rw [Machine.put_sessions_self] at hpoint
      rcases hsafe hstale with hsafe | hgone
      · rw [hpoint] at hsafe
        exact ⟨machine.committed, h.reached, .refl, hsafe⟩
      · rw [hpoint] at hgone
        exact absurd (Script.done.inj hgone) hresult
    · rw [Machine.put_sessions_of_ne machine hj] at hpoint
      exact h.ended j result (Set.mem_of_mem_insert_of_ne hbegun hj) hstale
        hpoint hresult
  · exact h.changed

omit [DecidableEq ι] in
theorem Machine.Sound.safe {tables : σ} {begun stale : Set ι}
    {machine : Machine ι σ κ (Script σ κ α)}
    (h : machine.Sound gone inv rel ok observe post scripts tables begun
      stale)
    (hscripts : ∀ i o, (scripts i).Safe inv rel (ok i) (observe i) (post i)
      [] o) {i : ι} (hbusy : machine.Busy i) (hstale : i ∉ stale) :
    (machine.sessions i).point.Safe inv rel (ok i) (observe i) (post i)
      (machine.sessions i).pending (observe i machine.committed) := by
  by_cases hbegun : i ∈ begun
  · exact h.fresh i hbusy hbegun hstale
  · rw [h.waiting i hbegun]
    exact hscripts i _

omit [DecidableEq ι] in
theorem Machine.busy_of_point {machine : Machine ι σ κ (Script σ κ α)}
    {i : ι} {script : Script σ κ α}
    (hpoint : (machine.sessions i).point = script)
    (hscript : ∀ result, script ≠ .done result) : machine.Busy i := by
  intro result hdone
  exact hscript result (hpoint.symm.trans hdone)

omit [DecidableEq ι] in
/-- A stale session has nothing to publish. -/
theorem Machine.view_of_stale {stale : Set ι}
    {machine : Machine ι σ κ (Script σ κ α)} {i : ι} {next : Script σ κ α}
    (hpoint : (machine.sessions i).point = .commit next)
    (hadmits : machine.Admits ok stale (.run i)) (hstale : i ∈ stale) :
    machine.view i = machine.committed := by
  have hpending : (machine.sessions i).pending = [] := by
    by_contra hpending
    exact hadmits.1 ⟨⟨next, hpoint⟩, hpending⟩ hstale
  unfold Machine.view
  rw [hpending, overlay_nil]

omit [DecidableEq ι] in
/-- What a session that is not stale publishes is safe. -/
theorem Machine.Sound.published {tables : σ} {begun stale : Set ι}
    {machine : Machine ι σ κ (Script σ κ α)}
    (h : machine.Sound gone inv rel ok observe post scripts tables begun
      stale)
    (hscripts : ∀ i o, (scripts i).Safe inv rel (ok i) (observe i) (post i)
      [] o) {i : ι} {next : Script σ κ α}
    (hpoint : (machine.sessions i).point = .commit next)
    (hadmits : machine.Admits ok stale (.run i)) (hstale : i ∉ stale) :
    inv (machine.view i) ∧ rel machine.committed (machine.view i) ∧
      next.Safe inv rel (ok i) (observe i) (post i) []
        (observe i (machine.view i)) := by
  have hown := h.safe hscripts
    (machine.busy_of_point hpoint (fun _ => by simp)) hstale
  rw [hpoint] at hown
  exact hown machine.committed h.kept (hadmits.2 hstale) rfl

omit [DecidableEq ι] in
/-- A commit leaves the tables as they are or moves them along `rel`. -/
theorem Machine.Sound.publishes {tables : σ} {begun stale : Set ι}
    {machine : Machine ι σ κ (Script σ κ α)}
    (h : machine.Sound gone inv rel ok observe post scripts tables begun
      stale)
    (hscripts : ∀ i o, (scripts i).Safe inv rel (ok i) (observe i) (post i)
      [] o) {i : ι} {next : Script σ κ α}
    (hpoint : (machine.sessions i).point = .commit next)
    (hadmits : machine.Admits ok stale (.run i)) :
    machine.view i = machine.committed ∨
      rel machine.committed (machine.view i) := by
  by_cases hstale : i ∈ stale
  · exact Or.inl (machine.view_of_stale hpoint hadmits hstale)
  · exact Or.inr (h.published hscripts hpoint hadmits hstale).2.1

omit [DecidableEq ι] in
theorem Machine.Sound.reaches {tables : σ} {begun stale : Set ι}
    {machine : Machine ι σ κ (Script σ κ α)}
    (h : machine.Sound gone inv rel ok observe post scripts tables begun
      stale)
    (hscripts : ∀ i o, (scripts i).Safe inv rel (ok i) (observe i) (post i)
      [] o) {i : ι} {next : Script σ κ α}
    (hpoint : (machine.sessions i).point = .commit next)
    (hadmits : machine.Admits ok stale (.run i)) :
    Relation.ReflTransGen rel machine.committed (machine.view i) := by
  rcases h.publishes hscripts hpoint hadmits with hsame | hmoved
  · rw [hsame]
  · exact .single hmoved

/-- Publishing disturbs every session whose observation it changes, and the
others keep what holds of them. -/
theorem Machine.Sound.publish {tables : σ} {begun stale : Set ι}
    {machine : Machine ι σ κ (Script σ κ α)}
    (h : machine.Sound gone inv rel ok observe post scripts tables begun
      stale)
    (hscripts : ∀ i o, (scripts i).Safe inv rel (ok i) (observe i) (post i)
      [] o) {i : ι} {next : Script σ κ α}
    (hpoint : (machine.sessions i).point = .commit next)
    (hadmits : machine.Admits ok stale (.run i)) :
    (machine.publish i next).Sound gone inv rel ok observe post scripts
      tables (insert i begun)
      (stale ∪ machine.disturbed observe begun (machine.publish i next)
        (.run i)) := by
  have hsafe := h.published hscripts hpoint hadmits
  have hreached := h.reaches hscripts hpoint hadmits
  have hsame : ∀ j, j ∈ begun → j ≠ i → machine.Busy j →
      j ∉ stale ∪ machine.disturbed observe begun (machine.publish i next)
        (.run i) →
      observe j (machine.view i) = observe j machine.committed := by
    intro j hbegun hne hbusy hfresh
    by_contra hchanged
    exact hfresh (Or.inr ⟨hbegun, hne, hbusy, hchanged⟩)
  constructor
  · by_cases hstale : i ∈ stale
    · rw [Machine.publish_committed,
        machine.view_of_stale hpoint hadmits hstale]
      exact h.kept
    · exact (hsafe hstale).1
  · exact h.reached.trans hreached
  · intro j hbusyNext hbegun hfresh
    by_cases hj : j = i
    · subst hj
      rw [Machine.publish_sessions_self, Machine.publish_committed]
      exact (hsafe (fun hstale => hfresh (Or.inl hstale))).2.2
    · have hbegun := Set.mem_of_mem_insert_of_ne hbegun hj
      rw [Machine.publish_sessions_of_ne machine hj,
        Machine.publish_committed]
      have hbusyBefore : machine.Busy j := by
        intro result hdone
        refine hbusyNext result ?_
        rw [Machine.publish_sessions_of_ne machine hj, hdone]
      rw [hsame j hbegun hj hbusyBefore hfresh]
      exact h.fresh j hbusyBefore hbegun (fun hstale =>
        hfresh (Or.inl hstale))
  · intro j hj
    have hne : j ≠ i := fun heq => hj (heq ▸ Set.mem_insert j begun)
    rw [Machine.publish_sessions_of_ne machine hne]
    exact h.waiting j (fun hmem => hj (Set.mem_insert_of_mem i hmem))
  · intro j result hbegun hfresh hdone hresult
    by_cases hj : j = i
    · subst hj
      rw [Machine.publish_sessions_self] at hdone
      have hown := (hsafe (fun hstale => hfresh (Or.inl hstale))).2.2
      have hnext : next = .done result := hdone
      rw [hnext] at hown
      exact ⟨machine.view j, h.reached.trans hreached, .refl, hown⟩
    · rw [Machine.publish_sessions_of_ne machine hj] at hdone
      obtain ⟨seen, hbefore, hafter, hpost⟩ := h.ended j result
        (Set.mem_of_mem_insert_of_ne hbegun hj)
        (fun hstale => hfresh (Or.inl hstale)) hdone hresult
      exact ⟨seen, hbefore, hafter.trans hreached, hpost⟩
  · rintro j (hold | ⟨_, _, _, hdisturbed⟩)
    · obtain ⟨before, after, hmove, hdiffers, hafter⟩ := h.changed j hold
      exact ⟨before, after, hmove, hdiffers, hafter.trans hreached⟩
    · rw [Machine.publish_committed] at hdisturbed ⊢
      have hfresh : i ∉ stale := by
        intro hstale
        apply hdisturbed
        rw [machine.view_of_stale hpoint hadmits hstale]
      exact ⟨machine.committed, machine.view i, (hsafe hfresh).2.1,
        hdisturbed, .refl⟩

omit [DecidableEq ι] in
/-- Tables that stay as they are disturb nobody. -/
theorem Machine.disturbed_of_same {begun : Set ι}
    {machine next : Machine ι σ κ (Script σ κ α)} {event : Event ι}
    (hsame : next.committed = machine.committed) :
    machine.disturbed observe begun next event = ∅ := by
  ext j
  simp [Machine.disturbed, hsame]

theorem Machine.Sound.step {tables : σ} {begun stale : Set ι}
    {machine next : Machine ι σ κ (Script σ κ α)} {event : Event ι}
    (h : machine.Sound gone inv rel ok observe post scripts tables begun
      stale)
    (hscripts : ∀ i o, (scripts i).Safe inv rel (ok i) (observe i) (post i)
      [] o)
    (hadmits : machine.Admits ok stale event)
    (hstep : ScriptStep gone machine event next) :
    next.Sound gone inv rel ok observe post scripts tables
      (insert event.session begun)
      (stale ∪ machine.disturbed observe begun next event) := by
  cases hstep with
  | @commit i rest hpoint => exact h.publish hscripts hpoint hadmits
  | @read i rest hpoint =>
      rw [Machine.disturbed_of_same (by simp), Set.union_empty]
      refine h.put _ (fun hstale => Or.inl ?_)
      have hown := h.safe hscripts
        (machine.busy_of_point hpoint (fun _ => by simp)) hstale
      rw [hpoint] at hown
      exact hown machine.committed h.kept (hadmits.2 hstale) rfl
  | @write i plan rest failed own hpoint hplan hfree =>
      rw [Machine.disturbed_of_same (by simp), Set.union_empty]
      refine h.put _ (fun hstale => Or.inl ?_)
      have hown := h.safe hscripts
        (machine.busy_of_point hpoint (fun _ => by simp)) hstale
      rw [hpoint] at hown
      exact (hown machine.committed h.kept (hadmits.2 hstale) rfl).1 own hplan
  | @violate i plan rest failed hpoint hplan =>
      rw [Machine.disturbed_of_same (by simp), Set.union_empty]
      refine h.put _ (fun hstale => Or.inl ?_)
      have hown := h.safe hscripts
        (machine.busy_of_point hpoint (fun _ => by simp)) hstale
      rw [hpoint] at hown
      exact (hown machine.committed h.kept (hadmits.2 hstale) rfl).2 hplan
  | @rollback i rest hpoint =>
      rw [Machine.disturbed_of_same (by simp), Set.union_empty]
      refine h.put _ (fun hstale => Or.inl ?_)
      have hown := h.safe hscripts
        (machine.busy_of_point hpoint (fun _ => by simp)) hstale
      rw [hpoint] at hown
      exact hown
  | @lose i hpoint =>
      rw [Machine.disturbed_of_same (by simp), Set.union_empty]
      exact h.put _ (fun _ => Or.inr rfl)

/-- The tables move along `rel`. -/
theorem Machine.Sound.moves {tables : σ} {begun stale : Set ι}
    {machine next : Machine ι σ κ (Script σ κ α)} {event : Event ι}
    (h : machine.Sound gone inv rel ok observe post scripts tables begun
      stale)
    (hscripts : ∀ i o, (scripts i).Safe inv rel (ok i) (observe i) (post i)
      [] o)
    (hadmits : machine.Admits ok stale event)
    (hstep : ScriptStep gone machine event next) :
    Relation.ReflTransGen rel machine.committed next.committed := by
  cases hstep with
  | commit hpoint => exact h.reaches hscripts hpoint hadmits
  | _ => exact .refl

/-- The rule: where every script is safe and no stale session publishes,
every run keeps the invariant, moves along `rel`, and gives its fresh
sessions results that `post` allows. -/
theorem Machine.undisturbed_induction [Fintype ι] [DecidableEq κ]
    {tables : σ}
    (hscripts : ∀ i o, (scripts i).Safe inv rel (ok i) (observe i) (post i)
      [] o)
    {schedule : List (Event ι)} {begun stale : Set ι}
    {machine final : Machine ι σ κ (Script σ κ α)}
    (h : machine.Sound gone inv rel ok observe post scripts tables begun
      stale)
    (hquiet : machine.Undisturbed gone observe ok begun stale schedule)
    (hrun : machine.run (Script.program gone) schedule = some final) :
    (∃ begun stale, final.Sound gone inv rel ok observe post scripts tables
      begun stale) ∧
      Relation.ReflTransGen rel machine.committed final.committed := by
  induction schedule generalizing machine begun stale with
  | nil =>
      simp only [Machine.run, Option.some.injEq] at hrun
      subst hrun
      exact ⟨⟨begun, stale, h⟩, .refl⟩
  | cons event rest ih =>
      simp only [Machine.run, Option.bind_eq_some_iff] at hrun
      obtain ⟨next, hstep, hrest⟩ := hrun
      obtain ⟨hadmits, hlater⟩ := hquiet
      have hscript := (machine.step_cases hstep).script
      obtain ⟨hsound, hmoves⟩ := ih (h.step hscripts hadmits hscript)
        (hlater next hstep) hrest
      exact ⟨hsound, (h.moves hscripts hadmits hscript).trans hmoves⟩

/-- What holds of a session on the way, and what is still ahead of it. -/
theorem Machine.undisturbed_before [Fintype ι] [DecidableEq κ]
    {tables : σ}
    (hscripts : ∀ i o, (scripts i).Safe inv rel (ok i) (observe i) (post i)
      [] o)
    {before after : List (Event ι)} {begun stale : Set ι}
    {machine middle : Machine ι σ κ (Script σ κ α)}
    (h : machine.Sound gone inv rel ok observe post scripts tables begun
      stale)
    (hquiet : machine.Undisturbed gone observe ok begun stale
      (before ++ after))
    (hbefore : machine.run (Script.program gone) before = some middle) :
    ∃ begun stale, middle.Sound gone inv rel ok observe post scripts tables
      begun stale ∧ middle.Undisturbed gone observe ok begun stale after := by
  induction before generalizing machine begun stale with
  | nil =>
      simp only [Machine.run, Option.some.injEq] at hbefore
      subst hbefore
      exact ⟨begun, stale, h, hquiet⟩
  | cons event rest ih =>
      simp only [Machine.run, Option.bind_eq_some_iff] at hbefore
      obtain ⟨next, hstep, hrest⟩ := hbefore
      obtain ⟨hadmits, hlater⟩ := hquiet
      exact ih (h.step hscripts hadmits (machine.step_cases hstep).script)
        (hlater next hstep) hrest

/-- The rule at two states of one run. -/
theorem Machine.undisturbed_between [Fintype ι] [DecidableEq κ]
    {tables : σ}
    (hscripts : ∀ i o, (scripts i).Safe inv rel (ok i) (observe i) (post i)
      [] o)
    {before after : List (Event ι)} {begun stale : Set ι}
    {machine middle final : Machine ι σ κ (Script σ κ α)}
    (h : machine.Sound gone inv rel ok observe post scripts tables begun
      stale)
    (hquiet : machine.Undisturbed gone observe ok begun stale
      (before ++ after))
    (hbefore : machine.run (Script.program gone) before = some middle)
    (hafter : middle.run (Script.program gone) after = some final) :
    (∃ begun stale, middle.Sound gone inv rel ok observe post scripts tables
      begun stale) ∧
    (∃ begun stale, final.Sound gone inv rel ok observe post scripts tables
      begun stale) ∧
      Relation.ReflTransGen rel middle.committed final.committed := by
  obtain ⟨begun, stale, hmiddle, hahead⟩ :=
    machine.undisturbed_before hscripts h hquiet hbefore
  exact ⟨⟨begun, stale, hmiddle⟩,
    middle.undisturbed_induction hscripts hmiddle hahead hafter⟩

/-- The rule at one event of a run. -/
theorem Machine.undisturbed_step [Fintype ι] [DecidableEq κ]
    {tables : σ}
    (hscripts : ∀ i o, (scripts i).Safe inv rel (ok i) (observe i) (post i)
      [] o)
    {before after : List (Event ι)} {event : Event ι} {begun stale : Set ι}
    {machine middle next : Machine ι σ κ (Script σ κ α)}
    (h : machine.Sound gone inv rel ok observe post scripts tables begun
      stale)
    (hquiet : machine.Undisturbed gone observe ok begun stale
      (before ++ event :: after))
    (hbefore : machine.run (Script.program gone) before = some middle)
    (hstep : middle.step (Script.program gone) event = some next) :
    inv middle.committed ∧ inv next.committed ∧
      (next.committed = middle.committed ∨
        rel middle.committed next.committed) := by
  obtain ⟨begun, stale, hmiddle, hadmits, -⟩ :=
    machine.undisturbed_before hscripts h hquiet hbefore
  have hscript := (middle.step_cases hstep).script
  have hnext := hmiddle.step hscripts hadmits hscript
  refine ⟨hmiddle.kept, hnext.kept, ?_⟩
  cases hscript with
  | commit hpoint => exact hmiddle.publishes hscripts hpoint hadmits
  | _ => exact Or.inl rfl

omit [DecidableEq ι] in
theorem Machine.sound_starting {tables : σ} (hinv : inv tables) :
    (Machine.starting tables scripts).Sound gone inv rel ok observe post
      scripts tables ∅ ∅ := by
  refine ⟨hinv, .refl, ?_, fun _ _ => rfl, ?_, ?_⟩
  · exact fun _ _ hbegun => absurd hbegun (Set.notMem_empty _)
  · exact fun _ _ hbegun => absurd hbegun (Set.notMem_empty _)
  · exact fun _ hstale => absurd hstale (Set.notMem_empty _)

end

/-! ## Runs that are checked by computing -/

section

variable [Fintype ι] [DecidableEq κ] [DecidableEq ρ]

def Machine.publishes (machine : Machine ι σ κ (Script σ κ α)) (i : ι) :
    Bool :=
  match (machine.sessions i).point with
  | .commit _ => !(machine.sessions i).pending.isEmpty
  | _ => false

def Machine.busy (machine : Machine ι σ κ (Script σ κ α)) (i : ι) : Bool :=
  match (machine.sessions i).point with
  | .done _ => false
  | _ => true

/-- Continues with the members that pass the test put before the list.  Each
test is evaluated before the rest goes on. -/
def gather (test : ι → Bool) : List ι → List ι → (List ι → Bool) → Bool
  | [], stale, rest => rest stale
  | j :: others, stale, rest =>
      if test j then gather test others (j :: stale) rest
      else gather test others stale rest

/-- No stale session publishes in the run, and the others move only where
they are allowed; `begun` and `stale` list the sessions that are so far. -/
def Machine.quiet (gone : α) (observe : ι → σ → ρ) (allowed : ι → σ → Bool) :
    List ι → List ι → Machine ι σ κ (Script σ κ α) → List (Event ι) → Bool
  | _, _, _, [] => true
  | begun, stale, machine, .lose i :: rest =>
      match machine.step (Script.program gone) (.lose i) with
      | none => true
      | some next => next.quiet gone observe allowed (i :: begun) stale rest
  | begun, stale, machine, .run i :: rest =>
      (if i ∈ stale then !machine.publishes i
        else allowed i machine.committed) &&
      match machine.step (Script.program gone) (.run i) with
      | none => true
      | some next =>
          if machine.publishes i then
            gather (fun j => j ≠ i ∧ machine.busy j ∧
                observe j next.committed ≠ observe j machine.committed)
              begun stale
              (fun stale =>
                next.quiet gone observe allowed (i :: begun) stale rest)
          else next.quiet gone observe allowed (i :: begun) stale rest

section

omit [DecidableEq ι] [Fintype ι] [DecidableEq κ] [DecidableEq ρ]

theorem Machine.publishes_iff {machine : Machine ι σ κ (Script σ κ α)}
    {i : ι} : machine.publishes i = true ↔ machine.Publishes i := by
  unfold Machine.publishes Machine.Publishes
  cases hpoint : (machine.sessions i).point <;> simp

theorem Machine.busy_iff {machine : Machine ι σ κ (Script σ κ α)} {i : ι} :
    machine.busy i = true ↔ machine.Busy i := by
  unfold Machine.busy Machine.Busy
  cases hpoint : (machine.sessions i).point <;> simp

theorem gather_eq (test : ι → Bool) (members stale : List ι)
    (rest : List ι → Bool) :
    gather test members stale rest =
      rest ((members.filter test).reverse ++ stale) := by
  induction members generalizing stale with
  | nil => rfl
  | cons j others ih =>
      rw [gather]
      by_cases hj : test j = true
      · rw [if_pos hj, ih, List.filter_cons_of_pos hj, List.reverse_cons,
          List.append_assoc]
        rfl
      · rw [if_neg hj, ih, List.filter_cons_of_neg hj]

end

omit [Fintype ι] [DecidableEq κ] [DecidableEq ρ] in
/-- Only a session that publishes changes the tables. -/
theorem Machine.committed_of_step {gone : α}
    {machine next : Machine ι σ κ (Script σ κ α)} {event : Event ι}
    (hstep : ScriptStep gone machine event next)
    (hnot : ∀ i, event = .run i → ¬ machine.Publishes i) :
    next.committed = machine.committed := by
  cases hstep with
  | @commit i after hpoint =>
      have hpending : (machine.sessions i).pending = [] := by
        by_contra hne
        exact hnot i rfl ⟨⟨after, hpoint⟩, hne⟩
      rw [Machine.publish_committed, Machine.view, hpending, overlay_nil]
  | _ => rfl

variable {gone : α} {observe : ι → σ → ρ} {allowed : ι → σ → Bool}
  {ok : ι → σ → Prop}

theorem Machine.undisturbed_of_quiet
    (hok : ∀ i tables, allowed i tables = true → ok i tables)
    {schedule : List (Event ι)} {begun stale : List ι}
    {machine : Machine ι σ κ (Script σ κ α)}
    (h : machine.quiet gone observe allowed begun stale schedule = true) :
    machine.Undisturbed gone observe ok {j | j ∈ begun} {j | j ∈ stale}
      schedule := by
  induction schedule generalizing machine begun stale with
  | nil => trivial
  | cons event rest ih =>
      have hbegun : ∀ i, insert i {j | j ∈ begun} = {j | j ∈ i :: begun} := by
        intro i
        ext j
        simp
      cases event with
      | lose i =>
          refine ⟨trivial, fun next hnext => ?_⟩
          simp only [Machine.quiet, hnext] at h
          have hsame := Machine.committed_of_step
            (machine.step_cases hnext).script (fun _ hrun => by cases hrun)
          have hrest := ih h
          rw [← hbegun] at hrest
          rw [Machine.disturbed_of_same hsame, Set.union_empty]
          exact hrest
      | run i =>
          simp only [Machine.quiet, Bool.and_eq_true] at h
          obtain ⟨hadmits, hlater⟩ := h
          refine ⟨?_, fun next hnext => ?_⟩
          · by_cases hstale : i ∈ stale
            · rw [if_pos hstale, Bool.not_eq_true'] at hadmits
              constructor
              · intro hpublishes
                rw [← Machine.publishes_iff, hadmits] at hpublishes
                cases hpublishes
              · exact fun hfresh => absurd hstale hfresh
            · rw [if_neg hstale] at hadmits
              exact ⟨fun _ => hstale, fun _ => hok i _ hadmits⟩
          · simp only [hnext] at hlater
            by_cases hpublishes : machine.publishes i = true
            · rw [if_pos hpublishes, gather_eq] at hlater
              have hrest := ih hlater
              have hstale : {j | j ∈ (begun.filter (fun j => j ≠ i ∧
                    machine.busy j ∧ observe j next.committed ≠
                      observe j machine.committed)).reverse ++ stale} =
                  {j | j ∈ stale} ∪ machine.disturbed observe
                    {j | j ∈ begun} next (.run i) := by
                ext j
                simp only [Set.mem_ofPred_eq, List.mem_append,
                  List.mem_reverse, List.mem_filter, decide_eq_true_eq,
                  Machine.busy_iff, Set.mem_union, Machine.disturbed]
                exact or_comm
              rw [← hbegun, hstale] at hrest
              exact hrest
            · rw [if_neg hpublishes] at hlater
              have hsame := Machine.committed_of_step
                (machine.step_cases hnext).script (fun j hrun => by
                  cases hrun
                  rwa [← Machine.publishes_iff])
              have hrest := ih hlater
              rw [← hbegun] at hrest
              rw [Machine.disturbed_of_same hsame, Set.union_empty]
              exact hrest

/-- A run that passes the check from its beginning. -/
theorem Machine.undisturbed_starting
    (hok : ∀ i tables, allowed i tables = true → ok i tables)
    {schedule : List (Event ι)} {machine : Machine ι σ κ (Script σ κ α)}
    (h : machine.quiet gone observe allowed [] [] schedule = true) :
    machine.Undisturbed gone observe ok ∅ ∅ schedule := by
  have hquiet := Machine.undisturbed_of_quiet hok h
  simpa using hquiet

end

end ReadCommitted
