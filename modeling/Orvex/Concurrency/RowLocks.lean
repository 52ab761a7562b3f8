import Orvex.Concurrency.ReadCommitted

/-!
# What a row lock protects

A row is observed by a function `observe key`.  When every write of a
program changes only the rows it names, what is observed of a row under its
lock stays true until the session that holds the lock commits or rolls back.
-/

namespace ReadCommitted

variable {ι σ κ π ρ : Type*} [DecidableEq ι]

/-- The write leaves every row it does not name as it was. -/
def Write.Frames (observe : κ → σ → ρ) (write : Write σ κ) : Prop :=
  ∀ key, key ∉ write.keys →
    ∀ tables, observe key (write.effect tables) = observe key tables

def Program.Frames (observe : κ → σ → ρ) (program : Program σ κ π) : Prop :=
  ∀ point plan failed, program.stmt point = .write plan failed →
    ∀ tables write next, plan tables = some (write, next) →
      write.Frames observe

theorem overlay_observe {observe : κ → σ → ρ} {key : κ}
    {pending : List (Write σ κ)}
    (hframes : ∀ write ∈ pending, write.Frames observe)
    (hkeys : ∀ write ∈ pending, key ∉ write.keys) (tables : σ) :
    observe key (overlay pending tables) = observe key tables := by
  induction pending generalizing tables with
  | nil => rfl
  | cons write pending ih =>
      rw [overlay_cons]
      rw [ih (fun other hmem => hframes other (List.mem_cons_of_mem _ hmem))
        (fun other hmem => hkeys other (List.mem_cons_of_mem _ hmem))]
      exact hframes write List.mem_cons_self key
        (hkeys write List.mem_cons_self) tables

/-- Locks are exclusive, and unfinished writes touch only locked rows. -/
structure Machine.RowLocked (observe : κ → σ → ρ)
    (machine : Machine ι σ κ π) : Prop where
  exclusive : ∀ i j key, i ≠ j → key ∈ (machine.sessions i).held →
    key ∉ (machine.sessions j).held
  keysHeld : ∀ i, ∀ write ∈ (machine.sessions i).pending,
    ∀ key ∈ write.keys, key ∈ (machine.sessions i).held
  frames : ∀ i, ∀ write ∈ (machine.sessions i).pending,
    write.Frames observe

omit [DecidableEq ι] in
theorem Machine.rowLocked_of_start (observe : κ → σ → ρ)
    {machine : Machine ι σ κ π}
    (hstart : ∀ i, ∃ point, machine.sessions i = .start σ κ point) :
    machine.RowLocked observe := by
  constructor
  · intro i j key _ hmem
    obtain ⟨point, hi⟩ := hstart i
    simp [hi, Session.start] at hmem
  · intro i write hmem
    obtain ⟨point, hi⟩ := hstart i
    simp [hi, Session.start] at hmem
  · intro i write hmem
    obtain ⟨point, hi⟩ := hstart i
    simp [hi, Session.start] at hmem

/-- Replacing one session keeps the locks sound when the new session holds
only rows that were free or its own, and covers its unfinished writes. -/
theorem Machine.RowLocked.update {observe : κ → σ → ρ}
    {machine : Machine ι σ κ π} (hlocked : machine.RowLocked observe)
    {i : ι} {session : Session σ κ π} (tables : σ)
    (hheld : ∀ key ∈ session.held,
      key ∈ (machine.sessions i).held ∨ machine.Free i key)
    (hkeys : ∀ write ∈ session.pending, ∀ key ∈ write.keys,
      key ∈ session.held)
    (hframes : ∀ write ∈ session.pending, write.Frames observe) :
    Machine.RowLocked observe
      (⟨tables, Function.update machine.sessions i session⟩ :
        Machine ι σ κ π) := by
  have hnew : ∀ key ∈ session.held, ∀ j, j ≠ i →
      key ∉ (machine.sessions j).held := by
    intro key hmem j hne
    rcases hheld key hmem with hown | hfree
    · exact hlocked.exclusive i j key hne.symm hown
    · exact hfree j hne
  constructor
  · intro a b key hab hmem
    by_cases ha : a = i
    · subst a
      have hb : b ≠ i := hab.symm
      simp only [Function.update_self] at hmem
      simpa [hb] using hnew key hmem b hb
    · simp only [Function.update_of_ne ha] at hmem
      by_cases hb : b = i
      · subst b
        simp only [Function.update_self]
        intro hkey
        exact hnew key hkey a ha hmem
      · simpa [hb] using hlocked.exclusive a b key hab hmem
  · intro a
    by_cases ha : a = i
    · subst a
      simpa using hkeys
    · simpa [ha] using hlocked.keysHeld a
  · intro a
    by_cases ha : a = i
    · subst a
      simpa using hframes
    · simpa [ha] using hlocked.frames a

theorem Machine.RowLocked.step {observe : κ → σ → ρ}
    {program : Program σ κ π} (hprogram : program.Frames observe)
    {machine next : Machine ι σ κ π} {event : Event ι}
    (hlocked : machine.RowLocked observe)
    (hstep : Step program machine event next) :
    next.RowLocked observe := by
  cases hstep with
  | read hstmt =>
      exact hlocked.update _ (fun _ hmem => Or.inl hmem)
        (hlocked.keysHeld _) (hlocked.frames _)
  | lock hstmt hfree =>
      refine hlocked.update _ ?_ ?_ (hlocked.frames _)
      · intro key hmem
        rcases List.mem_cons.mp hmem with heq | hmem
        · subst heq
          exact Or.inr hfree
        · exact Or.inl hmem
      · intro write hmem key hkey
        exact List.mem_cons_of_mem _ (hlocked.keysHeld _ write hmem key hkey)
  | write hstmt hplan hfree =>
      refine hlocked.update _ ?_ ?_ ?_
      · intro key hmem
        rcases List.mem_append.mp hmem with hnew | hold
        · exact Or.inr (hfree key hnew)
        · exact Or.inl hold
      · intro write hmem key hkey
        rcases List.mem_append.mp hmem with hold | hnew
        · exact List.mem_append_right _
            (hlocked.keysHeld _ write hold key hkey)
        · rw [List.mem_singleton] at hnew
          subst hnew
          exact List.mem_append_left _ hkey
      · intro write hmem
        rcases List.mem_append.mp hmem with hold | hnew
        · exact hlocked.frames _ write hold
        · rw [List.mem_singleton] at hnew
          subst hnew
          exact hprogram _ _ _ hstmt _ _ _ hplan
  | violate hstmt hplan =>
      exact hlocked.update _ (fun _ hmem => Or.inl hmem)
        (hlocked.keysHeld _) (hlocked.frames _)
  | commit hstmt =>
      exact hlocked.update _ (by simp [Session.start])
        (by simp [Session.start]) (by simp [Session.start])
  | rollback hstmt =>
      exact hlocked.update _ (by simp [Session.start])
        (by simp [Session.start]) (by simp [Session.start])
  | lose hstmt =>
      exact hlocked.update _ (by simp [Session.start])
        (by simp [Session.start]) (by simp [Session.start])

/-- Only a commit changes the committed tables, and it publishes exactly
what its session saw. -/
theorem Step.committed_cases {program : Program σ κ π}
    {machine next : Machine ι σ κ π} {event : Event ι}
    (hstep : Step program machine event next) :
    next.committed = machine.committed ∨
      ∃ point, program.stmt (machine.sessions event.session).point =
          .commit point ∧
        next = machine.publish event.session point := by
  cases hstep with
  | commit hstmt => exact Or.inr ⟨_, hstmt, rfl⟩
  | _ => exact Or.inl rfl

/-- An event moves no session but its own. -/
theorem Step.sessions_of_ne {program : Program σ κ π}
    {machine next : Machine ι σ κ π} {event : Event ι}
    (hstep : Step program machine event next) {i : ι}
    (hne : i ≠ event.session) :
    next.sessions i = machine.sessions i := by
  cases hstep with
  | commit hstmt => exact machine.publish_sessions_of_ne hne _
  | _ => exact machine.put_sessions_of_ne hne _

/-- A session that has halted stays as it is. -/
theorem Step.sessions_of_halt {program : Program σ κ π}
    {machine next : Machine ι σ κ π} {event : Event ι}
    (hstep : Step program machine event next) {i : ι}
    (hhalt : program.stmt (machine.sessions i).point = .halt) :
    next.sessions i = machine.sessions i := by
  apply hstep.sessions_of_ne
  intro hown
  subst hown
  cases hstep with
  | lose hstmt => exact hstmt hhalt
  | read hstmt => exact absurd (hhalt.symm.trans hstmt) (by simp)
  | lock hstmt _ => exact absurd (hhalt.symm.trans hstmt) (by simp)
  | write hstmt _ _ => exact absurd (hhalt.symm.trans hstmt) (by simp)
  | violate hstmt _ => exact absurd (hhalt.symm.trans hstmt) (by simp)
  | commit hstmt => exact absurd (hhalt.symm.trans hstmt) (by simp)
  | rollback hstmt => exact absurd (hhalt.symm.trans hstmt) (by simp)

/-- The lock rule: no event of another session changes a row that session
`i` holds. -/
theorem Machine.RowLocked.observe_of_held {observe : κ → σ → ρ}
    {program : Program σ κ π} {machine next : Machine ι σ κ π}
    {event : Event ι} (hlocked : machine.RowLocked observe)
    (hstep : Step program machine event next) {i : ι} {key : κ}
    (hne : i ≠ event.session)
    (hheld : key ∈ (machine.sessions i).held) :
    observe key next.committed = observe key machine.committed := by
  rcases hstep.committed_cases with heq | ⟨point, _, heq⟩
  · rw [heq]
  · subst next
    apply overlay_observe (hlocked.frames _)
    intro write hmem hkey
    exact hlocked.exclusive i _ key hne hheld
      (hlocked.keysHeld _ write hmem key hkey)

end ReadCommitted
