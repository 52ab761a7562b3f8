import Mathlib.Tactic

/-!
# Calls that wait for answers

Asynchronous calls share one state.  A call runs without interruption until
it waits, goes on when its answer comes, and meanwhile other calls run.  A
pool holds the shared state and the calls that were started; a run is any
sequence of starts and answers.

The rules carry an invariant through a run: of the pool as a whole, where
each move meets a condition, and of each call alone, where only its own
steps and an invariant of the shared state matter.
-/

namespace Awaits

structure Program (σ κ π α : Type) where
  /-- A call begins, and runs until it waits for the first time. -/
  enter : κ → α → σ → σ × π
  /-- A waiting call goes on with an answer; `none` is an answer to another
  question. -/
  resume : κ → π → α → σ → Option (σ × π)

/-- A call that was started, where it waits, and the points that it has left
with the answers that it got there. -/
structure Task (κ π α : Type) where
  call : κ
  point : π
  past : List (π × α)

structure Pool (σ κ π α : Type) where
  shared : σ
  tasks : List (Task κ π α)

inductive Move (κ α : Type) where
  | start (call : κ) (answer : α)
  | resume (index : ℕ) (answer : α)

variable {σ κ π α : Type}

def Task.next (task : Task κ π α) (answer : α) (point : π) : Task κ π α :=
  ⟨task.call, point, task.past ++ [(task.point, answer)]⟩

namespace Program

variable (program : Program σ κ π α)

def move (pool : Pool σ κ π α) : Move κ α → Option (Pool σ κ π α)
  | .start call answer =>
      let next := program.enter call answer pool.shared
      some ⟨next.1, pool.tasks ++ [⟨call, next.2, []⟩]⟩
  | .resume index answer =>
      match pool.tasks[index]? with
      | none => none
      | some task =>
          (program.resume task.call task.point answer pool.shared).map
            (fun next =>
              ⟨next.1, pool.tasks.set index (task.next answer next.2)⟩)

def run (pool : Pool σ κ π α) : List (Move κ α) → Option (Pool σ κ π α)
  | [] => some pool
  | m :: rest => (program.move pool m).bind (fun next => run next rest)

/-- Each move of the run meets a condition on the pool it is made in. -/
def Meets (cond : Pool σ κ π α → Move κ α → Prop) (pool : Pool σ κ π α) :
    List (Move κ α) → Prop
  | [] => True
  | m :: rest =>
      cond pool m ∧ ∀ next, program.move pool m = some next →
        Meets cond next rest

variable {program}

/-! ## What a move does -/

theorem move_start {pool : Pool σ κ π α} {call : κ} {answer : α} :
    program.move pool (.start call answer) =
      some ⟨(program.enter call answer pool.shared).1,
        pool.tasks ++
          [⟨call, (program.enter call answer pool.shared).2, []⟩]⟩ := rfl

theorem move_resume {pool pool' : Pool σ κ π α} {index : ℕ} {answer : α} :
    program.move pool (.resume index answer) = some pool' ↔
      ∃ task shared point, pool.tasks[index]? = some task ∧
        program.resume task.call task.point answer pool.shared =
          some (shared, point) ∧
        pool' = ⟨shared, pool.tasks.set index (task.next answer point)⟩ := by
  simp only [move]
  cases htask : pool.tasks[index]? with
  | none => simp
  | some task =>
      simp only [Option.map_eq_some_iff, Option.some.injEq]
      constructor
      · rintro ⟨⟨shared, point⟩, hresume, hpool⟩
        exact ⟨task, shared, point, rfl, hresume, hpool.symm⟩
      · rintro ⟨found, shared, point, rfl, hresume, hpool⟩
        exact ⟨(shared, point), hresume, hpool.symm⟩

/-- The task that was started last goes on. -/
theorem move_resume_last {shared : σ} {tasks : List (Task κ π α)}
    {task : Task κ π α} {answer : α} :
    program.move ⟨shared, tasks ++ [task]⟩ (.resume tasks.length answer) =
      (program.resume task.call task.point answer shared).map (fun next =>
        ⟨next.1, tasks ++ [task.next answer next.2]⟩) := by
  simp only [move, List.getElem?_concat_length, List.set_append,
    lt_irrefl, if_false, Nat.sub_self, List.set_cons_zero]

/-- A task after a resumption is the resumed one or one that stood
elsewhere. -/
theorem mem_set_cases {tasks : List (Task κ π α)} {index : ℕ}
    {task other : Task κ π α} (h : other ∈ tasks.set index task) :
    other = task ∨ ∃ position, position ≠ index ∧
      tasks[position]? = some other := by
  obtain ⟨position, hposition⟩ := List.mem_iff_getElem?.mp h
  rw [List.getElem?_set] at hposition
  by_cases hsame : index = position
  · rw [if_pos hsame] at hposition
    split at hposition
    next =>
      rw [Option.some.injEq] at hposition
      exact Or.inl hposition.symm
    next => simp at hposition
  · rw [if_neg hsame] at hposition
    exact Or.inr ⟨position, fun heq => hsame heq.symm, hposition⟩

/-- A task after a start is the new one or one that stood there before. -/
theorem getElem?_append_cases {task other : Task κ π α}
    {tasks : List (Task κ π α)} {i : ℕ}
    (h : (tasks ++ [task])[i]? = some other) :
    tasks[i]? = some other ∨ i = tasks.length ∧ other = task := by
  rcases Nat.lt_trichotomy i tasks.length with hlt | heq | hgt
  · rw [List.getElem?_append_left hlt] at h
    exact Or.inl h
  · rw [heq, List.getElem?_concat_length, Option.some.injEq] at h
    exact Or.inr ⟨heq, h.symm⟩
  · rw [List.getElem?_append_right hgt.le] at h
    have hnone : ([task] : List (Task κ π α))[i - tasks.length]? =
        none := by
      rw [List.getElem?_eq_none_iff, List.length_singleton]
      omega
    rw [hnone] at h
    simp at h

/-- A task stays, or goes on. -/
theorem mem_set_of_mem {tasks : List (Task κ π α)} {index : ℕ}
    {task next other : Task κ π α} (htask : tasks[index]? = some task)
    (h : other ∈ tasks) :
    other ∈ tasks.set index next ∨
      other = task ∧ next ∈ tasks.set index next := by
  obtain ⟨position, hposition⟩ := List.mem_iff_getElem?.mp h
  by_cases hsame : position = index
  · rw [hsame, htask, Option.some.injEq] at hposition
    have hlt := (List.getElem?_eq_some_iff.mp htask).1
    exact Or.inr ⟨hposition.symm, List.mem_set hlt next⟩
  · left
    rw [← List.getElem?_set_ne (fun heq => hsame heq.symm)] at hposition
    exact List.mem_of_getElem? hposition

/-! ## Invariants of the pool -/

theorem run_cons {pool next : Pool σ κ π α} {m : Move κ α}
    {moves : List (Move κ α)} (hmove : program.move pool m = some next) :
    program.run pool (m :: moves) = program.run next moves := by
  rw [run, hmove, Option.bind_some]

theorem run_append (pool : Pool σ κ π α) (moves more : List (Move κ α)) :
    program.run pool (moves ++ more) =
      (program.run pool moves).bind (fun next => program.run next more) := by
  induction moves generalizing pool with
  | nil => rfl
  | cons m rest ih =>
      rw [List.cons_append, run, run]
      cases program.move pool m with
      | none => rfl
      | some next => exact ih next

theorem run_resume_last {shared next : σ} {tasks : List (Task κ π α)}
    {task : Task κ π α} {answer : α} {point : π} {moves : List (Move κ α)}
    (hresume : program.resume task.call task.point answer shared =
      some (next, point)) :
    program.run ⟨shared, tasks ++ [task]⟩
        (.resume tasks.length answer :: moves) =
      program.run ⟨next, tasks ++ [task.next answer point]⟩ moves := by
  apply run_cons
  rw [move_resume_last, hresume, Option.map_some]

/-- An invariant that every move of a run keeps holds where the run ends. -/
theorem run_induction {cond : Pool σ κ π α → Move κ α → Prop}
    {inv : Pool σ κ π α → Prop}
    (hmove : ∀ pool m pool', inv pool → cond pool m →
      program.move pool m = some pool' → inv pool')
    {pool pool' : Pool σ κ π α} {moves : List (Move κ α)} (hinv : inv pool)
    (hmeets : program.Meets cond pool moves)
    (hrun : program.run pool moves = some pool') : inv pool' := by
  induction moves generalizing pool with
  | nil =>
      rw [run, Option.some.injEq] at hrun
      rwa [← hrun]
  | cons m rest ih =>
      obtain ⟨next, hnext, hrest⟩ := Option.bind_eq_some_iff.mp hrun
      have hinv' := hmove pool m next hinv hmeets.1 hnext
      exact ih hinv' (hmeets.2 next hnext) hrest

/-- A run meets a condition when each of its moves does, in the pool that the
moves before it lead to. -/
theorem meets_iff {cond : Pool σ κ π α → Move κ α → Prop}
    {pool : Pool σ κ π α} {moves : List (Move κ α)} :
    program.Meets cond pool moves ↔
      ∀ before m after, moves = before ++ m :: after →
        ∀ reached, program.run pool before = some reached →
          cond reached m := by
  induction moves generalizing pool with
  | nil =>
      constructor
      · intro _ before m after hsplit
        simp at hsplit
      · intro _
        trivial
  | cons head rest ih =>
      constructor
      · intro hmeets before m after hsplit reached hrun
        cases before with
        | nil =>
            obtain ⟨hhead, -⟩ := List.cons.inj hsplit
            rw [← Option.some.inj hrun, ← hhead]
            exact hmeets.1
        | cons first before =>
            obtain ⟨hhead, htail⟩ := List.cons.inj hsplit
            obtain ⟨next, hnext, hrest⟩ := Option.bind_eq_some_iff.mp hrun
            rw [← hhead] at hnext
            exact ih.mp (hmeets.2 next hnext) before m after htail reached
              hrest
      · intro h
        refine ⟨h [] head rest rfl pool rfl, fun next hnext => ?_⟩
        apply ih.mpr
        intro before m after hsplit reached hrun
        apply h (head :: before) m after (by rw [hsplit]; rfl) reached
        rw [run_cons hnext]
        exact hrun

theorem Meets.before {cond : Pool σ κ π α → Move κ α → Prop}
    {pool : Pool σ κ π α} {before after : List (Move κ α)}
    (h : program.Meets cond pool (before ++ after)) :
    program.Meets cond pool before := by
  apply meets_iff.mpr
  intro first m rest hsplit
  apply meets_iff.mp h first m (rest ++ after)
  rw [hsplit, List.append_assoc, List.cons_append]

theorem Meets.after {cond : Pool σ κ π α → Move κ α → Prop}
    {pool reached : Pool σ κ π α} {before after : List (Move κ α)}
    (h : program.Meets cond pool (before ++ after))
    (hrun : program.run pool before = some reached) :
    program.Meets cond reached after := by
  apply meets_iff.mpr
  intro first m rest hsplit last hlast
  apply meets_iff.mp h (before ++ first) m rest
  · rw [hsplit, List.append_assoc]
  · rw [run_append, hrun]
    exact hlast

theorem Meets.append {cond : Pool σ κ π α → Move κ α → Prop}
    {pool : Pool σ κ π α} {before after : List (Move κ α)}
    (h : program.Meets cond pool before)
    (hafter : ∀ reached, program.run pool before = some reached →
      program.Meets cond reached after) :
    program.Meets cond pool (before ++ after) := by
  induction before generalizing pool with
  | nil => exact hafter pool rfl
  | cons m rest ih =>
      refine ⟨h.1, fun next hnext => ih (h.2 next hnext) ?_⟩
      intro reached hrun
      apply hafter reached
      rw [run_cons hnext]
      exact hrun

theorem meets_of_forall {cond : Pool σ κ π α → Move κ α → Prop}
    {moves : List (Move κ α)} (h : ∀ m ∈ moves, ∀ pool, cond pool m)
    (pool : Pool σ κ π α) : program.Meets cond pool moves := by
  induction moves generalizing pool with
  | nil => trivial
  | cons m rest ih =>
      have hrest := fun other hmem => h other (List.mem_cons_of_mem m hmem)
      exact ⟨h m List.mem_cons_self pool, fun next _ => ih hrest next⟩

theorem meets_true (pool : Pool σ κ π α) (moves : List (Move κ α)) :
    program.Meets (fun _ _ => True) pool moves :=
  meets_of_forall (fun _ _ _ => trivial) pool

theorem Meets.and {cond cond' : Pool σ κ π α → Move κ α → Prop}
    {pool : Pool σ κ π α} {moves : List (Move κ α)}
    (h : program.Meets cond pool moves) (h' : program.Meets cond' pool moves) :
    program.Meets (fun pool m => cond pool m ∧ cond' pool m) pool moves := by
  induction moves generalizing pool with
  | nil => trivial
  | cons m rest ih =>
      exact ⟨⟨h.1, h'.1⟩,
        fun next hnext => ih (h.2 next hnext) (h'.2 next hnext)⟩

theorem Meets.mono {cond cond' : Pool σ κ π α → Move κ α → Prop}
    (hmono : ∀ pool m, cond pool m → cond' pool m) {pool : Pool σ κ π α}
    {moves : List (Move κ α)} (h : program.Meets cond pool moves) :
    program.Meets cond' pool moves := by
  induction moves generalizing pool with
  | nil => trivial
  | cons m rest ih =>
      exact ⟨hmono pool m h.1, fun next hnext => ih (h.2 next hnext)⟩

/-! ## Invariants of each call -/

/-- Of the shared state an invariant, and of each call a fact about its past
and where it waits, that the steps of the calls keep. -/
structure Local (program : Program σ κ π α) (inv : σ → Prop)
    (fact : κ → List (π × α) → π → Prop) : Prop where
  enter : ∀ call answer shared, inv shared →
    inv (program.enter call answer shared).1 ∧
      fact call [] (program.enter call answer shared).2
  resume : ∀ call past point answer shared shared' point', inv shared →
    fact call past point →
    program.resume call point answer shared = some (shared', point') →
    inv shared' ∧ fact call (past ++ [(point, answer)]) point'

theorem Local.move {inv : σ → Prop} {fact : κ → List (π × α) → π → Prop}
    (h : Local program inv fact) {pool pool' : Pool σ κ π α} {m : Move κ α}
    (hinv : inv pool.shared ∧
      ∀ task ∈ pool.tasks, fact task.call task.past task.point)
    (hmove : program.move pool m = some pool') :
    inv pool'.shared ∧
      ∀ task ∈ pool'.tasks, fact task.call task.past task.point := by
  obtain ⟨hshared, htasks⟩ := hinv
  cases m with
  | start call answer =>
      rw [move_start, Option.some.injEq] at hmove
      subst hmove
      obtain ⟨hnext, hfact⟩ := h.enter call answer pool.shared hshared
      refine ⟨hnext, fun task hmem => ?_⟩
      rcases List.mem_append.mp hmem with hold | hnew
      · exact htasks task hold
      · rw [List.mem_singleton.mp hnew]
        exact hfact
  | resume index answer =>
      obtain ⟨task, shared, point, htask, hresume, rfl⟩ :=
        move_resume.mp hmove
      have hold := htasks task (List.mem_of_getElem? htask)
      obtain ⟨hnext, hfact⟩ := h.resume _ _ _ _ _ _ _ hshared hold hresume
      refine ⟨hnext, fun other hmem => ?_⟩
      rcases mem_set_cases hmem with heq | ⟨position, -, hother⟩
      · rw [heq]
        exact hfact
      · exact htasks other (List.mem_of_getElem? hother)

/-- The facts hold of every call of a run. -/
theorem Local.run {inv : σ → Prop} {fact : κ → List (π × α) → π → Prop}
    (h : Local program inv fact) {pool pool' : Pool σ κ π α}
    {moves : List (Move κ α)}
    (hinv : inv pool.shared ∧
      ∀ task ∈ pool.tasks, fact task.call task.past task.point)
    (hrun : program.run pool moves = some pool') :
    inv pool'.shared ∧
      ∀ task ∈ pool'.tasks, fact task.call task.past task.point :=
  @run_induction _ _ _ _ program (fun _ _ => True)
    (fun pool => inv pool.shared ∧
      ∀ task ∈ pool.tasks, fact task.call task.past task.point)
    (fun _ _ _ hinv _ hmove => h.move hinv hmove) _ _ _ hinv
    (meets_true pool moves) hrun

end Program
end Awaits
