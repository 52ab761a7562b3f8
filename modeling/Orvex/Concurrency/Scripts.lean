import Orvex.Concurrency.ReadCommitted

/-!
# Calls as scripts of statements

A script is the sequence of statements that one call executes, each chosen
by what the statements before it returned.  Scripts are the program points
of a program under READ COMMITTED, and a script that runs alone is a
function of the tables.
-/

namespace ReadCommitted

inductive Script (σ κ α : Type) where
  | done (result : α)
  | read (next : σ → Script σ κ α)
  | write (plan : σ → Option (Write σ κ)) (next : σ → Script σ κ α)
      (failed : Script σ κ α)
  | commit (next : Script σ κ α)
  | rollback (next : Script σ κ α)

namespace Script

variable {σ κ α : Type}

def stmt : Script σ κ α → Stmt σ κ (Script σ κ α)
  | .done _ => .halt
  | .read next => .read next
  | .write plan next failed =>
      .write (fun seen => (plan seen).map (fun own => (own, next seen)))
        failed
  | .commit next => .commit next
  | .rollback next => .rollback next

/-- Every session runs a script; one that is lost ends with `gone`. -/
def program (gone : α) : Program σ κ (Script σ κ α) :=
  ⟨stmt, fun _ => .done gone⟩

/-- What a script returns and leaves when no other session moves. -/
def alone : Script σ κ α → List (Write σ κ) → σ → α × σ
  | .done result, _, tables => (result, tables)
  | .read next, pending, tables =>
      (next (overlay pending tables)).alone pending tables
  | .write plan next failed, pending, tables =>
      match plan (overlay pending tables) with
      | some own =>
          (next (overlay pending tables)).alone (pending ++ [own]) tables
      | none => failed.alone pending tables
  | .commit next, pending, tables =>
      next.alone [] (overlay pending tables)
  | .rollback next, _, tables => next.alone [] tables

/-- The script, and then another one that is chosen by its result. -/
def andThen {β : Type} (after : α → Script σ κ β) :
    Script σ κ α → Script σ κ β
  | .done result => after result
  | .read next => .read (fun seen => (next seen).andThen after)
  | .write plan next failed =>
      .write plan (fun seen => (next seen).andThen after)
        (failed.andThen after)
  | .commit next => .commit (next.andThen after)
  | .rollback next => .rollback (next.andThen after)

/-- The script whose statement with this number, counted from zero, fails:
its transaction is rolled back and `failed` follows. -/
def failing : Script σ κ α → Script σ κ α → ℕ → Script σ κ α
  | .done result, _, _ => .done result
  | _, failed, 0 => .rollback failed
  | .read next, failed, n + 1 =>
      .read (fun seen => (next seen).failing failed n)
  | .write plan next other, failed, n + 1 =>
      .write plan (fun seen => (next seen).failing failed n)
        (other.failing failed n)
  | .commit next, failed, n + 1 => .commit (next.failing failed n)
  | .rollback next, failed, n + 1 => .rollback (next.failing failed n)

/-- The result of a script that has ended. -/
def result? : Script σ κ α → Option α
  | .done result => some result
  | _ => none

theorem eq_done_of_result {script : Script σ κ α} {result : α}
    (h : script.result? = some result) : script = .done result := by
  cases script with
  | done found => rw [Option.some.inj h]
  | _ => simp [result?] at h

/-- A statement outside a transaction: a write with its own commit. -/
def single (plan : σ → Option (Write σ κ)) (next : σ → Script σ κ α)
    (failed : Script σ κ α) : Script σ κ α :=
  .write plan (fun seen => .commit (next seen)) (.rollback failed)

/-- A write that nothing can refuse. -/
def always (own : Write σ κ) (next : Script σ κ α) : Script σ κ α :=
  .write (fun _ => some own) (fun _ => next) next

/-- A locking read: it waits for the row, and writes nothing. -/
def locking (key : κ) (next : σ → Script σ κ α) : Script σ κ α :=
  .write (fun _ => some ⟨[key], id⟩) next (.read next)

end Script

/-! ## What a session can do -/

section

variable {ι σ κ α : Type} [DecidableEq ι]

/-- One event of sessions that run scripts. -/
inductive ScriptStep (gone : α) (machine : Machine ι σ κ (Script σ κ α)) :
    Event ι → Machine ι σ κ (Script σ κ α) → Prop
  | read {i : ι} {next : σ → Script σ κ α}
      (hpoint : (machine.sessions i).point = .read next) :
      ScriptStep gone machine (.run i)
        (machine.put i
          { machine.sessions i with point := next (machine.view i) })
  | write {i : ι} {plan : σ → Option (Write σ κ)}
      {next : σ → Script σ κ α} {failed : Script σ κ α} {write : Write σ κ}
      (hpoint : (machine.sessions i).point = .write plan next failed)
      (hplan : plan (machine.view i) = some write)
      (hfree : ∀ key ∈ write.keys, machine.Free i key) :
      ScriptStep gone machine (.run i)
        (machine.put i
          ⟨next (machine.view i), (machine.sessions i).pending ++ [write],
            write.keys ++ (machine.sessions i).held⟩)
  | violate {i : ι} {plan : σ → Option (Write σ κ)}
      {next : σ → Script σ κ α} {failed : Script σ κ α}
      (hpoint : (machine.sessions i).point = .write plan next failed)
      (hplan : plan (machine.view i) = none) :
      ScriptStep gone machine (.run i)
        (machine.put i { machine.sessions i with point := failed })
  | commit {i : ι} {next : Script σ κ α}
      (hpoint : (machine.sessions i).point = .commit next) :
      ScriptStep gone machine (.run i) (machine.publish i next)
  | rollback {i : ι} {next : Script σ κ α}
      (hpoint : (machine.sessions i).point = .rollback next) :
      ScriptStep gone machine (.run i) (machine.put i (.start σ κ next))
  | lose {i : ι} (hpoint : ∀ result, (machine.sessions i).point ≠
      .done result) :
      ScriptStep gone machine (.lose i)
        (machine.put i (.start σ κ (.done gone)))

theorem Step.script {gone : α} {machine next : Machine ι σ κ (Script σ κ α)}
    {event : Event ι}
    (hstep : Step (Script.program gone) machine event next) :
    ScriptStep gone machine event next := by
  cases hstep with
  | @read i rest hstmt =>
      cases hpoint : (machine.sessions i).point with
      | read other =>
          rw [hpoint] at hstmt
          obtain rfl : other = rest := by simpa [Script.program, Script.stmt]
            using hstmt
          exact .read hpoint
      | _ =>
          rw [hpoint] at hstmt
          simp [Script.program, Script.stmt] at hstmt
  | @lock i key rest hstmt hfree =>
      cases hpoint : (machine.sessions i).point <;>
        rw [hpoint] at hstmt <;> simp [Script.program, Script.stmt] at hstmt
  | @write i plan rest failed write hstmt hplan hfree =>
      cases hpoint : (machine.sessions i).point with
      | write own after other =>
          rw [hpoint] at hstmt
          simp only [Script.program, Script.stmt, Stmt.write.injEq] at hstmt
          obtain ⟨rfl, rfl⟩ := hstmt
          obtain ⟨found, hfound, heq⟩ := Option.map_eq_some_iff.mp hplan
          rw [Prod.mk.injEq] at heq
          obtain ⟨rfl, rfl⟩ := heq
          exact .write hpoint hfound hfree
      | _ =>
          rw [hpoint] at hstmt
          simp [Script.program, Script.stmt] at hstmt
  | @violate i plan failed hstmt hplan =>
      cases hpoint : (machine.sessions i).point with
      | write own after other =>
          rw [hpoint] at hstmt
          simp only [Script.program, Script.stmt, Stmt.write.injEq] at hstmt
          obtain ⟨rfl, rfl⟩ := hstmt
          exact .violate hpoint (Option.map_eq_none_iff.mp hplan)
      | _ =>
          rw [hpoint] at hstmt
          simp [Script.program, Script.stmt] at hstmt
  | @commit i rest hstmt =>
      cases hpoint : (machine.sessions i).point with
      | commit other =>
          rw [hpoint] at hstmt
          obtain rfl : other = rest := by simpa [Script.program, Script.stmt]
            using hstmt
          exact .commit hpoint
      | _ =>
          rw [hpoint] at hstmt
          simp [Script.program, Script.stmt] at hstmt
  | @rollback i rest hstmt =>
      cases hpoint : (machine.sessions i).point with
      | rollback other =>
          rw [hpoint] at hstmt
          obtain rfl : other = rest := by simpa [Script.program, Script.stmt]
            using hstmt
          exact .rollback hpoint
      | _ =>
          rw [hpoint] at hstmt
          simp [Script.program, Script.stmt] at hstmt
  | @lose i hstmt =>
      refine .lose (fun result hdone => hstmt ?_)
      rw [hdone]
      rfl

/-! ## Steps of a session outside a transaction -/

section

variable [Fintype ι] [DecidableEq κ] {gone : α}
  {machine : Machine ι σ κ (Script σ κ α)} {i : ι}

theorem Machine.step_read {next : σ → Script σ κ α}
    (hsession : machine.sessions i = .start σ κ (.read next)) :
    machine.step (Script.program gone) (.run i) =
      some (machine.put i (.start σ κ (next machine.committed))) := by
  simp [Machine.step, Script.program, Script.stmt, hsession, Session.start,
    Machine.view]

/-- A single statement that is planned and meets no lock. -/
theorem Machine.run_single {plan : σ → Option (Write σ κ)}
    {next : σ → Script σ κ α} {failed : Script σ κ α} {own : Write σ κ}
    (hsession : machine.sessions i =
      .start σ κ (.single plan next failed))
    (hplan : plan machine.committed = some own)
    (hfree : ∀ key ∈ own.keys, machine.Free i key) :
    machine.run (Script.program gone) [.run i, .run i] =
      some ⟨own.effect machine.committed,
        Function.update machine.sessions i
          (.start σ κ (next machine.committed))⟩ := by
  have hwritten : machine.step (Script.program gone) (.run i) =
      some (machine.put i
        ⟨.commit (next machine.committed), [own], own.keys⟩) := by
    simp [Machine.step, Script.program, Script.stmt, Script.single, hsession,
      Session.start, Machine.view, hplan, if_pos hfree]
  simp only [Machine.run, hwritten, Option.bind_some]
  simp [Machine.step, Script.program, Script.stmt, Machine.publish,
    Machine.put, Machine.view, Session.start]

end

omit [DecidableEq ι] in
theorem Machine.free_of_idle {machine : Machine ι σ κ (Script σ κ α)}
    (h : ∀ j, (machine.sessions j).held = []) (i : ι) (key : κ) :
    machine.Free i key := by
  intro j _ hmem
  rw [h j] at hmem
  exact absurd hmem List.not_mem_nil

/-- Sessions that are about to run these scripts. -/
def Machine.starting (tables : σ) (scripts : ι → Script σ κ α) :
    Machine ι σ κ (Script σ κ α) :=
  ⟨tables, fun i => .start σ κ (scripts i)⟩

end

end ReadCommitted
