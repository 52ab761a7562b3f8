import Mathlib.Data.Fintype.Basic
import Mathlib.Data.Set.Function
import Mathlib.Logic.Function.Basic
import Mathlib.Tactic

/-!
# Sessions of a database under READ COMMITTED

A session executes one statement at a time.  A query sees the committed
tables with the session's own unfinished writes on top; a locking read and
a write wait until no other session holds the rows they name; a commit
publishes the unfinished writes and frees the rows.  A schedule chooses the
session that moves next, and may also lose a session, which rolls it back.

The file fixes nothing about the tables `σ`, the lockable rows `κ` or the
program points `π`.  Its rules are used by name afterwards: what one event
can do, invariants of whole schedules, exclusive locks, and the protection
a row lock gives to what was read under it.
-/

namespace ReadCommitted

/-- What a write does once it runs: the rows it locks and its effect. -/
structure Write (σ κ : Type*) where
  keys : List κ
  effect : σ → σ

/-- One database statement and the program points that may follow it.  A
write, and the point after it, is planned on the tables its session sees; no
plan is a constraint violation. -/
inductive Stmt (σ κ π : Type*) where
  | read (next : σ → π)
  | lock (key : κ) (next : σ → π)
  | write (plan : σ → Option (Write σ κ × π)) (failed : π)
  | commit (next : π)
  | rollback (next : π)
  | halt

/-- The statement at each program point, and the point at which a session
finds itself once its connection is lost. -/
structure Program (σ κ π : Type*) where
  stmt : π → Stmt σ κ π
  lost : π → π

structure Session (σ κ π : Type*) where
  point : π
  pending : List (Write σ κ)
  held : List κ

/-- A session that starts at a program point, outside any transaction. -/
def Session.start (σ κ : Type*) {π : Type*} (point : π) : Session σ κ π :=
  ⟨point, [], []⟩

/-- The tables as a session with these unfinished writes sees them. -/
def overlay {σ κ : Type*} (pending : List (Write σ κ)) (tables : σ) : σ :=
  pending.foldl (fun seen write => write.effect seen) tables

@[simp] theorem overlay_nil {σ κ : Type*} (tables : σ) :
    overlay ([] : List (Write σ κ)) tables = tables := rfl

@[simp] theorem overlay_cons {σ κ : Type*} (write : Write σ κ)
    (pending : List (Write σ κ)) (tables : σ) :
    overlay (write :: pending) tables =
      overlay pending (write.effect tables) := rfl

@[simp] theorem overlay_append_singleton {σ κ : Type*}
    (pending : List (Write σ κ)) (write : Write σ κ) (tables : σ) :
    overlay (pending ++ [write]) tables =
      write.effect (overlay pending tables) := by
  simp [overlay]

structure Machine (ι σ κ π : Type*) where
  committed : σ
  sessions : ι → Session σ κ π

inductive Event (ι : Type*) where
  | run (session : ι)
  | lose (session : ι)
  deriving DecidableEq

def Event.session {ι : Type*} : Event ι → ι
  | .run session => session
  | .lose session => session

section

variable {ι σ κ π : Type*} [DecidableEq ι]

def Machine.view (machine : Machine ι σ κ π) (i : ι) : σ :=
  overlay (machine.sessions i).pending machine.committed

def Machine.put (machine : Machine ι σ κ π) (i : ι)
    (session : Session σ κ π) : Machine ι σ κ π :=
  { machine with sessions := Function.update machine.sessions i session }

@[simp] theorem Machine.put_committed (machine : Machine ι σ κ π) (i : ι)
    (session : Session σ κ π) :
    (machine.put i session).committed = machine.committed := rfl

@[simp] theorem Machine.put_sessions_self (machine : Machine ι σ κ π)
    (i : ι) (session : Session σ κ π) :
    (machine.put i session).sessions i = session := by
  simp [Machine.put]

theorem Machine.put_sessions_of_ne (machine : Machine ι σ κ π)
    {i j : ι} (hne : j ≠ i) (session : Session σ κ π) :
    (machine.put i session).sessions j = machine.sessions j := by
  simp [Machine.put, hne]

/-- No session but `i` holds the row. -/
def Machine.Free (machine : Machine ι σ κ π) (i : ι) (key : κ) : Prop :=
  ∀ j, j ≠ i → key ∉ (machine.sessions j).held

instance [Fintype ι] [DecidableEq κ] (machine : Machine ι σ κ π) (i : ι)
    (key : κ) : Decidable (machine.Free i key) :=
  inferInstanceAs (Decidable (∀ j, j ≠ i → key ∉ (machine.sessions j).held))

/-- The commit of session `i`, which continues at `next`. -/
def Machine.publish (machine : Machine ι σ κ π) (i : ι) (next : π) :
    Machine ι σ κ π :=
  ⟨machine.view i,
    Function.update machine.sessions i (Session.start σ κ next)⟩

@[simp] theorem Machine.publish_committed (machine : Machine ι σ κ π)
    (i : ι) (next : π) :
    (machine.publish i next).committed = machine.view i := rfl

@[simp] theorem Machine.publish_sessions_self (machine : Machine ι σ κ π)
    (i : ι) (next : π) :
    (machine.publish i next).sessions i = Session.start σ κ next := by
  simp [Machine.publish]

theorem Machine.publish_sessions_of_ne (machine : Machine ι σ κ π)
    {i j : ι} (hne : j ≠ i) (next : π) :
    (machine.publish i next).sessions j = machine.sessions j := by
  simp [Machine.publish, hne]

/-- One event, as a relation with one case for each thing a session can do. -/
inductive Step (program : Program σ κ π) (machine : Machine ι σ κ π) :
    Event ι → Machine ι σ κ π → Prop
  | read {i : ι} {next : σ → π}
      (hstmt : program.stmt (machine.sessions i).point = .read next) :
      Step program machine (.run i)
        (machine.put i
          { machine.sessions i with point := next (machine.view i) })
  | lock {i : ι} {key : κ} {next : σ → π}
      (hstmt : program.stmt (machine.sessions i).point = .lock key next)
      (hfree : machine.Free i key) :
      Step program machine (.run i)
        (machine.put i
          { machine.sessions i with
            point := next (machine.view i)
            held := key :: (machine.sessions i).held })
  | write {i : ι} {plan : σ → Option (Write σ κ × π)} {next failed : π}
      {write : Write σ κ}
      (hstmt : program.stmt (machine.sessions i).point = .write plan failed)
      (hplan : plan (machine.view i) = some (write, next))
      (hfree : ∀ key ∈ write.keys, machine.Free i key) :
      Step program machine (.run i)
        (machine.put i
          ⟨next, (machine.sessions i).pending ++ [write],
            write.keys ++ (machine.sessions i).held⟩)
  | violate {i : ι} {plan : σ → Option (Write σ κ × π)} {failed : π}
      (hstmt : program.stmt (machine.sessions i).point = .write plan failed)
      (hplan : plan (machine.view i) = none) :
      Step program machine (.run i)
        (machine.put i { machine.sessions i with point := failed })
  | commit {i : ι} {next : π}
      (hstmt : program.stmt (machine.sessions i).point = .commit next) :
      Step program machine (.run i) (machine.publish i next)
  | rollback {i : ι} {next : π}
      (hstmt : program.stmt (machine.sessions i).point = .rollback next) :
      Step program machine (.run i) (machine.put i (.start σ κ next))
  | lose {i : ι}
      (hstmt : program.stmt (machine.sessions i).point ≠ .halt) :
      Step program machine (.lose i)
        (machine.put i
          (.start σ κ (program.lost (machine.sessions i).point)))

/-- The same event, executed.  `none` is an event that cannot happen: the
session has halted or waits for a row. -/
def Machine.step [Fintype ι] [DecidableEq κ] (program : Program σ κ π)
    (machine : Machine ι σ κ π) : Event ι → Option (Machine ι σ κ π)
  | .run i =>
      let session := machine.sessions i
      match program.stmt session.point with
      | .read next =>
          some (machine.put i { session with point := next (machine.view i) })
      | .lock key next =>
          if machine.Free i key then
            some (machine.put i
              { session with
                point := next (machine.view i)
                held := key :: session.held })
          else none
      | .write plan failed =>
          match plan (machine.view i) with
          | some (write, next) =>
              if ∀ key ∈ write.keys, machine.Free i key then
                some (machine.put i
                  ⟨next, session.pending ++ [write],
                    write.keys ++ session.held⟩)
              else none
          | none => some (machine.put i { session with point := failed })
      | .commit next => some (machine.publish i next)
      | .rollback next => some (machine.put i (.start σ κ next))
      | .halt => none
  | .lose i =>
      match program.stmt (machine.sessions i).point with
      | .halt => none
      | _ =>
          some (machine.put i
            (.start σ κ (program.lost (machine.sessions i).point)))

/-- Everything an executed event can do. -/
theorem Machine.step_cases [Fintype ι] [DecidableEq κ]
    {program : Program σ κ π} {machine next : Machine ι σ κ π}
    {event : Event ι} (hstep : machine.step program event = some next) :
    Step program machine event next := by
  cases event with
  | run i =>
      simp only [Machine.step] at hstep
      split at hstep
      next hstmt =>
        cases hstep
        exact .read hstmt
      next hstmt =>
        split at hstep
        next hfree =>
          cases hstep
          exact .lock hstmt hfree
        next => contradiction
      next hstmt =>
        split at hstep
        next hplan =>
          split at hstep
          next hfree =>
            cases hstep
            exact .write hstmt hplan hfree
          next => contradiction
        next hplan =>
          cases hstep
          exact .violate hstmt hplan
      next hstmt =>
        cases hstep
        exact .commit hstmt
      next hstmt =>
        cases hstep
        exact .rollback hstmt
      next => contradiction
  | lose i =>
      simp only [Machine.step] at hstep
      split at hstep
      next => contradiction
      next hstmt =>
        cases hstep
        exact .lose hstmt

/-- A schedule, executed event by event. -/
def Machine.run [Fintype ι] [DecidableEq κ] (program : Program σ κ π)
    (machine : Machine ι σ κ π) :
    List (Event ι) → Option (Machine ι σ κ π)
  | [] => some machine
  | event :: rest =>
      (machine.step program event).bind (fun next => next.run program rest)

theorem Machine.run_append [Fintype ι] [DecidableEq κ]
    (program : Program σ κ π) (machine : Machine ι σ κ π)
    (before after : List (Event ι)) :
    machine.run program (before ++ after) =
      (machine.run program before).bind
        (fun middle => middle.run program after) := by
  induction before generalizing machine with
  | nil => rfl
  | cons event before ih =>
      simp only [List.cons_append, Machine.run]
      cases machine.step program event with
      | none => rfl
      | some next => exact ih next

/-- What `note` records at each event of a schedule. -/
def Machine.collect [Fintype ι] [DecidableEq κ] {β : Type*}
    (program : Program σ κ π) (note : Machine ι σ κ π → Event ι → List β) :
    Machine ι σ κ π → List (Event ι) → List β
  | _, [] => []
  | machine, event :: rest =>
      note machine event ++
        match machine.step program event with
        | some next => next.collect program note rest
        | none => []

/-- The invariant rule with a record of the past: what holds of a machine
and the record so far is kept by every event that extends the record. -/
theorem Machine.run_induction_collect [Fintype ι] [DecidableEq κ]
    {β : Type*} {program : Program σ κ π}
    {note : Machine ι σ κ π → Event ι → List β}
    {Inv : Machine ι σ κ π → List β → Prop}
    (hkeep : ∀ machine past event next, Inv machine past →
      Step program machine event next →
      Inv next (past ++ note machine event))
    {machine final : Machine ι σ κ π} {past : List β}
    {schedule : List (Event ι)} (hinv : Inv machine past)
    (hrun : machine.run program schedule = some final) :
    Inv final (past ++ machine.collect program note schedule) := by
  induction schedule generalizing machine past with
  | nil =>
      simp only [Machine.run, Option.some.injEq] at hrun
      subst final
      simpa [Machine.collect] using hinv
  | cons event rest ih =>
      simp only [Machine.run, Option.bind_eq_some_iff] at hrun
      obtain ⟨next, hstep, hrest⟩ := hrun
      have hnext :=
        hkeep machine past event next hinv (machine.step_cases hstep)
      have hfinal := ih hnext hrest
      rw [List.append_assoc] at hfinal
      simpa only [Machine.collect, hstep] using hfinal

/-- The invariant rule: what every event keeps, every schedule keeps. -/
theorem Machine.run_induction [Fintype ι] [DecidableEq κ]
    {program : Program σ κ π} {Inv : Machine ι σ κ π → Prop}
    (hkeep : ∀ machine event next, Inv machine →
      Step program machine event next → Inv next)
    {machine final : Machine ι σ κ π} {schedule : List (Event ι)}
    (hinv : Inv machine)
    (hrun : machine.run program schedule = some final) : Inv final := by
  have hfinal :=
    @Machine.run_induction_collect ι σ κ π _ _ _ Unit program
      (fun _ _ => []) (fun machine _ => Inv machine)
      (fun machine _ event next h hstep => hkeep machine event next h hstep)
      machine final [] schedule hinv hrun
  exact hfinal

end

end ReadCommitted
