import Orvex.Concurrency.RowLocks
import Orvex.Concurrency.Scripts

/-!
# Scripts among others

A script is judged on its own, among sessions that may change the tables
between any two of its statements.  What they may change is a relation that
depends on the rows the script has locked; in return every commit of the
script is a change that the scripts without those rows have to expect.
-/

namespace ReadCommitted

variable {ι σ κ α : Type} [DecidableEq ι]

/-- The changes of the tables that a session has to expect while it holds
some rows. -/
structure Rely (σ κ : Type) where
  moves : List κ → σ → σ → Prop
  refl : ∀ held tables, moves held tables tables
  trans : ∀ held a b c, moves held a b → moves held b c → moves held a c

/-- What a script guarantees after it has seen these tables, where `ok`
holds whenever it moves: its commits are changes that sessions without its
rows expect, and its result is one that `post` allows from then on. -/
def Script.Guaranteed (rely : Rely σ κ) (ok : σ → Prop)
    (post : α → σ → Prop) :
    Script σ κ α → List (Write σ κ) → List κ → σ → Prop
  | .done result, _, held, seen => ∀ tables, rely.moves held seen tables →
      post result tables
  | .read next, pending, held, seen => ∀ tables,
      rely.moves held seen tables → ok tables →
        (next (overlay pending tables)).Guaranteed rely ok post pending held
          tables
  | .write plan next failed, pending, held, seen => ∀ tables,
      rely.moves held seen tables → ok tables →
        (∀ own, plan (overlay pending tables) = some own →
          (next (overlay pending tables)).Guaranteed rely ok post
            (pending ++ [own]) (own.keys ++ held) tables) ∧
        (plan (overlay pending tables) = none →
          failed.Guaranteed rely ok post pending held tables)
  | .commit next, pending, held, seen => ∀ tables,
      rely.moves held seen tables → ok tables →
        (∀ others : List κ, (∀ key ∈ others, key ∉ held) →
          rely.moves others tables (overlay pending tables)) ∧
        next.Guaranteed rely ok post [] [] (overlay pending tables)
  | .rollback next, _, held, seen => ∀ tables,
      rely.moves held seen tables → ok tables →
        next.Guaranteed rely ok post [] [] tables

/-- `ok` holds whenever a session moves. -/
def Machine.Respects [Fintype ι] [DecidableEq κ] (gone : α)
    (ok : ι → σ → Prop) :
    Machine ι σ κ (Script σ κ α) → List (Event ι) → Prop
  | _, [] => True
  | machine, event :: rest =>
      (∀ i, event = .run i → ok i machine.committed) ∧
      ∀ next, machine.step (Script.program gone) event = some next →
        next.Respects gone ok rest

variable {gone : α} {rely : Rely σ κ} {ok : ι → σ → Prop}
  {post : ι → α → σ → Prop}

omit [DecidableEq ι] in
theorem Script.Guaranteed.moved {ok : σ → Prop} {post : α → σ → Prop}
    {script : Script σ κ α} {pending : List (Write σ κ)} {held : List κ}
    {seen tables : σ}
    (h : script.Guaranteed rely ok post pending held seen)
    (hmoved : rely.moves held seen tables) :
    script.Guaranteed rely ok post pending held tables := by
  cases script <;> exact fun later hlater =>
    h later (rely.trans _ _ _ _ hmoved hlater)

omit [DecidableEq ι] in
/-- A script that goes on with another one after its result. -/
theorem Script.Guaranteed.andThen {β : Type} {ok : σ → Prop}
    {found : α → σ → Prop} {post : β → σ → Prop}
    {script : Script σ κ α} {pending : List (Write σ κ)} {held : List κ}
    {seen : σ} (h : script.Guaranteed rely ok found pending held seen)
    {after : α → Script σ κ β}
    (hafter : ∀ result pending held seen,
      (∀ tables, rely.moves held seen tables → found result tables) →
        (after result).Guaranteed rely ok post pending held seen) :
    (script.andThen after).Guaranteed rely ok post pending held seen := by
  induction script generalizing pending held seen with
  | done result => exact hafter result pending held seen h
  | read next ih =>
      exact fun tables hmoved hok => ih _ (h tables hmoved hok)
  | write plan next failed ihnext ihfailed =>
      intro tables hmoved hok
      obtain ⟨hnext, hfailed⟩ := h tables hmoved hok
      exact ⟨fun own hplan => ihnext _ (hnext own hplan),
        fun hplan => ihfailed (hfailed hplan)⟩
  | commit next ih =>
      intro tables hmoved hok
      obtain ⟨hothers, hnext⟩ := h tables hmoved hok
      exact ⟨hothers, ih hnext⟩
  | rollback next ih =>
      exact fun tables hmoved hok => ih (h tables hmoved hok)

omit [DecidableEq ι] in
/-- A script of which one statement fails, in tables with an invariant. -/
theorem Script.Guaranteed.failing {ok inv : σ → Prop} {post : α → σ → Prop}
    {failed : Script σ κ α}
    (hinv : ∀ held a b, rely.moves held a b → inv a → inv b)
    (hfailed : ∀ tables, inv tables → ok tables →
      failed.Guaranteed rely ok post [] [] tables) (n : ℕ)
    {script : Script σ κ α} {pending : List (Write σ κ)} {held : List κ}
    {seen : σ} (hseen : inv seen)
    (h : script.Guaranteed rely ok post pending held seen) :
    (script.failing failed n).Guaranteed rely ok post pending held seen := by
  induction script generalizing n pending held seen with
  | done result => cases n <;> exact h
  | read next ih =>
      cases n with
      | zero =>
          exact fun tables hmoved hok =>
            hfailed tables (hinv _ _ _ hmoved hseen) hok
      | succ n =>
          exact fun tables hmoved hok =>
            ih _ n (hinv _ _ _ hmoved hseen) (h tables hmoved hok)
  | write plan next other ihnext ihother =>
      cases n with
      | zero =>
          exact fun tables hmoved hok =>
            hfailed tables (hinv _ _ _ hmoved hseen) hok
      | succ n =>
          intro tables hmoved hok
          have htables := hinv _ _ _ hmoved hseen
          obtain ⟨hnext, hother⟩ := h tables hmoved hok
          exact ⟨fun own hplan => ihnext _ n htables (hnext own hplan),
            fun hplan => ihother n htables (hother hplan)⟩
  | commit next ih =>
      cases n with
      | zero =>
          exact fun tables hmoved hok =>
            hfailed tables (hinv _ _ _ hmoved hseen) hok
      | succ n =>
          intro tables hmoved hok
          have htables := hinv _ _ _ hmoved hseen
          obtain ⟨hothers, hnext⟩ := h tables hmoved hok
          have hempty := hothers [] (fun key hmem =>
            absurd hmem List.not_mem_nil)
          exact ⟨hothers, ih n (hinv _ _ _ hempty htables) hnext⟩
  | rollback next ih =>
      cases n with
      | zero =>
          exact fun tables hmoved hok =>
            hfailed tables (hinv _ _ _ hmoved hseen) hok
      | succ n =>
          exact fun tables hmoved hok =>
            ih n (hinv _ _ _ hmoved hseen) (h tables hmoved hok)

/-- Locks are exclusive, and every session keeps its guarantee, unless it is
lost. -/
structure Machine.Guarding (gone : α) (rely : Rely σ κ) (ok : ι → σ → Prop)
    (post : ι → α → σ → Prop) (machine : Machine ι σ κ (Script σ κ α)) :
    Prop where
  locked : machine.RowLocked (fun _ _ => ())
  session : ∀ i, (machine.sessions i).point = .done gone ∨
    (machine.sessions i).point.Guaranteed rely (ok i) (post i)
      (machine.sessions i).pending (machine.sessions i).held
      machine.committed

omit [DecidableEq ι] in
theorem Machine.Guarding.of_point {machine : Machine ι σ κ (Script σ κ α)}
    (h : machine.Guarding gone rely ok post) {i : ι} {script : Script σ κ α}
    (hpoint : (machine.sessions i).point = script)
    (hscript : ∀ result, script ≠ .done result) :
    script.Guaranteed rely (ok i) (post i) (machine.sessions i).pending
      (machine.sessions i).held machine.committed := by
  rcases h.session i with hgone | hsafe
  · exact absurd (hpoint.symm.trans hgone) (hscript gone)
  · rw [hpoint] at hsafe
    exact hsafe

theorem Machine.Guarding.put {machine : Machine ι σ κ (Script σ κ α)}
    (h : machine.Guarding gone rely ok post) {i : ι}
    {session : Session σ κ (Script σ κ α)}
    (hlocked : (machine.put i session).RowLocked (fun _ _ => ()))
    (hsession : session.point = .done gone ∨
      session.point.Guaranteed rely (ok i) (post i) session.pending
        session.held machine.committed) :
    (machine.put i session).Guarding gone rely ok post := by
  refine ⟨hlocked, fun j => ?_⟩
  by_cases hj : j = i
  · subst hj
    rw [Machine.put_sessions_self]
    exact hsession
  · rw [Machine.put_sessions_of_ne machine hj]
    exact h.session j

theorem Machine.Guarding.publish {machine : Machine ι σ κ (Script σ κ α)}
    (h : machine.Guarding gone rely ok post) {i : ι} {next : Script σ κ α}
    (hpoint : (machine.sessions i).point = .commit next)
    (hok : ok i machine.committed)
    (hlocked : (machine.publish i next).RowLocked (fun _ _ => ())) :
    (machine.publish i next).Guarding gone rely ok post := by
  have hown := h.of_point hpoint (fun _ => by simp)
  obtain ⟨hothers, hrest⟩ := hown _ (rely.refl _ _) hok
  refine ⟨hlocked, fun j => ?_⟩
  by_cases hj : j = i
  · subst hj
    rw [Machine.publish_sessions_self]
    exact Or.inr hrest
  · rw [Machine.publish_sessions_of_ne machine hj]
    have hapart : ∀ key ∈ (machine.sessions j).held,
        key ∉ (machine.sessions i).held :=
      fun key hmem => h.locked.exclusive j i key hj hmem
    exact (h.session j).imp_right
      (fun hsafe => hsafe.moved (hothers _ hapart))

theorem Machine.Guarding.step {machine next : Machine ι σ κ (Script σ κ α)}
    {event : Event ι} (h : machine.Guarding gone rely ok post)
    (hok : ∀ i, event = .run i → ok i machine.committed)
    (hstep : Step (Script.program gone) machine event next) :
    next.Guarding gone rely ok post ∧
      rely.moves [] machine.committed next.committed := by
  have hframes : Program.Frames (fun (_ : κ) (_ : σ) => ())
      (Script.program (σ := σ) gone) :=
    fun _ _ _ _ _ _ _ _ _ _ _ => rfl
  have hlocked := h.locked.step hframes hstep
  have hrefl := rely.refl
  cases hstep.script with
  | @read i rest hpoint =>
      have hown := h.of_point hpoint (fun _ => by simp)
      exact ⟨h.put hlocked (Or.inr (hown _ (hrefl _ _) (hok i rfl))),
        hrefl _ _⟩
  | @write i plan rest failed own hpoint hplan hfree =>
      have hown := h.of_point hpoint (fun _ => by simp)
      exact ⟨h.put hlocked
        (Or.inr ((hown _ (hrefl _ _) (hok i rfl)).1 own hplan)), hrefl _ _⟩
  | @violate i plan rest failed hpoint hplan =>
      have hown := h.of_point hpoint (fun _ => by simp)
      exact ⟨h.put hlocked
        (Or.inr ((hown _ (hrefl _ _) (hok i rfl)).2 hplan)), hrefl _ _⟩
  | @rollback i rest hpoint =>
      have hown := h.of_point hpoint (fun _ => by simp)
      exact ⟨h.put hlocked (Or.inr (hown _ (hrefl _ _) (hok i rfl))),
        hrefl _ _⟩
  | @lose i hpoint => exact ⟨h.put hlocked (Or.inl rfl), hrefl _ _⟩
  | @commit i rest hpoint =>
      have hown := h.of_point hpoint (fun _ => by simp)
      refine ⟨h.publish hpoint (hok i rfl) hlocked, ?_⟩
      exact (hown _ (hrefl _ _) (hok i rfl)).1 [] (by simp)

/-- The rule: what every script guarantees on its own holds in every run of
all of them. -/
theorem Machine.guaranteed_run [Fintype ι] [DecidableEq κ]
    {machine final : Machine ι σ κ (Script σ κ α)}
    {schedule : List (Event ι)} (h : machine.Guarding gone rely ok post)
    (hok : machine.Respects gone ok schedule)
    (hrun : machine.run (Script.program gone) schedule = some final) :
    final.Guarding gone rely ok post ∧
      rely.moves [] machine.committed final.committed := by
  induction schedule generalizing machine with
  | nil =>
      simp only [Machine.run, Option.some.injEq] at hrun
      subst hrun
      exact ⟨h, rely.refl _ _⟩
  | cons event rest ih =>
      simp only [Machine.run, Option.bind_eq_some_iff] at hrun
      obtain ⟨next, hstep, hrest⟩ := hrun
      obtain ⟨hnow, hlater⟩ := hok
      obtain ⟨hnext, hmoved⟩ := h.step hnow (machine.step_cases hstep)
      obtain ⟨hfinal, hmoves⟩ := ih hnext (hlater next hstep) hrest
      exact ⟨hfinal, rely.trans _ _ _ _ hmoved hmoves⟩

/-- Where nothing is asked of the runs, all of them are admitted. -/
theorem Machine.respects_true [Fintype ι] [DecidableEq κ]
    (machine : Machine ι σ κ (Script σ κ α)) (schedule : List (Event ι)) :
    machine.Respects gone (fun _ _ => True) schedule := by
  induction schedule generalizing machine with
  | nil => trivial
  | cons event rest ih =>
      exact ⟨fun _ _ => trivial, fun next _ => ih next⟩

theorem Machine.respects_and [Fintype ι] [DecidableEq κ]
    {ok' : ι → σ → Prop} {machine : Machine ι σ κ (Script σ κ α)}
    {schedule : List (Event ι)} (h : machine.Respects gone ok schedule)
    (h' : machine.Respects gone ok' schedule) :
    machine.Respects gone (fun i tables => ok i tables ∧ ok' i tables)
      schedule := by
  induction schedule generalizing machine with
  | nil => trivial
  | cons event rest ih =>
      exact ⟨fun i hevent => ⟨h.1 i hevent, h'.1 i hevent⟩,
        fun next hnext => ih (h.2 next hnext) (h'.2 next hnext)⟩

theorem Machine.respects_cons [Fintype ι] [DecidableEq κ]
    {machine : Machine ι σ κ (Script σ κ α)} {event : Event ι}
    {rest : List (Event ι)} :
    machine.Respects gone ok (event :: rest) ↔
      (∀ i, event = .run i → ok i machine.committed) ∧
        match machine.step (Script.program gone) event with
        | none => True
        | some next => next.Respects gone ok rest := by
  rw [Machine.Respects]
  cases machine.step (Script.program gone) event <;> simp

omit [DecidableEq ι] in
theorem Machine.guarding_starting {tables : σ} {scripts : ι → Script σ κ α}
    (h : ∀ i, (scripts i).Guaranteed rely (ok i) (post i) [] [] tables) :
    (Machine.starting tables scripts).Guarding gone rely ok post :=
  ⟨Machine.rowLocked_of_start _ (fun _ => ⟨_, rfl⟩), fun i => Or.inr (h i)⟩

omit [DecidableEq ι] in
/-- The result of a session that has ended. -/
theorem Machine.Guarding.result {machine : Machine ι σ κ (Script σ κ α)}
    (h : machine.Guarding gone rely ok post) {i : ι} {result : α}
    (hdone : (machine.sessions i).point = .done result)
    (hresult : result ≠ gone) : post i result machine.committed := by
  rcases h.session i with hgone | hsafe
  · exact absurd (Script.done.inj (hdone.symm.trans hgone)) hresult
  · rw [hdone] at hsafe
    exact hsafe _ (rely.refl _ _)

end ReadCommitted
