import Orvex.Concurrency.Undisturbed
import Orvex.Foundation.Tables

/-!
# Actions as scripts

An action on a store that is taken statement by statement is a script that
may throw.  Such scripts are composed as the actions are, and a script that
runs alone does what its action does.
-/

namespace ReadCommitted

/-- A script that may throw. -/
def Steps (σ κ ε α : Type) : Type := Script σ κ (Except ε α)

namespace Script

variable {σ κ α β : Type}

/-- What a script that nobody disturbs returns, with the writes that it has
not committed and the tables. -/
def final : Script σ κ α → List (Write σ κ) → σ →
    α × List (Write σ κ) × σ
  | .done result, pending, tables => (result, pending, tables)
  | .read next, pending, tables =>
      (next (overlay pending tables)).final pending tables
  | .write plan next failed, pending, tables =>
      match plan (overlay pending tables) with
      | some own =>
          (next (overlay pending tables)).final (pending ++ [own]) tables
      | none => failed.final pending tables
  | .commit next, pending, tables => next.final [] (overlay pending tables)
  | .rollback next, _, tables => next.final [] tables

theorem alone_eq_final (script : Script σ κ α) (pending : List (Write σ κ))
    (tables : σ) :
    script.alone pending tables =
      ((script.final pending tables).1, (script.final pending tables).2.2) := by
  induction script generalizing pending tables with
  | done result => rfl
  | read next ih => exact ih _ pending tables
  | write plan next failed ih ihFailed =>
      rw [alone, final]
      cases plan (overlay pending tables) with
      | none => exact ihFailed pending tables
      | some own => exact ih _ (pending ++ [own]) tables
  | commit next ih => exact ih [] (overlay pending tables)
  | rollback next ih => exact ih [] tables

theorem final_andThen (after : α → Script σ κ β) (script : Script σ κ α)
    (pending : List (Write σ κ)) (tables : σ) :
    (script.andThen after).final pending tables =
      (after (script.final pending tables).1).final
        (script.final pending tables).2.1
        (script.final pending tables).2.2 := by
  induction script generalizing pending tables with
  | done result => rfl
  | read next ih => exact ih _ pending tables
  | write plan next failed ih ihFailed =>
      rw [andThen, final, final]
      cases plan (overlay pending tables) with
      | none => exact ihFailed pending tables
      | some own => exact ih _ (pending ++ [own]) tables
  | commit next ih => exact ih [] (overlay pending tables)
  | rollback next ih => exact ih [] tables

theorem andThen_andThen {γ : Type} (after : α → Script σ κ β)
    (last : β → Script σ κ γ) (script : Script σ κ α) :
    (script.andThen after).andThen last =
      script.andThen (fun a => (after a).andThen last) := by
  induction script with
  | done result => rfl
  | read next ih => exact congrArg Script.read (funext ih)
  | write plan next failed ih ihFailed =>
      simp only [andThen, ih, ihFailed]
  | commit next ih => exact congrArg Script.commit ih
  | rollback next ih => exact congrArg Script.rollback ih

end Script

namespace Steps

variable {σ κ ε ρ α β : Type}

/-- What follows a value; an exception is passed on. -/
def follow (next : α → Steps σ κ ε β) :
    Except ε α → Script σ κ (Except ε β)
  | .ok a => next a
  | .error e => .done (.error e)

instance : Monad (Steps σ κ ε) where
  pure a := Script.done (.ok a)
  bind steps next := Script.andThen (follow next) steps

theorem bind_assoc {γ : Type} (steps : Steps σ κ ε α)
    (next : α → Steps σ κ ε β) (last : β → Steps σ κ ε γ) :
    steps >>= next >>= last = steps >>= fun a => next a >>= last := by
  refine (Script.andThen_andThen (follow next) (follow last) steps).trans ?_
  apply congrArg (fun after => Script.andThen after steps)
  funext result
  cases result with
  | ok a => rfl
  | error e => rfl

/-! ## Statements -/

/-- What is known without a statement. -/
def ofExcept (result : Except ε α) : Steps σ κ ε α := Script.done result

def fail (e : ε) : Steps σ κ ε α := ofExcept (.error e)

def ofOption (e : ε) : Option α → Steps σ κ ε α
  | some a => pure a
  | none => fail e

def query (f : σ → α) : Steps σ κ ε α :=
  Script.read (fun seen => .done (.ok (f seen)))

/-- The value that comes with a plan. -/
def planned (refused : ε) : Option (Write σ κ × α) → Except ε α
  | some own => .ok own.2
  | none => .error refused

/-- A write with the value that it returns. -/
def write (plan : σ → Option (Write σ κ × α)) (refused : ε) :
    Steps σ κ ε α :=
  Script.write (fun seen => (plan seen).map Prod.fst)
    (fun seen => .done (planned refused (plan seen)))
    (.done (.error refused))

/-- The end of a transaction. -/
def conclude : Except ε α → Script σ κ (Except ε α)
  | .ok a => .commit (.done (.ok a))
  | .error e => .rollback (.done (.error e))

/-- The statements as one transaction.  A statement outside of one is a
transaction of its own. -/
def transaction (body : Steps σ κ ε α) : Steps σ κ ε α :=
  Script.andThen conclude body

/-- The statements, with an answer for each result. -/
def answering {γ : Type} (answer : Except ε α → γ) (steps : Steps σ κ ε α) :
    Script σ κ γ :=
  Script.andThen (fun result => .done (answer result)) steps

/-! ## Tables -/

section

variable (t : Table σ ρ)

/-- A new row, which also locks its keys. -/
def create (keys : List κ) (refused : ε) (allowed : σ → Bool) (row : ρ) :
    Steps σ κ ε ρ :=
  write (fun seen =>
    if (t.lookup (t.key row) seen).isNone && allowed seen then
      some (⟨keys, t.insert row⟩, row)
    else none) refused

def update (name : String → κ) (missing : ε) (id : String)
    (change : ρ → ρ) : Steps σ κ ε ρ :=
  write (fun seen => (t.lookup id seen).map (fun row =>
    (⟨[name id], t.modify id change⟩, change row))) missing

/-- The rows that an update finds. -/
def matching (p : ρ → Bool) (seen : σ) : List String :=
  ((t.rows seen).filter p).map t.key

/-- The rows that were found are locked, and those that still match are
written. -/
def updateMany (name : String → κ) (p : ρ → Bool) (change : ρ → ρ) :
    Steps σ κ ε Unit :=
  Script.write (fun seen =>
    some ⟨(matching t p seen).map name,
      t.modifyAll (fun row =>
        decide (t.key row ∈ matching t p seen) && p row) change⟩)
    (fun _ => .done (.ok ())) (.done (.ok ()))

end

/-! ## Statements that run alone -/

/-- Inside a transaction the statements do what the action does, on the
tables that their session sees. -/
def Computes (steps : Steps σ κ ε α) (x : Fallible σ ε α) : Prop :=
  ∀ pending tables, ∃ later,
    Script.final steps pending tables =
      ((x (overlay pending tables)).1, later, tables) ∧
    overlay later tables = (x (overlay pending tables)).2

/-- The statements do what the action does, and leave nothing
uncommitted. -/
def Performs (steps : Steps σ κ ε α) (x : Fallible σ ε α) : Prop :=
  ∀ tables, Script.final steps [] tables =
    ((x tables).1, [], (x tables).2)

theorem Computes.bind {steps : Steps σ κ ε α} {x : Fallible σ ε α}
    {next : α → Steps σ κ ε β} {k : α → Fallible σ ε β}
    (h : Computes steps x) (hnext : ∀ a, Computes (next a) (k a)) :
    Computes (steps >>= next) (x >>= k) := by
  intro pending tables
  obtain ⟨later, hfinal, hlater⟩ := h pending tables
  have hsteps := Script.final_andThen (follow next) steps pending tables
  rw [hfinal] at hsteps
  cases hrun : x (overlay pending tables) with
  | mk result seen =>
      rw [hrun] at hsteps hlater
      cases result with
      | ok a =>
          obtain ⟨last, hlast, hover⟩ := hnext a later tables
          rw [hlater] at hlast hover
          rw [Fallible.bind_of_ok hrun]
          exact ⟨last, hsteps.trans hlast, hover⟩
      | error e =>
          rw [Fallible.bind_of_error hrun]
          exact ⟨later, hsteps, hlater⟩

theorem computes_pure (a : α) :
    Computes (pure a : Steps σ κ ε α) (pure a) :=
  fun pending _ => ⟨pending, rfl, rfl⟩

theorem computes_query (f : σ → α) :
    Computes (query f : Steps σ κ ε α) (Fallible.query f) :=
  fun pending _ => ⟨pending, rfl, rfl⟩

theorem computes_fail (e : ε) :
    Computes (fail e : Steps σ κ ε α) (Fallible.fail e) :=
  fun pending _ => ⟨pending, rfl, rfl⟩

theorem computes_ofOption (e : ε) (o : Option α) :
    Computes (ofOption e o : Steps σ κ ε α) (Fallible.ofOption e o) := by
  cases o with
  | none => exact fun pending _ => ⟨pending, rfl, rfl⟩
  | some a => exact fun pending _ => ⟨pending, rfl, rfl⟩

theorem Computes.ite {condition : Prop} [Decidable condition]
    {steps steps' : Steps σ κ ε α} {x y : Fallible σ ε α}
    (h : Computes steps x) (h' : Computes steps' y) :
    Computes (if condition then steps else steps')
      (if condition then x else y) := by
  split
  · exact h
  · exact h'

theorem computes_write {plan : σ → Option (Write σ κ × α)} {refused : ε}
    {x : Fallible σ ε α}
    (hplanned : ∀ seen own a, plan seen = some (own, a) →
      x seen = (.ok a, own.effect seen))
    (hrefused : ∀ seen, plan seen = none → x seen = (.error refused, seen)) :
    Computes (write plan refused) x := by
  intro pending tables
  rw [write, Script.final]
  cases hplan : plan (overlay pending tables) with
  | none =>
      rw [hrefused _ hplan]
      exact ⟨pending, rfl, rfl⟩
  | some found =>
      rw [hplanned _ found.1 found.2 hplan]
      exact ⟨pending ++ [found.1], rfl, overlay_append_singleton _ _ _⟩

theorem computes_create (t : Table σ ρ) (keys : List κ) (refused : ε)
    (allowed : σ → Bool) (row : ρ) :
    Computes (create t keys refused allowed row)
      (t.create refused allowed row) := by
  apply computes_write
  · intro seen own a hplan
    obtain ⟨hallowed, hplan⟩ := Option.ite_none_right_eq_some.mp hplan
    cases hplan
    rw [Bool.and_eq_true, Option.isNone_iff_eq_none] at hallowed
    exact Table.create_eq_ok.mpr ⟨hallowed.1, hallowed.2, rfl, rfl⟩
  · intro seen hplan
    unfold Table.create
    rw [Fallible.query_bind, if_neg (fun h => ?_)]
    · rfl
    · rw [if_pos h] at hplan
      cases hplan

theorem computes_update (t : Table σ ρ) (name : String → κ) (missing : ε)
    (id : String) (change : ρ → ρ) :
    Computes (update t name missing id change)
      (t.update missing id change) := by
  apply computes_write
  · intro seen own a hplan
    obtain ⟨row, hrow, heq⟩ := Option.map_eq_some_iff.mp hplan
    cases heq
    exact Table.update_eq_ok.mpr ⟨row, hrow, rfl, rfl⟩
  · intro seen hplan
    unfold Table.update
    rw [Fallible.query_bind, Option.map_eq_none_iff.mp hplan]
    rfl

theorem modifyAll_matching (t : Table σ ρ) (p : ρ → Bool) (change : ρ → ρ)
    (seen : σ) :
    t.modifyAll (fun row => decide (t.key row ∈ matching t p seen) && p row)
        change seen = t.modifyAll p change seen := by
  unfold Table.modifyAll
  congr 1
  apply List.map_congr_left
  intro row hrow
  by_cases hp : p row = true
  · have hmem : t.key row ∈ matching t p seen :=
      List.mem_map_of_mem (List.mem_filter.mpr ⟨hrow, hp⟩)
    simp only [hmem, decide_true, Bool.true_and]
  · simp only [hp, Bool.and_false]

theorem computes_updateMany (t : Table σ ρ) (name : String → κ)
    (p : ρ → Bool) (change : ρ → ρ) :
    Computes (updateMany t name p change : Steps σ κ ε Unit)
      (t.updateMany p change) := by
  intro pending tables
  refine ⟨_, rfl, ?_⟩
  rw [overlay_append_singleton]
  exact modifyAll_matching t p change (overlay pending tables)

theorem Computes.performs_transaction {body : Steps σ κ ε α}
    {x : Fallible σ ε α} (h : Computes body x) :
    Performs (transaction body) (Fallible.transaction x) := by
  intro tables
  obtain ⟨later, hfinal, hlater⟩ := h [] tables
  have hsteps := Script.final_andThen conclude body [] tables
  rw [overlay_nil] at hfinal hlater
  rw [hfinal] at hsteps
  refine hsteps.trans ?_
  unfold Fallible.transaction
  cases hrun : x tables with
  | mk result seen =>
      rw [hrun] at hlater
      cases result with
      | ok a => simp only [conclude, Script.final, hlater]
      | error e => rfl

/-- A statement that leaves no trace when it fails needs no transaction. -/
theorem Computes.performs_single {body : Steps σ κ ε α} {x : Fallible σ ε α}
    (h : Computes body x) (hx : Fallible.AllOrNothing x) :
    Performs (transaction body) x := by
  intro tables
  rw [h.performs_transaction tables]
  unfold Fallible.transaction
  rcases hx tables with ⟨e, hfailed⟩ | ⟨a, seen, hdone⟩
  · rw [hfailed]
  · rw [hdone]

theorem Performs.bind {steps : Steps σ κ ε α} {x : Fallible σ ε α}
    {next : α → Steps σ κ ε β} {k : α → Fallible σ ε β}
    (h : Performs steps x) (hnext : ∀ a, Performs (next a) (k a)) :
    Performs (steps >>= next) (x >>= k) := by
  intro tables
  have hsteps := Script.final_andThen (follow next) steps [] tables
  rw [h tables] at hsteps
  cases hrun : x tables with
  | mk result seen =>
      rw [hrun] at hsteps
      cases result with
      | ok a =>
          rw [Fallible.bind_of_ok hrun, ← hnext a seen]
          exact hsteps
      | error e =>
          rw [Fallible.bind_of_error hrun]
          exact hsteps

theorem performs_query (f : σ → α) :
    Performs (query f : Steps σ κ ε α) (Fallible.query f) :=
  fun _ => rfl

theorem performs_fail (e : ε) :
    Performs (fail e : Steps σ κ ε α) (Fallible.fail e) :=
  fun _ => rfl

theorem Performs.ite {condition : Prop} [Decidable condition]
    {steps steps' : Steps σ κ ε α} {x y : Fallible σ ε α}
    (h : Performs steps x) (h' : Performs steps' y) :
    Performs (if condition then steps else steps')
      (if condition then x else y) := by
  split
  · exact h
  · exact h'

theorem Performs.alone {steps : Steps σ κ ε α} {x : Fallible σ ε α}
    (h : Performs steps x) {γ : Type} (answer : Except ε α → γ)
    (tables : σ) :
    (steps.answering answer).alone [] tables =
      (answer (x tables).1, (x tables).2) := by
  have hsteps := Script.final_andThen
    (fun result => Script.done (answer result)) steps [] tables
  rw [h tables] at hsteps
  rw [Script.alone_eq_final]
  exact congrArg (fun ended => (ended.1, ended.2.2)) hsteps

/-! ## Safe statements -/

section

variable {γ ο : Type} {inv : σ → Prop} {rel : σ → σ → Prop} {ok : σ → Prop}
  {observe : σ → ο} {post : γ → ο → Prop} {answer : Except ε α → γ}
  {pending : List (Write σ κ)} {o : ο}

/-- The script of the statements is safe. -/
abbrev Safe (inv : σ → Prop) (rel : σ → σ → Prop) (ok : σ → Prop)
    (observe : σ → ο) (post : γ → ο → Prop) (answer : Except ε α → γ)
    (steps : Steps σ κ ε α) (pending : List (Write σ κ)) (o : ο) : Prop :=
  (steps.answering answer).Safe inv rel ok observe post pending o

theorem safe_query {f : σ → β} {k : β → Steps σ κ ε α}
    (h : ∀ tables, inv tables → ok tables → observe tables = o →
      Safe inv rel ok observe post answer (k (f (overlay pending tables)))
        pending o) :
    Safe inv rel ok observe post answer (query f >>= k) pending o := h

theorem safe_transaction_query {f : σ → β} {k : β → Steps σ κ ε α}
    (h : ∀ tables, inv tables → ok tables → observe tables = o →
      Safe inv rel ok observe post answer
        (transaction (k (f (overlay pending tables)))) pending o) :
    Safe inv rel ok observe post answer (transaction (query f >>= k))
      pending o := h

/-- An exception ends the statements. -/
theorem safe_throw {e : ε} {k : β → Steps σ κ ε α} (h : post (answer (.error e)) o) :
    Safe inv rel ok observe post answer (ofExcept (.error e) >>= k) pending
      o := h

theorem safe_transaction_throw {e : ε} {k : β → Steps σ κ ε α}
    (h : post (answer (.error e)) o) :
    Safe inv rel ok observe post answer
      (transaction (ofExcept (.error e) >>= k)) pending o := h

theorem safe_transaction_write {plan : σ → Option (Write σ κ × β)}
    {refused : ε} {k : β → Steps σ κ ε α}
    (hplanned : ∀ tables, inv tables → ok tables → observe tables = o →
      ∀ own a, plan (overlay pending tables) = some (own, a) →
        Safe inv rel ok observe post answer (transaction (k a))
          (pending ++ [own]) o)
    (hrefused : post (answer (.error refused)) o) :
    Safe inv rel ok observe post answer
      (transaction (write plan refused >>= k)) pending o := by
  intro tables hinv hok hobserve
  constructor
  · intro own hown
    obtain ⟨found, hfound, heq⟩ := Option.map_eq_some_iff.mp hown
    have hsafe := hplanned tables hinv hok hobserve found.1 found.2 hfound
    rw [← heq]
    beta_reduce
    rw [hfound]
    exact hsafe
  · intro _
    exact hrefused

theorem safe_transaction_updateMany {t : Table σ ρ} {name : String → κ}
    {p : ρ → Bool} {change : ρ → ρ} {k : Unit → Steps σ κ ε α}
    (h : ∀ tables, inv tables → ok tables → observe tables = o →
      Safe inv rel ok observe post answer (transaction (k ()))
        (pending ++
          [⟨(matching t p (overlay pending tables)).map name,
            t.modifyAll (fun row =>
              decide (t.key row ∈ matching t p (overlay pending tables)) &&
                p row) change⟩]) o) :
    Safe inv rel ok observe post answer
      (transaction (updateMany t name p change >>= k)) pending o := by
  intro tables hinv hok hobserve
  constructor
  · intro own hown
    rw [← Option.some.inj hown]
    exact h tables hinv hok hobserve
  · intro hnone
    cases hnone

/-- A write that ends its transaction. -/
theorem safe_transaction_last {plan : σ → Option (Write σ κ × α)}
    {refused : ε}
    (hplanned : ∀ tables, inv tables → ok tables → observe tables = o →
      ∀ own a, plan (overlay pending tables) = some (own, a) →
        ∀ later, inv later → ok later → observe later = o →
          inv (own.effect (overlay pending later)) ∧
            rel later (own.effect (overlay pending later)) ∧
              post (answer (.ok a))
                (observe (own.effect (overlay pending later))))
    (hrefused : post (answer (.error refused)) o) :
    Safe inv rel ok observe post answer (transaction (write plan refused))
      pending o := by
  intro tables hinv hok hobserve
  constructor
  · intro own hown
    obtain ⟨found, hfound, heq⟩ := Option.map_eq_some_iff.mp hown
    have hsafe := hplanned tables hinv hok hobserve found.1 found.2 hfound
    rw [← heq]
    beta_reduce
    rw [hfound]
    intro later hlater hokLater hsame
    rw [overlay_append_singleton]
    exact hsafe later hlater hokLater hsame
  · intro _
    exact hrefused

/-- The end of a transaction publishes its writes. -/
theorem safe_transaction_pure {a : α}
    (h : ∀ tables, inv tables → ok tables → observe tables = o →
      inv (overlay pending tables) ∧ rel tables (overlay pending tables) ∧
        post (answer (.ok a)) (observe (overlay pending tables))) :
    Safe inv rel ok observe post answer (transaction (pure a)) pending o := h

end

end Steps

end ReadCommitted
