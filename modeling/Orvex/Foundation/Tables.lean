import Orvex.Foundation.Action
import Orvex.Foundation.KeyedTable

/-!
# The tables of a store

A table of a store `σ` is a list of rows that can be read and replaced.
Rows are created, updated by key, and updated together.  `Preserves` says
that an action leaves a part of the store as it was.
-/

structure Table (σ ρ : Type) where
  key : ρ → String
  rows : σ → List ρ
  put : List ρ → σ → σ
  rows_put : ∀ l s, rows (put l s) = l

namespace Fallible

variable {σ ε α β : Type}

/-- The action leaves what `f` reads as it was. -/
def Preserves (f : σ → β) (x : Fallible σ ε α) : Prop :=
  ∀ b, Keeps (fun s => f s = b) x

section

variable {γ : Type} {f : σ → γ}

theorem Preserves.apply {x : Fallible σ ε α} (h : Preserves f x) (s : σ) :
    f (x s).2 = f s := h _ s rfl

theorem preserves_pure (a : α) : Preserves f (pure a : Fallible σ ε α) :=
  fun _ => keeps_pure a

theorem preserves_query (g : σ → α) :
    Preserves f (query g : Fallible σ ε α) :=
  fun _ => keeps_query g

theorem preserves_fail (e : ε) : Preserves f (fail e : Fallible σ ε α) :=
  fun _ => keeps_fail e

theorem preserves_ofOption (e : ε) (o : Option α) :
    Preserves f (ofOption e o : Fallible σ ε α) :=
  fun _ => keeps_ofOption e o

theorem preserves_change {g : σ → σ} (hg : ∀ s, f (g s) = f s) :
    Preserves f (change g : Fallible σ ε Unit) :=
  fun _ => keeps_change (fun s hs => (hg s).trans hs)

theorem Preserves.bind {x : Fallible σ ε α} {k : α → Fallible σ ε β}
    (hx : Preserves f x) (hk : ∀ a, Preserves f (k a)) :
    Preserves f (x >>= k) :=
  fun b => (hx b).bind (fun a => hk a b)

theorem Preserves.attempt {x : Fallible σ ε α} (hx : Preserves f x) :
    Preserves f (Fallible.attempt x) :=
  fun b => (hx b).attempt

theorem Preserves.transaction {x : Fallible σ ε α} (hx : Preserves f x) :
    Preserves f (Fallible.transaction x) :=
  fun b => (hx b).transaction

/-- What holds of a part of the store keeps holding. -/
theorem Preserves.keeps {x : Fallible σ ε α} (hx : Preserves f x)
    (p : γ → Prop) : Keeps (fun s => p (f s)) x := by
  intro s hs
  rw [hx.apply s]
  exact hs

end

/-! ## Actions that fail without a trace -/

/-- The action leaves the store as it was when it fails. -/
def AllOrNothing (x : Fallible σ ε α) : Prop :=
  ∀ s, (∃ e, x s = (.error e, s)) ∨ ∃ a t, x s = (.ok a, t)

theorem allOrNothing_transaction (x : Fallible σ ε α) :
    AllOrNothing (transaction x) := by
  intro s
  cases hrun : transaction x s with
  | mk result t =>
      cases result with
      | ok a => exact Or.inr ⟨a, t, rfl⟩
      | error e => exact Or.inl ⟨e, by rw [transaction_eq_error hrun]⟩

/-- Steps that only read may come before the one that writes. -/
theorem AllOrNothing.bind {x : Fallible σ ε α} {k : α → Fallible σ ε β}
    (hx : Preserves id x) (hk : ∀ a, AllOrNothing (k a)) :
    AllOrNothing (x >>= k) := by
  intro s
  have hstate : (x s).2 = s := hx.apply s
  cases hrun : x s with
  | mk result t =>
      rw [hrun] at hstate
      subst hstate
      cases result with
      | ok a => rw [bind_of_ok hrun]; exact hk a t
      | error e => exact Or.inl ⟨e, bind_of_error hrun⟩

end Fallible

namespace Table

open Fallible (Keeps Preserves)

variable {σ ε ρ : Type} (t : Table σ ρ)

def find (p : ρ → Bool) (s : σ) : Option ρ := (t.rows s).find? p

def lookup (id : String) (s : σ) : Option ρ :=
  KeyedTable.lookup t.key id (t.rows s)

def insert (row : ρ) (s : σ) : σ := t.put (t.rows s ++ [row]) s

def modify (id : String) (change : ρ → ρ) (s : σ) : σ :=
  t.put (KeyedTable.modify t.key id change (t.rows s)) s

def modifyAll (p : ρ → Bool) (change : ρ → ρ) (s : σ) : σ :=
  t.put ((t.rows s).map (fun row => if p row then change row else row)) s

/-- A new row, whose key must be new, under further constraints. -/
def create (refused : ε) (allowed : σ → Bool) (row : ρ) :
    Fallible σ ε ρ := do
  if ← Fallible.query (fun s =>
      (t.lookup (t.key row) s).isNone && allowed s) then
    Fallible.change (t.insert row)
    pure row
  else Fallible.fail refused

/-- An update by key, which returns the new row. -/
def update (missing : ε) (id : String) (change : ρ → ρ) :
    Fallible σ ε ρ := do
  match ← Fallible.query (t.lookup id) with
  | none => Fallible.fail missing
  | some row =>
      Fallible.change (t.modify id change)
      pure (change row)

def updateMany (p : ρ → Bool) (change : ρ → ρ) : Fallible σ ε Unit :=
  Fallible.change (t.modifyAll p change)

/-! ## The rows after an operation -/

@[simp] theorem rows_insert (row : ρ) (s : σ) :
    t.rows (t.insert row s) = t.rows s ++ [row] := t.rows_put _ s

@[simp] theorem rows_modify (id : String) (change : ρ → ρ) (s : σ) :
    t.rows (t.modify id change s) =
      KeyedTable.modify t.key id change (t.rows s) := t.rows_put _ s

@[simp] theorem rows_modifyAll (p : ρ → Bool) (change : ρ → ρ) (s : σ) :
    t.rows (t.modifyAll p change s) =
      (t.rows s).map (fun row => if p row then change row else row) :=
  t.rows_put _ s

variable {t}

theorem create_eq_ok {refused : ε} {allowed : σ → Bool} {row r : ρ}
    {s s' : σ} :
    (t.create refused allowed row) s = (.ok r, s') ↔
      t.lookup (t.key row) s = none ∧ allowed s = true ∧ r = row ∧
        s' = t.insert row s := by
  unfold create
  rw [Fallible.query_bind]
  cases hlookup : t.lookup (t.key row) s with
  | some other => simp
  | none =>
      cases hallowed : allowed s with
      | false => simp
      | true => simp [eq_comm]

theorem create_eq_error {refused e : ε} {allowed : σ → Bool} {row : ρ}
    {s s' : σ} (h : (t.create refused allowed row) s = (.error e, s')) :
    e = refused ∧ s' = s := by
  unfold create at h
  rw [Fallible.query_bind] at h
  split at h
  · simp at h
  · rw [Fallible.fail_apply, Prod.mk.injEq, Except.error.injEq] at h
    exact ⟨h.1.symm, h.2.symm⟩

theorem allOrNothing_create (refused : ε) (allowed : σ → Bool) (row : ρ) :
    Fallible.AllOrNothing (t.create refused allowed row) := by
  intro s
  cases hrun : t.create refused allowed row s with
  | mk result s' =>
      cases result with
      | ok r => exact Or.inr ⟨r, s', rfl⟩
      | error e => exact Or.inl ⟨e, by rw [(create_eq_error hrun).2]⟩

/-- A refused row ends the action; otherwise it is inserted. -/
theorem create_bind_cases {β : Type} (refused : ε) (allowed : σ → Bool)
    (row : ρ) (k : ρ → Fallible σ ε β) (s : σ) :
    (t.create refused allowed row >>= k) s = (.error refused, s) ∨
      t.lookup (t.key row) s = none ∧ allowed s = true ∧
        (t.create refused allowed row >>= k) s = k row (t.insert row s) := by
  cases hcreate : t.create refused allowed row s with
  | mk result s' =>
      cases result with
      | error e =>
          obtain ⟨rfl, rfl⟩ := create_eq_error hcreate
          exact Or.inl (Fallible.bind_of_error hcreate)
      | ok r =>
          obtain ⟨hnew, hallowed, rfl, rfl⟩ := create_eq_ok.mp hcreate
          exact Or.inr ⟨hnew, hallowed, Fallible.bind_of_ok hcreate⟩

theorem update_eq_ok {missing : ε} {id : String} {change : ρ → ρ} {r : ρ}
    {s s' : σ} :
    (t.update missing id change) s = (.ok r, s') ↔
      ∃ row, t.lookup id s = some row ∧ r = change row ∧
        s' = t.modify id change s := by
  unfold update
  rw [Fallible.query_bind]
  cases hlookup : t.lookup id s with
  | none => simp
  | some row => simp [eq_comm]

/-- An update of a missing row ends the action; otherwise it is written. -/
theorem update_bind_cases {β : Type} (missing : ε) (id : String)
    (change : ρ → ρ) (k : ρ → Fallible σ ε β) (s : σ) :
    (t.lookup id s = none ∧
      (t.update missing id change >>= k) s = (.error missing, s)) ∨
    ∃ row, t.lookup id s = some row ∧
      (t.update missing id change >>= k) s =
        k (change row) (t.modify id change s) := by
  cases hrow : t.lookup id s with
  | none =>
      refine Or.inl ⟨rfl, Fallible.bind_of_error ?_⟩
      unfold update
      rw [Fallible.query_bind]
      simp only [hrow, Fallible.fail_apply]
  | some row =>
      exact Or.inr ⟨row, rfl,
        Fallible.bind_of_ok (update_eq_ok.mpr ⟨row, hrow, rfl, rfl⟩)⟩

theorem keeps_create {inv : σ → Prop} {refused : ε} {allowed : σ → Bool}
    {row : ρ} (h : ∀ s, inv s →
      t.lookup (t.key row) s = none ∧ allowed s = true →
        inv (t.insert row s)) :
    Keeps inv (t.create refused allowed row) := by
  intro s hs
  unfold create
  rw [Fallible.query_bind]
  split
  next hallowed =>
    rw [Bool.and_eq_true, Option.isNone_iff_eq_none] at hallowed
    exact h s hs hallowed
  next => exact hs

theorem keeps_update {inv : σ → Prop} {missing : ε} {id : String}
    {change : ρ → ρ} (h : ∀ s, inv s → inv (t.modify id change s)) :
    Keeps inv (t.update missing id change) := by
  intro s hs
  unfold update
  rw [Fallible.query_bind]
  cases t.lookup id s with
  | none => exact hs
  | some row => exact h s hs

/-! ## What the operations leave alone -/

variable (t)

/-- Writing the table leaves what `f` reads as it was. -/
def Apart {γ : Type} (f : σ → γ) : Prop := ∀ l s, f (t.put l s) = f s

variable {t} {γ : Type} {f : σ → γ}

theorem Apart.create (h : t.Apart f) (refused : ε) (allowed : σ → Bool)
    (row : ρ) : Preserves f (t.create refused allowed row) :=
  fun _ => keeps_create (fun s hs _ => (h _ s).trans hs)

theorem Apart.update (h : t.Apart f) (missing : ε) (id : String)
    (change : ρ → ρ) : Preserves f (t.update missing id change) :=
  fun _ => keeps_update (fun s hs => (h _ s).trans hs)

theorem Apart.updateMany (h : t.Apart f) (p : ρ → Bool) (change : ρ → ρ) :
    Preserves f (t.updateMany p change : Fallible σ ε Unit) :=
  Fallible.preserves_change (fun s => h _ s)

end Table
