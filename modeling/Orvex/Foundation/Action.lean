import Mathlib.Tactic

/-!
# Actions on a store that may fail

An action reads and changes a store `σ` and ends with a value or an error.
An error leaves the changes made so far; a transaction undoes them.  The
rules tell a result of a composed action apart into the results of its
parts, and carry an invariant through a composition.
-/

def Fallible (σ ε α : Type) := σ → Except ε α × σ

namespace Fallible

variable {σ ε α β : Type}

instance : Monad (Fallible σ ε) where
  pure a := fun s => (.ok a, s)
  bind x f := fun s =>
    match x s with
    | (.ok a, s') => f a s'
    | (.error e, s') => (.error e, s')

def query (f : σ → α) : Fallible σ ε α :=
  fun s => (.ok (f s), s)

def change (f : σ → σ) : Fallible σ ε Unit :=
  fun s => (.ok (), f s)

def fail (e : ε) : Fallible σ ε α :=
  fun s => (.error e, s)

def ofOption (e : ε) : Option α → Fallible σ ε α
  | some a => pure a
  | none => fail e

/-- The outcome of an action as a value. -/
def attempt (x : Fallible σ ε α) : Fallible σ ε (Except ε α) :=
  fun s => (.ok (x s).1, (x s).2)

/-- An action whose changes are undone when it fails. -/
def transaction (x : Fallible σ ε α) : Fallible σ ε α :=
  fun s =>
    match x s with
    | (.ok a, s') => (.ok a, s')
    | (.error e, _) => (.error e, s)

/-! ## Results without a store -/

theorem result_bind_eq_ok {x : Except ε α} {f : α → Except ε β} {b : β} :
    (x >>= f) = .ok b ↔ ∃ a, x = .ok a ∧ f a = .ok b := by
  cases x with
  | error e => simp [bind, Except.bind]
  | ok a => simp [bind, Except.bind]

@[simp] theorem result_ok_bind (a : α) (f : α → Except ε β) :
    ((Except.ok a : Except ε α) >>= f) = f a := rfl

@[simp] theorem result_error_bind (e : ε) (f : α → Except ε β) :
    ((Except.error e : Except ε α) >>= f) = .error e := rfl

@[simp] theorem result_pure (a : α) :
    (pure a : Except ε α) = .ok a := rfl

theorem result_bind_map {γ : Type} (x : Except ε α) (f : α → Except ε β)
    (g : β → γ) : (x >>= f).map g = x >>= fun a => (f a).map g := by
  cases x with
  | error e => rfl
  | ok a => rfl

theorem mem_mapM_iff {f : α → Except ε β} {items : List α}
    {results : List β} (h : items.mapM f = .ok results) {b : β} :
    b ∈ results ↔ ∃ a ∈ items, f a = .ok b := by
  induction items generalizing results with
  | nil =>
      have hnil : results = [] := (Except.ok.inj h).symm
      rw [hnil]
      simp
  | cons a rest ih =>
      rw [List.mapM_cons] at h
      obtain ⟨first, hfirst, h⟩ := result_bind_eq_ok.mp h
      obtain ⟨others, hothers, h⟩ := result_bind_eq_ok.mp h
      have hcons : results = first :: others := (Except.ok.inj h).symm
      rw [hcons, List.mem_cons, ih hothers]
      constructor
      · intro hb
        rcases hb with heq | ⟨x, hx, hfx⟩
        · rw [heq]
          exact ⟨a, List.mem_cons_self, hfirst⟩
        · exact ⟨x, List.mem_cons_of_mem a hx, hfx⟩
      · intro hb
        obtain ⟨x, hx, hfx⟩ := hb
        rcases List.mem_cons.mp hx with heq | hrest
        · rw [heq, hfirst] at hfx
          exact Or.inl (Except.ok.inj hfx).symm
        · exact Or.inr ⟨x, hrest, hfx⟩

theorem exists_of_mapM {f : α → Except ε β} {items : List α}
    {results : List β} (h : items.mapM f = .ok results) {a : α}
    (ha : a ∈ items) : ∃ b, f a = .ok b := by
  induction items generalizing results with
  | nil => exact absurd ha List.not_mem_nil
  | cons first rest ih =>
      rw [List.mapM_cons] at h
      obtain ⟨b, hb, h⟩ := result_bind_eq_ok.mp h
      obtain ⟨others, hothers, -⟩ := result_bind_eq_ok.mp h
      rcases List.mem_cons.mp ha with heq | hrest
      · rw [heq]
        exact ⟨b, hb⟩
      · exact ih hothers hrest

/-- Every member is converted, and what all results have is shown of each. -/
theorem mapM_all {f : α → Except ε β} {q : β → Prop}
    {items : List α} (h : ∀ a ∈ items, ∃ b, f a = .ok b ∧ q b) :
    ∃ results, items.mapM f = .ok results ∧
      results.length = items.length ∧ ∀ b ∈ results, q b := by
  induction items with
  | nil => exact ⟨[], rfl, rfl, by simp⟩
  | cons a rest ih =>
      obtain ⟨b, hb, hq⟩ := h a List.mem_cons_self
      obtain ⟨others, hothers, hlength, hall⟩ :=
        ih (fun x hx => h x (List.mem_cons_of_mem a hx))
      refine ⟨b :: others, ?_, ?_, ?_⟩
      · rw [List.mapM_cons, hb, hothers]
        rfl
      · simp [hlength]
      · intro x hx
        rcases List.mem_cons.mp hx with heq | hrest
        · rw [heq]
          exact hq
        · exact hall x hrest

/-! ## What a result says -/

@[simp] theorem pure_apply (a : α) (s : σ) :
    (pure a : Fallible σ ε α) s = (.ok a, s) := rfl

@[simp] theorem query_apply (f : σ → α) (s : σ) :
    (query f : Fallible σ ε α) s = (.ok (f s), s) := rfl

@[simp] theorem change_apply (f : σ → σ) (s : σ) :
    (change f : Fallible σ ε Unit) s = (.ok (), f s) := rfl

@[simp] theorem fail_apply (e : ε) (s : σ) :
    (fail e : Fallible σ ε α) s = (.error e, s) := rfl

@[simp] theorem attempt_apply (x : Fallible σ ε α) (s : σ) :
    attempt x s = (.ok (x s).1, (x s).2) := rfl

theorem bind_of_ok {x : Fallible σ ε α} {f : α → Fallible σ ε β} {a : α}
    {s s' : σ} (hx : x s = (.ok a, s')) : (x >>= f) s = f a s' := by
  change (match x s with
    | (.ok a, s') => f a s'
    | (.error e, s') => (.error e, s')) = f a s'
  rw [hx]

theorem bind_of_error {x : Fallible σ ε α} {f : α → Fallible σ ε β} {e : ε}
    {s s' : σ} (hx : x s = (.error e, s')) :
    (x >>= f) s = (.error e, s') := by
  change (match x s with
    | (.ok a, s') => f a s'
    | (.error e, s') => (.error e, s')) = (.error e, s')
  rw [hx]

@[simp] theorem query_bind (g : σ → α) (f : α → Fallible σ ε β) (s : σ) :
    (query g >>= f) s = f (g s) s := rfl

@[simp] theorem change_bind (g : σ → σ) (f : Unit → Fallible σ ε β) (s : σ) :
    (change g >>= f) s = f () (g s) := rfl

@[simp] theorem fail_bind (e : ε) (f : α → Fallible σ ε β) (s : σ) :
    ((fail e : Fallible σ ε α) >>= f) s = (.error e, s) := rfl

@[simp] theorem pure_bind_apply (a : α) (f : α → Fallible σ ε β) (s : σ) :
    ((pure a : Fallible σ ε α) >>= f) s = f a s := rfl

@[simp] theorem attempt_bind (x : Fallible σ ε α)
    (f : Except ε α → Fallible σ ε β) (s : σ) :
    (attempt x >>= f) s = f (x s).1 (x s).2 := rfl

/-- Returning a value leaves the state of the action before it. -/
theorem bind_pure_state (x : Fallible σ ε α) (g : α → β) (s : σ) :
    ((x >>= fun a => (pure (g a) : Fallible σ ε β)) s).2 = (x s).2 := by
  cases hx : x s with
  | mk result s' =>
      cases result with
      | error e => rw [bind_of_error hx]
      | ok a => rw [bind_of_ok hx, pure_apply]

/-- A composed action succeeds exactly when its parts do, in turn. -/
theorem bind_eq_ok {x : Fallible σ ε α} {f : α → Fallible σ ε β} {b : β}
    {s t : σ} :
    (x >>= f) s = (.ok b, t) ↔
      ∃ a s', x s = (.ok a, s') ∧ f a s' = (.ok b, t) := by
  constructor
  · intro h
    cases hx : x s with
    | mk result s' =>
        cases result with
        | error e =>
            rw [bind_of_error hx] at h
            simp at h
        | ok a =>
            rw [bind_of_ok hx] at h
            exact ⟨a, s', rfl, h⟩
  · rintro ⟨a, s', hx, hf⟩
    rw [bind_of_ok hx, hf]

@[simp] theorem ofOption_eq_ok {e : ε} {o : Option α} {a : α} {s t : σ} :
    (ofOption e o : Fallible σ ε α) s = (.ok a, t) ↔ o = some a ∧ s = t := by
  cases o <;> simp [ofOption]

theorem transaction_eq_ok {x : Fallible σ ε α} {a : α} {s t : σ} :
    transaction x s = (.ok a, t) ↔ x s = (.ok a, t) := by
  unfold transaction
  split
  next h => rw [h]
  next h => simp [h]

/-- A transaction that fails leaves the store as it was. -/
theorem transaction_eq_error {x : Fallible σ ε α} {e : ε} {s t : σ}
    (h : transaction x s = (.error e, t)) : t = s := by
  unfold transaction at h
  split at h
  next => simp at h
  next =>
    rw [Prod.mk.injEq] at h
    exact h.2.symm

/-- What the action returns, where it returns. -/
def value? (x : Fallible σ ε α) (s : σ) : Option α := (x s).1.toOption

theorem eq_ok_of_value {x : Fallible σ ε α} {s : σ} {a : α}
    (h : value? x s = some a) : x s = (.ok a, (x s).2) := by
  unfold value? at h
  cases hx : x s with
  | mk result s' =>
      rw [hx] at h
      cases result with
      | error e => exact absurd h (by simp [Except.toOption])
      | ok value =>
          simp only [Except.toOption, Option.some.injEq] at h
          rw [h]

/-- An action that returns a value with a property. -/
theorem exists_ok_of_value {x : Fallible σ ε α} {s : σ} {f : α → β} {b : β}
    (h : (value? x s).map f = some b) :
    ∃ a t, x s = (.ok a, t) ∧ f a = b := by
  obtain ⟨a, ha, hb⟩ := Option.map_eq_some_iff.mp h
  exact ⟨a, (x s).2, eq_ok_of_value ha, hb⟩

/-! ## Invariants -/

/-- The action keeps the invariant, whether it succeeds or fails. -/
def Keeps (inv : σ → Prop) (x : Fallible σ ε α) : Prop :=
  ∀ s, inv s → inv (x s).2

variable {inv : σ → Prop}

theorem keeps_pure (a : α) : Keeps inv (pure a : Fallible σ ε α) :=
  fun _ h => h

theorem keeps_query (f : σ → α) : Keeps inv (query f : Fallible σ ε α) :=
  fun _ h => h

theorem keeps_fail (e : ε) : Keeps inv (fail e : Fallible σ ε α) :=
  fun _ h => h

theorem keeps_ofOption (e : ε) (o : Option α) :
    Keeps inv (ofOption e o : Fallible σ ε α) := by
  cases o with
  | none => exact keeps_fail e
  | some a => exact keeps_pure a

theorem keeps_change {f : σ → σ} (hf : ∀ s, inv s → inv (f s)) :
    Keeps inv (change f : Fallible σ ε Unit) := hf

theorem Keeps.bind {x : Fallible σ ε α} {f : α → Fallible σ ε β}
    (hx : Keeps inv x) (hf : ∀ a, Keeps inv (f a)) :
    Keeps inv (x >>= f) := by
  intro s hs
  have hmid := hx s hs
  cases hrun : x s with
  | mk result s' =>
      rw [hrun] at hmid
      cases result with
      | error e =>
          rw [bind_of_error hrun]
          exact hmid
      | ok a =>
          rw [bind_of_ok hrun]
          exact hf a s' hmid

theorem Keeps.attempt {x : Fallible σ ε α} (hx : Keeps inv x) :
    Keeps inv (attempt x) := hx

theorem Keeps.transaction {x : Fallible σ ε α} (hx : Keeps inv x) :
    Keeps inv (transaction x) := by
  intro s hs
  have hrun := hx s hs
  unfold Fallible.transaction
  split
  next h =>
    rw [h] at hrun
    exact hrun
  next => exact hs

theorem Keeps.ite {condition : Prop} [Decidable condition]
    {x y : Fallible σ ε α} (hx : Keeps inv x) (hy : Keeps inv y) :
    Keeps inv (if condition then x else y) := by
  split
  · exact hx
  · exact hy

/-! ## Before and after -/

/-- From a state with the first property the action leads to one with the
second, whether it succeeds or fails. -/
def Brings (before after : σ → Prop) (x : Fallible σ ε α) : Prop :=
  ∀ s, before s → after (x s).2

variable {before after : σ → Prop}

theorem Keeps.brings {x : Fallible σ ε α} (hx : Keeps before x)
    (hweak : ∀ s, before s → after s) : Brings before after x :=
  fun s hs => hweak _ (hx s hs)

theorem Brings.attempt {x : Fallible σ ε α} (hx : Brings before after x) :
    Brings before after (attempt x) := hx

theorem Brings.ite {condition : Prop} [Decidable condition]
    {x y : Fallible σ ε α} (hx : Brings before after x)
    (hy : Brings before after y) :
    Brings before after (if condition then x else y) := by
  split
  · exact hx
  · exact hy

/-- What comes first keeps what holds before. -/
theorem Keeps.bind_brings {x : Fallible σ ε α} {f : α → Fallible σ ε β}
    (hx : Keeps before x) (hweak : ∀ s, before s → after s)
    (hf : ∀ a, Brings before after (f a)) :
    Brings before after (x >>= f) := by
  intro s hs
  have hmid := hx s hs
  cases hrun : x s with
  | mk result s' =>
      rw [hrun] at hmid
      cases result with
      | error e =>
          rw [bind_of_error hrun]
          exact hweak s' hmid
      | ok a =>
          rw [bind_of_ok hrun]
          exact hf a s' hmid

/-- What comes last keeps what holds after. -/
theorem Brings.bind_keeps {x : Fallible σ ε α} {f : α → Fallible σ ε β}
    (hx : Brings before after x) (hf : ∀ a, Keeps after (f a)) :
    Brings before after (x >>= f) := by
  intro s hs
  have hmid := hx s hs
  cases hrun : x s with
  | mk result s' =>
      rw [hrun] at hmid
      cases result with
      | error e =>
          rw [bind_of_error hrun]
          exact hmid
      | ok a =>
          rw [bind_of_ok hrun]
          exact hf a s' hmid

end Fallible

/-! ## Runs whose steps meet a condition -/

/-- Each step of the run is taken in a state that meets its condition. -/
def Along {σ α : Type} (step : σ → α → σ) (p : α → σ → Prop) :
    List α → σ → Prop
  | [], _ => True
  | a :: rest, s => p a s ∧ Along step p rest (step s a)

section

variable {σ α : Type} {step : σ → α → σ} {p : α → σ → Prop}

theorem Along.append {before later : List α} {s : σ} :
    Along step p (before ++ later) s ↔
      Along step p before s ∧ Along step p later (before.foldl step s) := by
  induction before generalizing s with
  | nil => exact (true_and _).to_iff.symm
  | cons a rest ih =>
      rw [List.cons_append, Along, ih, Along, and_assoc]
      rfl

/-- What every step keeps where its condition is met, the run keeps. -/
theorem Along.induction {inv : σ → Prop}
    (hstep : ∀ a s, p a s → inv s → inv (step s a)) {run : List α} {s : σ}
    (h : Along step p run s) (hs : inv s) : inv (run.foldl step s) := by
  induction run generalizing s with
  | nil => exact hs
  | cons a rest ih => exact ih h.2 (hstep a s h.1 hs)

end
