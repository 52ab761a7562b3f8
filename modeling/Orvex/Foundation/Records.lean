import Orvex.Foundation.Tables

/-!
# Records that are never rewritten

A table is a record when rows are only added at its end and changed outside
of their identity.  What such writes keep, every action that is built from
them keeps.
-/

namespace Fallible

variable {σ ε α β : Type} {inv : σ → Prop}

/-- What follows a value that may be missing knows that it was there. -/
theorem keeps_ofOption_bind {e : ε} {o : Option α}
    {k : α → Fallible σ ε β}
    (h : ∀ a, o = some a → Keeps inv (k a)) :
    Keeps inv (ofOption e o >>= k) := by
  cases o with
  | none => exact fun _ hs => hs
  | some a => exact h a rfl

end Fallible

namespace Table

open Fallible (Keeps)

variable {σ ε ρ γ : Type} (t : Table σ ρ)

/-- The property does not see a change that leaves the identities of the
rows. -/
def Blind (identity : ρ → γ) (inv : σ → Prop) : Prop :=
  ∀ p change s, (∀ row, identity (change row) = identity row) → inv s →
    inv (t.modifyAll p change s)

/-- The writes of a record keep the property: a row under a new key, and a
change that leaves the identities of the rows. -/
structure Kept (identity : ρ → γ) (inv : σ → Prop) : Prop where
  insert : ∀ row s, t.lookup (t.key row) s = none → inv s →
    inv (t.insert row s)
  blind : t.Blind identity inv

theorem modify_eq_modifyAll (id : String) (change : ρ → ρ) (s : σ) :
    t.modify id change s =
      t.modifyAll (fun row => decide (t.key row = id)) change s := by
  simp [modify, modifyAll, KeyedTable.modify]

variable {t} {identity : ρ → γ} {inv : σ → Prop}

theorem Blind.modify (h : t.Blind identity inv) {change : ρ → ρ}
    (hsame : ∀ row, identity (change row) = identity row) (id : String)
    {s : σ} (hs : inv s) : inv (t.modify id change s) := by
  rw [modify_eq_modifyAll]
  exact h _ change s hsame hs

theorem Blind.update (h : t.Blind identity inv) {change : ρ → ρ}
    (hsame : ∀ row, identity (change row) = identity row) (missing : ε)
    (id : String) : Keeps inv (t.update missing id change) :=
  keeps_update (fun _ hs => h.modify hsame id hs)

theorem Blind.updateMany (h : t.Blind identity inv) {change : ρ → ρ}
    (hsame : ∀ row, identity (change row) = identity row) (p : ρ → Bool) :
    Keeps inv (t.updateMany p change : Fallible σ ε Unit) :=
  Fallible.keeps_change (fun s hs => h p change s hsame hs)

theorem Kept.create (h : t.Kept identity inv) (refused : ε)
    (allowed : σ → Bool) (row : ρ) :
    Keeps inv (t.create refused allowed row) :=
  keeps_create (fun s hs hnew => h.insert row s hnew.1 hs)

/-- The property does not read the table. -/
theorem kept_of_apart (h : ∀ l s, inv s → inv (t.put l s)) :
    t.Kept identity inv where
  insert _ s _ hs := h _ s hs
  blind _ _ s _ hs := h _ s hs

end Table

/-! ## What was recorded stays -/

namespace KeyedTable

variable {ρ γ : Type}

/-- Rows were only added, at the end and under new keys, and no identity was
rewritten. -/
structure Grows (key : ρ → String) (identity : ρ → γ) (old new : List ρ) :
    Prop where
  rows_eq : ∃ added, new.map identity = old.map identity ++ added
  distinct : UniqueKeys key old → UniqueKeys key new

variable {key : ρ → String} {identity : ρ → γ} {old new rows : List ρ}

theorem Grows.refl (rows : List ρ) : Grows key identity rows rows where
  rows_eq := ⟨[], by rw [List.append_nil]⟩
  distinct := id

theorem Grows.trans (h : Grows key identity old rows)
    (hnew : Grows key identity rows new) : Grows key identity old new where
  rows_eq := by
    obtain ⟨added, hrows⟩ := h.rows_eq
    obtain ⟨later, hlater⟩ := hnew.rows_eq
    exact ⟨added ++ later, by rw [hlater, hrows, List.append_assoc]⟩
  distinct := fun hold => hnew.distinct (h.distinct hold)

theorem Grows.append (h : Grows key identity old rows) {row : ρ}
    (hfresh : lookup key (key row) rows = none) :
    Grows key identity old (rows ++ [row]) where
  rows_eq := by
    obtain ⟨added, hrows⟩ := h.rows_eq
    refine ⟨added ++ [identity row], ?_⟩
    rw [List.map_append, hrows, List.map_singleton, List.append_assoc]
  distinct hold := (h.distinct hold).append_singleton hfresh

/-- The identity of a row holds its key. -/
def Identifies (key : ρ → String) (identity : ρ → γ) : Prop :=
  ∀ a b, identity a = identity b → key a = key b

theorem identifies_of_key {same : ρ → ρ}
    (h : ∀ row, key (same row) = key row) : Identifies key same := by
  intro a b hab
  rw [← h a, hab, h b]

/-- What a change leaves of each row, it leaves of the rows. -/
theorem map_changed {f : ρ → γ} {change : ρ → ρ}
    (hsame : ∀ row, f (change row) = f row) (p : ρ → Bool) (rows : List ρ) :
    (rows.map (fun row => if p row then change row else row)).map f =
      rows.map f := by
  rw [List.map_map]
  apply List.map_congr_left
  intro row _
  by_cases hp : p row = true
  · simp [hp, hsame row]
  · simp [hp]

theorem Grows.changed (h : Grows key identity old rows)
    (hidentity : Identifies key identity) {change : ρ → ρ}
    (hsame : ∀ row, identity (change row) = identity row) (p : ρ → Bool) :
    Grows key identity old
      (rows.map (fun row => if p row then change row else row)) where
  rows_eq := by
    rw [map_changed hsame]
    exact h.rows_eq
  distinct hold := by
    have hkeys := h.distinct hold
    unfold UniqueKeys at hkeys ⊢
    rw [map_changed (fun row => hidentity _ _ (hsame row))]
    exact hkeys

theorem Grows.modify (h : Grows key identity old rows)
    (hidentity : Identifies key identity) {change : ρ → ρ}
    (hsame : ∀ row, identity (change row) = identity row) (id : String) :
    Grows key identity old (modify key id change rows) := by
  have hchanged := h.changed hidentity hsame
    (fun row => decide (key row = id))
  simpa [KeyedTable.modify] using hchanged

/-! ## What was found is found again -/

section

variable {p : ρ → Bool} {q : γ → Bool}

theorem Grows.find (h : Grows key identity old new)
    (hp : ∀ row, p row = q (identity row)) {row : ρ}
    (hrow : old.find? p = some row) :
    ∃ later, new.find? p = some later ∧ identity later = identity row := by
  have hcomp : p = q ∘ identity := funext hp
  have hmap : ∀ rows : List ρ, (rows.find? p).map identity =
      (rows.map identity).find? q := by
    intro rows
    rw [List.find?_map, ← hcomp]
  obtain ⟨added, hrows⟩ := h.rows_eq
  have hold := hmap old
  rw [hrow, Option.map_some] at hold
  have hlater : (new.find? p).map identity = some (identity row) := by
    rw [hmap new, hrows, List.find?_append, ← hold, Option.some_or]
  exact Option.map_eq_some_iff.mp hlater

theorem Grows.filter (h : Grows key identity old new)
    (hp : ∀ row, p row = q (identity row)) :
    ∃ added, (new.filter p).map identity =
      (old.filter p).map identity ++ added := by
  have hcomp : p = q ∘ identity := funext hp
  have hmap : ∀ rows : List ρ, (rows.filter p).map identity =
      (rows.map identity).filter q := by
    intro rows
    rw [List.filter_map, ← hcomp]
  obtain ⟨added, hrows⟩ := h.rows_eq
  refine ⟨added.filter q, ?_⟩
  rw [hmap, hmap, hrows, List.filter_append]

end

end KeyedTable

namespace Table

variable {σ ρ : Type} {t : Table σ ρ}

/-- A property that asks a table to grow is kept by its writes. -/
theorem kept_of_grows {identity : ρ → ρ} {inv : σ → Prop} {old : List ρ}
    (hkey : ∀ row, t.key (identity row) = t.key row)
    (hread : ∀ s, inv s → KeyedTable.Grows t.key identity old (t.rows s))
    (hput : ∀ rows s, inv s → KeyedTable.Grows t.key identity old rows →
      inv (t.put rows s)) : t.Kept identity inv where
  insert _ s hnew hs := hput _ s hs ((hread s hs).append hnew)
  blind p _ s hsame hs :=
    hput _ s hs ((hread s hs).changed (KeyedTable.identifies_of_key hkey)
      hsame p)

end Table
