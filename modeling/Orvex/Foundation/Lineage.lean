import Orvex.Foundation.KeyedTable
import Mathlib.Logic.Relation

/-!
# Rows that name a parent

The rows of a table may name another row as their parent.  `Above` relates a
row to every row below it, at any depth.  Such a table grows by rows whose
parent is already there, so that a new row is above no other.
-/

namespace Lineage

variable {ρ κ : Type*} (key : ρ → κ) (parent : ρ → Option κ)

/-- The row of `b` names `a` as its parent. -/
def ParentOf (rows : List ρ) (a b : κ) : Prop :=
  ∃ row ∈ rows, key row = b ∧ parent row = some a

/-- `a` is the parent of `b`, or the parent of one that is above `b`. -/
def Above (rows : List ρ) : κ → κ → Prop :=
  Relation.TransGen (ParentOf key parent rows)

/-- Keys are unique, and every parent is one of the rows. -/
structure Rooted (rows : List ρ) : Prop where
  unique : KeyedTable.UniqueKeys key rows
  parents : ∀ row ∈ rows, ∀ a, parent row = some a → a ∈ rows.map key

/-- The change keeps the key and the parent of every row. -/
def KeepsPlace (change : ρ → ρ) : Prop :=
  ∀ row, key (change row) = key row ∧ parent (change row) = parent row

variable {key parent}

theorem rooted_nil : Rooted key parent ([] : List ρ) :=
  ⟨List.nodup_nil, by simp⟩

theorem above_mem {rows : List ρ} (hrows : Rooted key parent rows) {a b : κ}
    (h : Above key parent rows a b) :
    a ∈ rows.map key ∧ b ∈ rows.map key := by
  have hedge : ∀ a b, ParentOf key parent rows a b →
      a ∈ rows.map key ∧ b ∈ rows.map key := by
    rintro a b ⟨row, hrow, rfl, hparent⟩
    exact ⟨hrows.parents row hrow a hparent, List.mem_map_of_mem hrow⟩
  induction h with
  | single hlink => exact hedge _ _ hlink
  | tail _ hlink ih => exact ⟨ih.1, (hedge _ _ hlink).2⟩

/-! ## Changes in place -/

theorem parentOf_map {change : ρ → ρ} (hkeep : KeepsPlace key parent change)
    (rows : List ρ) :
    ParentOf key parent (rows.map change) = ParentOf key parent rows := by
  funext a b
  apply propext
  unfold ParentOf
  constructor
  · rintro ⟨row, hrow, hkey, hparent⟩
    obtain ⟨old, hold, rfl⟩ := List.mem_map.mp hrow
    exact ⟨old, hold, (hkeep old).1 ▸ hkey, (hkeep old).2 ▸ hparent⟩
  · rintro ⟨row, hrow, hkey, hparent⟩
    refine ⟨change row, List.mem_map_of_mem hrow, ?_, ?_⟩
    · rw [(hkeep row).1, hkey]
    · rw [(hkeep row).2, hparent]

theorem above_map {change : ρ → ρ} (hkeep : KeepsPlace key parent change)
    (rows : List ρ) :
    Above key parent (rows.map change) = Above key parent rows := by
  unfold Above
  rw [parentOf_map hkeep]

theorem keys_map {change : ρ → ρ} (hkeep : KeepsPlace key parent change)
    (rows : List ρ) : (rows.map change).map key = rows.map key := by
  rw [List.map_map]
  exact List.map_congr_left (fun row _ => (hkeep row).1)

theorem Rooted.map {rows : List ρ} (hrows : Rooted key parent rows)
    {change : ρ → ρ} (hkeep : KeepsPlace key parent change) :
    Rooted key parent (rows.map change) := by
  constructor
  · unfold KeyedTable.UniqueKeys
    rw [keys_map hkeep]
    exact hrows.unique
  · intro row hrow a hparent
    obtain ⟨old, hold, rfl⟩ := List.mem_map.mp hrow
    rw [keys_map hkeep]
    exact hrows.parents old hold a ((hkeep old).2 ▸ hparent)

/-! ## A new row -/

theorem parentOf_append {rows : List ρ} {leaf : ρ} {a b : κ} :
    ParentOf key parent (rows ++ [leaf]) a b ↔
      ParentOf key parent rows a b ∨ key leaf = b ∧ parent leaf = some a := by
  unfold ParentOf
  simp only [List.mem_append, List.mem_singleton, or_and_right, exists_or,
    exists_eq_left]

section

variable [DecidableEq κ]

theorem Rooted.append {rows : List ρ} (hrows : Rooted key parent rows)
    {leaf : ρ} (hfresh : KeyedTable.lookup key (key leaf) rows = none)
    (hparent : ∀ a, parent leaf = some a → a ∈ rows.map key) :
    Rooted key parent (rows ++ [leaf]) := by
  constructor
  · exact hrows.unique.append_singleton hfresh
  · intro row hrow a hlink
    rw [List.map_append, List.mem_append]
    apply Or.inl
    rcases List.mem_append.mp hrow with hold | hnew
    · exact hrows.parents row hold a hlink
    · rw [List.mem_singleton] at hnew
      exact hparent a (hnew ▸ hlink)

/-- A new row is below its parent and below what is above its parent; the
rest is as it was. -/
theorem above_append {rows : List ρ} (hrows : Rooted key parent rows)
    {leaf : ρ} (hfresh : KeyedTable.lookup key (key leaf) rows = none)
    {a b : κ} (h : Above key parent (rows ++ [leaf]) a b) :
    Above key parent rows a b ∨
      key leaf = b ∧ ∃ p, parent leaf = some p ∧
        (a = p ∨ Above key parent rows a p) := by
  have hnot := KeyedTable.lookup_eq_none_iff.mp hfresh
  induction h with
  | single hlink =>
      rcases parentOf_append.mp hlink with hold | ⟨hkey, hparent⟩
      · exact Or.inl (Relation.TransGen.single hold)
      · exact Or.inr ⟨hkey, a, hparent, Or.inl rfl⟩
  | tail hpath hlink ih =>
      rcases parentOf_append.mp hlink with hold | ⟨hkey, hparent⟩
      · rcases ih with habove | ⟨hleaf, _⟩
        · exact Or.inl (Relation.TransGen.tail habove hold)
        · -- an old row does not name the new one as its parent
          obtain ⟨row, hrow, _, hnamed⟩ := hold
          exact absurd (hleaf ▸ hrows.parents row hrow _ hnamed) hnot
      · rcases ih with habove | ⟨hleaf, p, hp, habove⟩
        · exact Or.inr ⟨hkey, _, hparent, Or.inr habove⟩
        · rw [hparent, Option.some.injEq] at hp
          exact Or.inr ⟨hkey, p, by rw [hparent, hp], habove⟩

end

/-! ## What holds along a lineage -/

/-- A transitive relation that holds of every row and its parent holds of
every row and all that are above it. -/
theorem related_of_above {rows : List ρ} (hrows : Rooted key parent rows)
    {related : ρ → ρ → Prop}
    (htrans : ∀ a b c, related a b → related b c → related a c)
    (hedge : ∀ p ∈ rows, ∀ c ∈ rows, parent c = some (key p) → related p c)
    {a b : ρ} (ha : a ∈ rows) (hb : b ∈ rows)
    (h : Above key parent rows (key a) (key b)) : related a b := by
  have hrow : ∀ k ∈ rows.map key, ∀ c ∈ rows, parent c = some k →
      ∃ p ∈ rows, key p = k ∧ related p c := by
    intro k hk c hc hparent
    obtain ⟨p, hp, rfl⟩ := List.mem_map.mp hk
    exact ⟨p, hp, rfl, hedge p hp c hc hparent⟩
  have hsame : ∀ x ∈ rows, ∀ y ∈ rows, key x = key y → x = y :=
    fun x hx y hy => List.inj_on_of_nodup_map hrows.unique hx hy
  generalize hk : key b = k at h
  induction h generalizing b with
  | single hlink =>
      obtain ⟨c, hc, hkey, hparent⟩ := hlink
      have hcb : c = b := hsame c hc b hb (hkey.trans hk.symm)
      exact hedge a ha b hb (hcb ▸ hparent)
  | tail hpath hlink ih =>
      obtain ⟨c, hc, hkey, hparent⟩ := hlink
      have hcb : c = b := hsame c hc b hb (hkey.trans hk.symm)
      obtain ⟨p, hp, hpk, hrelated⟩ :=
        hrow _ (hrows.parents c hc _ hparent) c hc hparent
      exact htrans a p b (ih hp hpk) (hcb ▸ hrelated)

end Lineage
