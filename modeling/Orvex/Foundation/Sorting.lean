import Mathlib.Data.List.Sort

/-!
# Sorting by a relation that orders the members of a list

Where a relation is a linear order on the members of a list, though perhaps
not elsewhere, sorting by it depends on the members alone.
-/

namespace Sorting

variable {α : Type*} {r : α → α → Prop}

/-- The relation is a linear order on the members of the list. -/
structure OrdersMembers (r : α → α → Prop) (l : List α) : Prop where
  total : ∀ a ∈ l, ∀ b ∈ l, r a b ∨ r b a
  trans : ∀ a ∈ l, ∀ b ∈ l, ∀ c ∈ l, r a b → r b c → r a c
  antisymm : ∀ a ∈ l, ∀ b ∈ l, r a b → r b a → a = b

theorem OrdersMembers.subset {l l' : List α} (h : OrdersMembers r l)
    (hsubset : l' ⊆ l) : OrdersMembers r l' := by
  constructor
  · intro a ha b hb
    exact h.total a (hsubset ha) b (hsubset hb)
  · intro a ha b hb c hc
    exact h.trans a (hsubset ha) b (hsubset hb) c (hsubset hc)
  · intro a ha b hb
    exact h.antisymm a (hsubset ha) b (hsubset hb)

variable [DecidableRel r] {l l' : List α}

theorem OrdersMembers.pairwise (h : OrdersMembers r l) :
    (l.insertionSort r).Pairwise r := by
  -- the members of the list are sorted as a type of their own
  let s : {a // a ∈ l} → {a // a ∈ l} → Prop := fun a b => r a.1 b.1
  have htotal : Std.Total s :=
    ⟨fun a b => h.total a.1 a.2 b.1 b.2⟩
  have htrans : IsTrans _ s :=
    ⟨fun a b c => h.trans a.1 a.2 b.1 b.2 c.1 c.2⟩
  have hsorted : (l.attach.insertionSort s).Pairwise s :=
    List.pairwise_insertionSort s l.attach
  have hmap : (l.attach.insertionSort s).map Subtype.val =
      l.insertionSort r := by
    rw [List.map_insertionSort s r Subtype.val l.attach
      (fun a _ b _ => Iff.rfl), List.attach_map_subtype_val]
  rw [← hmap, List.pairwise_map]
  exact hsorted

/-- The sorted list depends on the members alone. -/
theorem OrdersMembers.insertionSort_eq (h : OrdersMembers r l)
    (hperm : l.Perm l') : l.insertionSort r = l'.insertionSort r := by
  have h' : OrdersMembers r l' := h.subset hperm.symm.subset
  have hsame : (l.insertionSort r).Perm (l'.insertionSort r) :=
    ((List.perm_insertionSort r l).trans hperm).trans
      (List.perm_insertionSort r l').symm
  refine hsame.eq_of_pairwise ?_ h.pairwise h'.pairwise
  intro a b ha hb hab hba
  have ha' : a ∈ l := (List.mem_insertionSort r).mp ha
  have hb' : b ∈ l := hperm.mem_iff.mpr ((List.mem_insertionSort r).mp hb)
  exact h.antisymm a ha' b hb' hab hba

end Sorting
