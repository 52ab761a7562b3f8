import Mathlib.Algebra.BigOperators.Group.List.Basic
import Mathlib.Data.List.Nodup
import Mathlib.Tactic

/-!
# Tables with a primary key

A table is a list of rows, and a function gives each row its key.  Rows are
found by key, changed by key, and summed over.  Over a table whose keys are
unique, changing one row changes a sum by what that row contributed.
-/

namespace KeyedTable

variable {α κ : Type*} [DecidableEq κ] (key : α → κ)

def lookup (k : κ) (rows : List α) : Option α :=
  rows.find? (fun row => key row = k)

def modify (k : κ) (change : α → α) (rows : List α) : List α :=
  rows.map (fun row => if key row = k then change row else row)

def UniqueKeys (rows : List α) : Prop :=
  (rows.map key).Nodup

instance (rows : List α) : Decidable (UniqueKeys key rows) :=
  inferInstanceAs (Decidable (rows.map key).Nodup)

variable {key}

theorem mem_of_lookup {k : κ} {rows : List α} {row : α}
    (hlookup : lookup key k rows = some row) : row ∈ rows :=
  List.mem_of_find?_eq_some hlookup

theorem key_of_lookup {k : κ} {rows : List α} {row : α}
    (hlookup : lookup key k rows = some row) : key row = k := by
  simpa using List.find?_some hlookup

theorem lookup_eq_none_iff {k : κ} {rows : List α} :
    lookup key k rows = none ↔ k ∉ rows.map key := by
  simp only [lookup, List.find?_eq_none, decide_eq_true_eq, List.mem_map,
    not_exists, not_and]

theorem lookup_of_mem {rows : List α} (hunique : UniqueKeys key rows)
    {row : α} (hmem : row ∈ rows) : lookup key (key row) rows = some row := by
  induction rows with
  | nil => simp at hmem
  | cons head rest ih =>
      obtain ⟨hhead, hrest⟩ := List.nodup_cons.mp hunique
      by_cases heq : key head = key row
      · have hrow : head = row := by
          rcases List.mem_cons.mp hmem with hrow | hin
          · exact hrow.symm
          · exact absurd (heq ▸ List.mem_map_of_mem hin) hhead
        simp [lookup, hrow]
      · have hin : row ∈ rest := by
          rcases List.mem_cons.mp hmem with hrow | hin
          · exact absurd (congrArg key hrow.symm) heq
          · exact hin
        have htail := ih hrest hin
        simpa [lookup, heq] using htail

theorem lookup_append_singleton (k : κ) (rows : List α) (row : α) :
    lookup key k (rows ++ [row]) =
      (lookup key k rows).or (if key row = k then some row else none) := by
  by_cases hkey : key row = k <;> simp [lookup, List.find?_append, hkey]

/-- The change keeps the key of every row it is applied to. -/
def KeepsKey (key : α → κ) (change : α → α) : Prop :=
  ∀ row, key (change row) = key row

theorem map_key_modify {change : α → α} (hkeep : KeepsKey key change)
    (k : κ) (rows : List α) :
    (modify key k change rows).map key = rows.map key := by
  simp only [modify, List.map_map]
  apply List.map_congr_left
  intro row _
  by_cases hrow : key row = k <;> simp [hrow, hkeep row]

theorem UniqueKeys.modify {rows : List α} (hunique : UniqueKeys key rows)
    {change : α → α} (hkeep : KeepsKey key change) (k : κ) :
    UniqueKeys key (modify key k change rows) := by
  unfold UniqueKeys
  rw [map_key_modify hkeep]
  exact hunique

theorem UniqueKeys.append_singleton {rows : List α}
    (hunique : UniqueKeys key rows) {row : α}
    (hfresh : lookup key (key row) rows = none) :
    UniqueKeys key (rows ++ [row]) := by
  have hnot := lookup_eq_none_iff.mp hfresh
  unfold UniqueKeys at *
  rw [List.map_append, List.nodup_append]
  refine ⟨hunique, by simp, ?_⟩
  intro a ha b hb hab
  simp only [List.map_cons, List.map_nil, List.mem_singleton] at hb
  subst hb
  exact hnot (hab ▸ ha)

theorem lookup_modify {change : α → α} (hkeep : KeepsKey key change)
    (k k' : κ) (rows : List α) :
    lookup key k' (modify key k change rows) =
      if k' = k then (lookup key k rows).map change
      else lookup key k' rows := by
  induction rows with
  | nil => simp [lookup, KeyedTable.modify]
  | cons head rest ih =>
      have hcons : KeyedTable.modify key k change (head :: rest) =
          (if key head = k then change head else head) ::
            KeyedTable.modify key k change rest := rfl
      rw [hcons]
      by_cases hhead : key head = k
      · have hchanged : key (change head) = k := (hkeep head).trans hhead
        by_cases hk : k' = k
        · subst hk
          simp [lookup, hhead, hchanged]
        · have hne : ¬ k = k' := fun h => hk h.symm
          simpa [lookup, hhead, hchanged, hk, hne] using ih
      · by_cases hhead' : key head = k'
        · have hk : ¬ k' = k := fun h => hhead (hhead'.trans h)
          simp [lookup, hhead', hk]
        · by_cases hk : k' = k
          · subst hk
            simpa [lookup, hhead] using ih
          · simpa [lookup, hhead, hhead', hk] using ih

theorem modify_of_lookup_eq_none {change : α → α} {k : κ} {rows : List α}
    (hnone : lookup key k rows = none) :
    modify key k change rows = rows := by
  have hnot := lookup_eq_none_iff.mp hnone
  unfold KeyedTable.modify
  conv_rhs => rw [← List.map_id rows]
  apply List.map_congr_left
  intro row hmem
  have hne : key row ≠ k := by
    intro heq
    exact hnot (heq ▸ List.mem_map_of_mem hmem)
  simp [hne]

/-- Two sums over a table with unique keys whose terms agree except on the
row under `k` differ by the terms of that row. -/
theorem sum_of_agree {M : Type*} [AddCommMonoid M] {f g : α → M} {k : κ}
    {rows : List α} {row : α} (hagree : ∀ r, key r ≠ k → g r = f r)
    (hunique : UniqueKeys key rows)
    (hlookup : lookup key k rows = some row) :
    (rows.map g).sum + f row = (rows.map f).sum + g row := by
  induction rows with
  | nil => simp [lookup] at hlookup
  | cons head rest ih =>
      obtain ⟨hhead, hrest⟩ := List.nodup_cons.mp hunique
      by_cases heq : key head = k
      · have hrow : head = row := by
          simpa [lookup, heq] using hlookup
        subst hrow
        have hsame : rest.map g = rest.map f := by
          apply List.map_congr_left
          intro r hmem
          apply hagree
          intro hr
          exact hhead (by rw [heq, ← hr]; exact List.mem_map_of_mem hmem)
        simp only [List.map_cons, List.sum_cons, hsame]
        abel
      · have htail : lookup key k rest = some row := by
          simpa [lookup, heq] using hlookup
        have hsum := ih hrest htail
        simp only [List.map_cons, List.sum_cons, hagree head heq]
        rw [add_assoc, hsum, add_assoc]

/-- Changing the one row under `k` moves a sum over the table by the change
of that row's contribution. -/
theorem sum_modify {M : Type*} [AddCommMonoid M] (f : α → M)
    (change : α → α) {k : κ} {rows : List α} {row : α}
    (hunique : UniqueKeys key rows)
    (hlookup : lookup key k rows = some row) :
    ((modify key k change rows).map f).sum + f row =
      (rows.map f).sum + f (change row) := by
  have hrow : key row = k := key_of_lookup hlookup
  have hsum := @sum_of_agree α κ _ key M _ f
    (fun r => f (if key r = k then change r else r)) k rows row
    (fun r hr => by simp [hr]) hunique hlookup
  simp only [hrow, if_true] at hsum
  simpa [KeyedTable.modify, Function.comp_def] using hsum

/-- A sum over a table with unique keys, with the term of one row set
apart. -/
theorem sum_of_lookup {M : Type*} [AddCommMonoid M] (f : α → M) {k : κ}
    {rows : List α} {row : α} (hunique : UniqueKeys key rows)
    (hlookup : lookup key k rows = some row) :
    (rows.map f).sum =
      f row + ((rows.filter (fun r => key r ≠ k)).map f).sum := by
  induction rows with
  | nil => simp [lookup] at hlookup
  | cons head rest ih =>
      obtain ⟨hhead, hrest⟩ := List.nodup_cons.mp hunique
      by_cases heq : key head = k
      · have hrow : head = row := by
          simpa [lookup, heq] using hlookup
        have hothers : rest.filter (fun r => key r ≠ k) = rest := by
          rw [List.filter_eq_self]
          intro r hmem
          apply decide_eq_true
          intro hr
          exact hhead (by rw [heq, ← hr]; exact List.mem_map_of_mem hmem)
        rw [List.filter_cons_of_neg (by simp [heq]), hothers, List.map_cons,
          List.sum_cons, hrow]
      · have htail : lookup key k rest = some row := by
          simpa [lookup, heq] using hlookup
        rw [List.filter_cons_of_pos (by simp [heq]), List.map_cons,
          List.map_cons, List.sum_cons, List.sum_cons, ih hrest htail]
        abel

/-- A sum that a change of the rows does not show is kept. -/
theorem sum_modify_of_agree {M : Type*} [AddCommMonoid M] {f : α → M}
    {change : α → α} (hsame : ∀ r, f (change r) = f r) (k : κ)
    (rows : List α) :
    ((modify key k change rows).map f).sum = (rows.map f).sum := by
  congr 1
  simp only [KeyedTable.modify, List.map_map]
  apply List.map_congr_left
  intro r _
  simp only [Function.comp_apply]
  split
  · exact hsame r
  · rfl

/-! ## Searches and selections -/

/-- A search whose condition the change does not show finds the changed
row. -/
theorem find?_modify {p : α → Bool} {change : α → α} {k : κ}
    (hp : ∀ row, p (change row) = p row) (rows : List α) :
    (modify key k change rows).find? p =
      (rows.find? p).map
        (fun row => if key row = k then change row else row) := by
  have hsame : p ∘ (fun row => if key row = k then change row else row) =
      p := by
    funext row
    by_cases hrow : key row = k
    · simp only [Function.comp_apply, hrow, if_true, hp]
    · simp only [Function.comp_apply, hrow, if_false]
  unfold modify
  rw [List.find?_map, hsame]

/-- Changing a row that is not selected, before and after, leaves the
selection. -/
theorem filter_modify {p : α → Bool} {change : α → α} {k : κ}
    {rows : List α} {row : α} (hunique : UniqueKeys key rows)
    (hlookup : lookup key k rows = some row) (hbefore : p row = false)
    (hafter : p (change row) = false) :
    (modify key k change rows).filter p = rows.filter p := by
  have hkey : ∀ r ∈ rows, key r = k → r = row := by
    intro r hr hrk
    have hfound := lookup_of_mem hunique hr
    rw [hrk, hlookup] at hfound
    exact (Option.some.inj hfound).symm
  unfold modify
  rw [List.filter_map]
  have hfilter : rows.filter
      (p ∘ fun r => if key r = k then change r else r) = rows.filter p := by
    apply List.filter_congr
    intro r hr
    by_cases hrk : key r = k
    · have hrow := hkey r hr hrk
      subst hrow
      simp only [Function.comp_apply, hrk, if_true, hafter, hbefore]
    · simp only [Function.comp_apply, hrk, if_false]
  rw [hfilter]
  conv_rhs => rw [← List.map_id (rows.filter p)]
  apply List.map_congr_left
  intro r hr
  obtain ⟨hmem, hselected⟩ := List.mem_filter.mp hr
  by_cases hrk : key r = k
  · rw [hkey r hmem hrk, hbefore] at hselected
    exact absurd hselected Bool.false_ne_true
  · rw [if_neg hrk, id]

/-- The one row under a key. -/
theorem filter_key {k : κ} {rows : List α} {row : α}
    (hunique : UniqueKeys key rows)
    (hlookup : lookup key k rows = some row) :
    rows.filter (fun r => key r = k) = [row] := by
  induction rows with
  | nil => simp [lookup] at hlookup
  | cons head rest ih =>
      obtain ⟨hhead, hrest⟩ := List.nodup_cons.mp hunique
      by_cases heq : key head = k
      · have hrow : head = row := by
          simpa [lookup, heq] using hlookup
        have hothers : rest.filter (fun r => key r = k) = [] := by
          rw [List.filter_eq_nil_iff]
          intro r hr hrk
          apply hhead
          rw [heq, ← of_decide_eq_true hrk]
          exact List.mem_map_of_mem hr
        rw [List.filter_cons_of_pos (by simp [heq]), hothers, hrow]
      · have htail : lookup key k rest = some row := by
          simpa [lookup, heq] using hlookup
        rw [List.filter_cons_of_neg (by simp [heq]), ih hrest htail]

/-- A change of all rows that keeps their keys. -/
theorem lookup_map {change : α → α} (hkeep : KeepsKey key change) (k : κ)
    (rows : List α) :
    lookup key k (rows.map change) = (lookup key k rows).map change := by
  unfold lookup
  rw [List.find?_map]
  congr 2
  funext row
  simp only [Function.comp_apply, hkeep row]

end KeyedTable
