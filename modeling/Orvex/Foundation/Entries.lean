import Mathlib.Logic.Function.Basic
import Mathlib.Tactic

/-!
# Maps that are written key by key

A map gives each key at most one value, and a later write to a key takes the
place of an earlier one.  After a list of writes a key holds what the last
write to it gave.
-/

structure Entries (κ ν : Type*) where
  get : κ → Option ν

namespace Entries

variable {κ ν ω : Type*}

def empty : Entries κ ν := ⟨fun _ => none⟩

def has (entries : Entries κ ν) (key : κ) : Bool := (entries.get key).isSome

@[simp] theorem get_empty (key : κ) : (empty : Entries κ ν).get key = none :=
  rfl

theorem has_eq_true_iff {entries : Entries κ ν} {key : κ} :
    entries.has key = true ↔ ∃ value, entries.get key = some value :=
  Option.isSome_iff_exists

variable [DecidableEq κ]

def set (entries : Entries κ ν) (key : κ) (value : ν) : Entries κ ν :=
  ⟨Function.update entries.get key (some value)⟩

@[simp] theorem get_set_self (entries : Entries κ ν) (key : κ) (value : ν) :
    (entries.set key value).get key = some value := by
  simp [set]

theorem get_set_of_ne (entries : Entries κ ν) {key other : κ} (value : ν)
    (hne : other ≠ key) :
    (entries.set key value).get other = entries.get other := by
  simp [set, hne]

theorem get_set (entries : Entries κ ν) (key other : κ) (value : ν) :
    (entries.set key value).get other =
      if other = key then some value else entries.get other := by
  by_cases heq : other = key
  · rw [if_pos heq, heq, get_set_self]
  · rw [if_neg heq, get_set_of_ne entries value heq]

/-- The writes of a list, from its first element on. -/
def setAll (key : ω → κ) (value : ω → ν) (writes : List ω)
    (entries : Entries κ ν) : Entries κ ν :=
  writes.foldl (fun acc w => acc.set (key w) (value w)) entries

variable {key : ω → κ} {value : ω → ν}

@[simp] theorem setAll_nil (entries : Entries κ ν) :
    setAll key value [] entries = entries := rfl

@[simp] theorem setAll_append (writes more : List ω)
    (entries : Entries κ ν) :
    setAll key value (writes ++ more) entries =
      setAll key value more (setAll key value writes entries) :=
  List.foldl_append

@[simp] theorem setAll_cons (w : ω) (writes : List ω)
    (entries : Entries κ ν) :
    setAll key value (w :: writes) entries =
      setAll key value writes (entries.set (key w) (value w)) := rfl

/-- Writes to other keys leave the value of a key. -/
theorem get_setAll_of_forall_ne {writes : List ω} {k : κ}
    (hother : ∀ w ∈ writes, key w ≠ k) (entries : Entries κ ν) :
    (setAll key value writes entries).get k = entries.get k := by
  induction writes generalizing entries with
  | nil => rfl
  | cons w rest ih =>
      have hrest := ih (fun x hx => hother x (List.mem_cons_of_mem w hx))
        (entries.set (key w) (value w))
      have hhead := hother w List.mem_cons_self
      rw [setAll_cons, hrest, get_set_of_ne entries _ (Ne.symm hhead)]

/-- A key holds what the last write to it gave. -/
theorem get_setAll_last {before after : List ω} {w : ω}
    (hafter : ∀ x ∈ after, key x ≠ key w) (entries : Entries κ ν) :
    (setAll key value (before ++ w :: after) entries).get (key w) =
      some (value w) := by
  rw [setAll_append, setAll_cons, get_setAll_of_forall_ne hafter,
    get_set_self]

/-- What holds of all written values and of those before holds of every value
after the writes. -/
theorem forall_get_setAll {p : ν → Prop} {writes : List ω}
    (hwrites : ∀ w ∈ writes, p (value w)) {entries : Entries κ ν}
    (hentries : ∀ k v, entries.get k = some v → p v) :
    ∀ k v, (setAll key value writes entries).get k = some v → p v := by
  induction writes generalizing entries with
  | nil => exact hentries
  | cons w rest ih =>
      apply ih (fun x hx => hwrites x (List.mem_cons_of_mem w hx))
      intro k v hget
      rw [get_set] at hget
      split at hget
      next =>
        rw [← Option.some.inj hget]
        exact hwrites w List.mem_cons_self
      next => exact hentries k v hget

/-- The last element of a list that satisfies a predicate, if there is one. -/
theorem exists_last_or_forall_not (p : ω → Prop) (writes : List ω) :
    (∀ w ∈ writes, ¬ p w) ∨
      ∃ before w after, writes = before ++ w :: after ∧ p w ∧
        ∀ x ∈ after, ¬ p x := by
  classical
  induction writes with
  | nil => exact Or.inl (by simp)
  | cons head rest ih =>
      rcases ih with hnone | ⟨before, w, after, hsplit, hw, hafter⟩
      · by_cases hhead : p head
        · exact Or.inr ⟨[], head, rest, rfl, hhead, hnone⟩
        · refine Or.inl (fun w hmem => ?_)
          rcases List.mem_cons.mp hmem with heq | hin
          · rw [heq]
            exact hhead
          · exact hnone w hin
      · exact Or.inr ⟨head :: before, w, after, by rw [hsplit]; rfl, hw,
          hafter⟩

end Entries
