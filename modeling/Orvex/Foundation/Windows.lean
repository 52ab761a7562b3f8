import Mathlib.Data.List.Basic
import Mathlib.Data.Nat.Init
import Mathlib.Tactic.Ring

/-!
# Windows over a list

A loop visits the places of a list in steps and cuts a window at each.  The
first elements of the windows, one step long, are the list again, and a passage
that is short enough lies in one window.
-/

namespace Windows

/-- The places from `i` on that the loop visits. -/
def places (step len : ℕ) : ℕ → ℕ → List ℕ
  | 0, _ => []
  | fuel + 1, i =>
      if i < len then i :: places step len fuel (i + step) else []

variable {α : Type*} {step len fuel i p : ℕ}

theorem mem_places (hstep : 0 < step) (hfuel : len - i ≤ fuel) :
    p ∈ places step len fuel i ↔ p < len ∧ ∃ k, p = i + k * step := by
  induction fuel generalizing i with
  | zero =>
      constructor
      · intro h
        contradiction
      · rintro ⟨hlt, k, hk⟩
        omega
  | succ fuel ih =>
      rw [places]
      by_cases hi : i < len
      · rw [if_pos hi, List.mem_cons, ih (by omega)]
        constructor
        · rintro (rfl | ⟨hlt, k, hk⟩)
          · exact ⟨hi, 0, by ring⟩
          · exact ⟨hlt, k + 1, by rw [hk]; ring⟩
        · rintro ⟨hlt, k, hk⟩
          cases k with
          | zero => exact Or.inl (by omega)
          | succ k => exact Or.inr ⟨hlt, k, by rw [hk]; ring⟩
      · rw [if_neg hi]
        constructor
        · intro h
          contradiction
        · rintro ⟨hlt, k, hk⟩
          omega

/-- The first elements of the windows are the list. -/
theorem flatMap_places (hstep : 0 < step) (l : List α)
    (hfuel : l.length - i ≤ fuel) :
    (places step l.length fuel i).flatMap
        (fun p => (l.drop p).take step) = l.drop i := by
  induction fuel generalizing i with
  | zero =>
      have hle : l.length ≤ i := by omega
      simp [places, List.drop_eq_nil_of_le hle]
  | succ fuel ih =>
      rw [places]
      by_cases hi : i < l.length
      · rw [if_pos hi, List.flatMap_cons, ih (by omega), ← List.drop_drop,
          List.take_append_drop]
      · rw [if_neg hi, List.drop_eq_nil_of_le (by omega)]
        rfl

/-- The last place up to `p` that a loop from the start visits. -/
theorem place_below (hstep : 0 < step) (hp : p < len)
    (hfuel : len ≤ fuel) :
    ∃ q ∈ places step len fuel 0, q ≤ p ∧ p < q + step := by
  have hdiv := Nat.div_add_mod p step
  have hmod := Nat.mod_lt p hstep
  have hcomm : step * (p / step) = p / step * step := Nat.mul_comm _ _
  refine ⟨p / step * step, ?_, by omega, by omega⟩
  rw [mem_places hstep (by omega)]
  exact ⟨by omega, p / step, by omega⟩

/-- A passage is in the window that starts before it and is long enough. -/
theorem passage_within (l : List α) {q size n : ℕ} (hle : q ≤ p)
    (hend : p + n ≤ q + size) :
    (l.drop p).take n <:+: (l.drop q).take size := by
  have hdrop : l.drop p = (l.drop q).drop (p - q) := by
    rw [List.drop_drop]
    congr 1
    omega
  have hinner : (l.drop p).take n =
      (((l.drop q).take size).drop (p - q)).take n := by
    rw [hdrop, List.drop_take, List.take_take]
    congr 1
    omega
  rw [hinner]
  exact (List.take_prefix _ _).isInfix.trans (List.drop_suffix _ _).isInfix

end Windows
