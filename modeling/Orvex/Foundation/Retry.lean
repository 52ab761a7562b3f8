import Mathlib.Tactic

/-!
# Attempts within a budget

Something is attempted until an attempt is the last one or the budget is
spent.  What an attempt gives and whether it is the last one are functions of
its place.
-/

namespace Retry

variable {α : Type*}

/-- The outcomes of the attempts that are made. -/
def outcomes : (ℕ → Bool) → ℕ → (ℕ → α) → List α
  | _, 0, _ => []
  | stops, budget + 1, outcome =>
      outcome 0 ::
        if stops 0 then []
        else outcomes (fun place => stops (place + 1)) budget
          (fun place => outcome (place + 1))

variable {stops : ℕ → Bool} {budget : ℕ} {outcome : ℕ → α}

@[simp] theorem outcomes_zero : outcomes stops 0 outcome = [] := rfl

theorem outcomes_of_stop (h : stops 0 = true) :
    outcomes stops (budget + 1) outcome = [outcome 0] := by
  rw [outcomes, if_pos h]

theorem outcomes_one : outcomes stops 1 outcome = [outcome 0] := by
  rw [outcomes, outcomes_zero, ite_self]

theorem outcomes_of_retry (h : stops 0 = false) :
    outcomes stops (budget + 1) outcome =
      outcome 0 :: outcomes (fun place => stops (place + 1)) budget
        (fun place => outcome (place + 1)) := by
  rw [outcomes, h, if_neg Bool.false_ne_true]

theorem outcomes_ne_nil :
    outcomes stops (budget + 1) outcome ≠ [] := by
  rw [outcomes]
  exact List.cons_ne_nil _ _

/-- No more attempts are made than the budget allows. -/
theorem length_outcomes_le :
    (outcomes stops budget outcome).length ≤ budget := by
  induction budget generalizing stops outcome with
  | zero => exact Nat.le_refl 0
  | succ budget ih =>
      cases hstop : stops 0 with
      | true =>
          rw [outcomes_of_stop hstop]
          exact Nat.succ_le_succ (Nat.zero_le budget)
      | false =>
          rw [outcomes_of_retry hstop, List.length_cons]
          exact Nat.succ_le_succ ih

/-- Each attempt gives what the function gives at its place. -/
theorem getElem?_outcomes {place : ℕ}
    (hplace : place < (outcomes stops budget outcome).length) :
    (outcomes stops budget outcome)[place]? = some (outcome place) := by
  induction budget generalizing stops outcome place with
  | zero => exact absurd hplace (Nat.not_lt_zero place)
  | succ budget ih =>
      cases hstop : stops 0 with
      | true =>
          rw [outcomes_of_stop hstop] at hplace ⊢
          have hzero : place = 0 := by
            simpa using hplace
          rw [hzero]
          rfl
      | false =>
          rw [outcomes_of_retry hstop] at hplace ⊢
          cases place with
          | zero => rfl
          | succ place =>
              rw [List.getElem?_cons_succ]
              apply ih
              simpa using hplace

/-- An attempt is followed by another one exactly when it does not stop the
attempts and the budget is not spent. -/
theorem lt_length_outcomes_iff {place : ℕ} :
    place < (outcomes stops budget outcome).length ↔
      place < budget ∧ ∀ earlier < place, stops earlier = false := by
  induction budget generalizing stops outcome place with
  | zero => simp
  | succ budget ih =>
      cases place with
      | zero =>
          have hpos := List.length_pos_iff.mpr
            (@outcomes_ne_nil α stops budget outcome)
          simp [hpos]
      | succ place =>
          cases hstop : stops 0 with
          | true =>
              rw [outcomes_of_stop hstop]
              constructor
              · intro h
                simp at h
              · intro h
                have hfirst := h.2 0 (Nat.succ_pos place)
                rw [hstop] at hfirst
                cases hfirst
          | false =>
              rw [outcomes_of_retry hstop, List.length_cons,
                Nat.succ_lt_succ_iff, ih, Nat.succ_lt_succ_iff]
              constructor
              · intro h
                refine ⟨h.1, ?_⟩
                intro earlier hearlier
                cases earlier with
                | zero => exact hstop
                | succ earlier =>
                    exact h.2 earlier (Nat.lt_of_succ_lt_succ hearlier)
              · intro h
                refine ⟨h.1, ?_⟩
                intro earlier hearlier
                exact h.2 (earlier + 1) (Nat.succ_lt_succ hearlier)

theorem mem_outcomes_iff {a : α} :
    a ∈ outcomes stops budget outcome ↔
      ∃ place < budget, (∀ earlier < place, stops earlier = false) ∧
        outcome place = a := by
  rw [List.mem_iff_getElem?]
  constructor
  · intro h
    obtain ⟨place, hplace⟩ := h
    have hlt : place < (outcomes stops budget outcome).length :=
      (List.getElem?_eq_some_iff.mp hplace).1
    rw [getElem?_outcomes hlt] at hplace
    have hmade := lt_length_outcomes_iff.mp hlt
    exact ⟨place, hmade.1, hmade.2, Option.some.inj hplace⟩
  · intro h
    obtain ⟨place, hbudget, hretried, houtcome⟩ := h
    have hlt : place < (outcomes stops budget outcome).length :=
      lt_length_outcomes_iff.mpr ⟨hbudget, hretried⟩
    exact ⟨place, by rw [getElem?_outcomes hlt, houtcome]⟩

end Retry
