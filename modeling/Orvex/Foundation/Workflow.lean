import Mathlib.Data.Nat.Notation
import Mathlib.Tactic

/-!
# Workflows

A workflow goes from node to node and changes a state until it is at its last
node.  What executes it is a parameter: an engine follows the workflow if what
it returns is the state at the end of a walk from node to node.
-/

structure Workflow (ν σ ε : Type) where
  step : ν → σ → Except ε (ν × σ)
  last : ν

namespace Workflow

variable {ν σ ε φ : Type}

/-- From one place to another so many nodes are executed. -/
inductive Walk (w : Workflow ν σ ε) : ℕ → ν × σ → ν × σ → Prop where
  | here (place : ν × σ) : Walk w 0 place place
  | step {node : ν} {s : σ} {next place : ν × σ} {n : ℕ}
      (hnode : node ≠ w.last) (hstep : w.step node s = .ok next)
      (hwalk : Walk w n next place) : Walk w (n + 1) (node, s) place

/-- What the engine returns is the state at the end of a walk. -/
def Follows (engine : Workflow ν σ ε → ν → σ → Except φ σ) : Prop :=
  ∀ w node s s', engine w node s = .ok s' →
    ∃ n, Walk w n (node, s) (w.last, s')

variable {w : Workflow ν σ ε}

/-- What every node hands on holds at the end of a walk. -/
theorem Walk.keeps {p : ν → σ → Prop}
    (hstep : ∀ node s next, p node s → node ≠ w.last →
      w.step node s = .ok next → p next.1 next.2)
    {n : ℕ} {first place : ν × σ} (hwalk : Walk w n first place)
    (h : p first.1 first.2) : p place.1 place.2 := by
  induction hwalk with
  | here place => exact h
  | step hnode hnext _ ih => exact ih (hstep _ _ _ h hnode hnext)

/-- A rank that every step lowers bounds the length of a walk. -/
theorem Walk.length_le {p : ν → σ → Prop} {r : ν → σ → ℕ}
    (hstep : ∀ node s next, p node s → node ≠ w.last →
      w.step node s = .ok next →
        p next.1 next.2 ∧ r next.1 next.2 < r node s)
    {n : ℕ} {first place : ν × σ} (hwalk : Walk w n first place)
    (h : p first.1 first.2) : n + r place.1 place.2 ≤ r first.1 first.2 := by
  induction hwalk with
  | here place => exact (Nat.zero_add _).le
  | step hnode hnext _ ih =>
      have hkept := hstep _ _ _ h hnode hnext
      have hrest := ih hkept.1
      have hlower := hkept.2
      dsimp only at *
      omega

/-! ## An engine with a limit -/

variable [DecidableEq ν]

/-- The state at the last node, if so many nodes lead there. -/
def follow (w : Workflow ν σ ε) : ℕ → ν → σ → Except (Option ε) σ
  | 0, node, s => if node = w.last then .ok s else .error none
  | limit + 1, node, s =>
      if node = w.last then .ok s
      else
        match w.step node s with
        | .ok next => follow w limit next.1 next.2
        | .error exception => .error (some exception)

theorem follows_follow (limit : ℕ) :
    Follows (fun (w : Workflow ν σ ε) => w.follow limit) := by
  intro w node s s' h
  induction limit generalizing node s with
  | zero =>
      by_cases hnode : node = w.last
      · simp only [follow, if_pos hnode, Except.ok.injEq] at h
        rw [hnode, h]
        exact ⟨0, .here _⟩
      · simp [follow, hnode] at h
  | succ limit ih =>
      by_cases hnode : node = w.last
      · simp only [follow, if_pos hnode, Except.ok.injEq] at h
        rw [hnode, h]
        exact ⟨0, .here _⟩
      · simp only [follow, if_neg hnode] at h
        cases hnext : w.step node s with
        | error exception =>
            rw [hnext] at h
            contradiction
        | ok next =>
            rw [hnext] at h
            obtain ⟨n, hwalk⟩ := ih next.1 next.2 h
            exact ⟨n + 1, .step hnode hnext hwalk⟩

end Workflow
