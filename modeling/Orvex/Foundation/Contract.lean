import Mathlib.Data.List.Basic

/-!
# Contracts

A contract executes a message on its storage and emits events, or reverts and
leaves no trace.  A world is the storage with the log of all events.
-/

structure Contract (σ μ ε : Type) where
  execute : μ → σ → Option (σ × List ε)

namespace Contract

variable {σ μ ε : Type}

structure World (σ ε : Type) where
  storage : σ
  log : List ε

variable (c : Contract σ μ ε)

/-- The world after a message, which a revert leaves as it was. -/
def call (w : World σ ε) (m : μ) : World σ ε :=
  match c.execute m w.storage with
  | none => w
  | some (s, events) => ⟨s, w.log ++ events⟩

def run (ms : List μ) (w : World σ ε) : World σ ε := ms.foldl c.call w

variable {c}

@[simp] theorem run_nil (w : World σ ε) : c.run [] w = w := rfl

@[simp] theorem run_cons (m : μ) (ms : List μ) (w : World σ ε) :
    c.run (m :: ms) w = c.run ms (c.call w m) := rfl

theorem run_append (before later : List μ) (w : World σ ε) :
    c.run (before ++ later) w = c.run later (c.run before w) :=
  List.foldl_append

theorem call_of_revert {m : μ} {w : World σ ε}
    (h : c.execute m w.storage = none) : c.call w m = w := by
  simp [call, h]

theorem call_of_executed {m : μ} {w : World σ ε} {s : σ} {events : List ε}
    (h : c.execute m w.storage = some (s, events)) :
    c.call w m = ⟨s, w.log ++ events⟩ := by
  simp [call, h]

/-- What every message that is executed keeps, a call keeps. -/
theorem call_keeps {p : World σ ε → Prop} {m : μ}
    (hstep : ∀ s log s' events, p ⟨s, log⟩ →
      c.execute m s = some (s', events) → p ⟨s', log ++ events⟩)
    {w : World σ ε} (hw : p w) : p (c.call w m) := by
  cases hrun : c.execute m w.storage with
  | none =>
      rw [call_of_revert hrun]
      exact hw
  | some result =>
      rw [call_of_executed hrun]
      exact hstep w.storage w.log result.1 result.2 hw hrun

/-- What every message of a run keeps when it is executed, the run keeps. -/
theorem run_keeps {p : World σ ε → Prop} {ms : List μ}
    (hstep : ∀ m ∈ ms, ∀ s log s' events, p ⟨s, log⟩ →
      c.execute m s = some (s', events) → p ⟨s', log ++ events⟩)
    {w : World σ ε} (hw : p w) : p (c.run ms w) := by
  induction ms generalizing w with
  | nil => exact hw
  | cons m rest ih =>
      have hcall : p (c.call w m) :=
        call_keeps (hstep m List.mem_cons_self) hw
      apply ih _ hcall
      intro other hother
      exact hstep other (List.mem_cons_of_mem m hother)

end Contract
