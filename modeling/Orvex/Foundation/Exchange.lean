import Orvex.Foundation.Action

/-!
# Requests to a peer

A program sends requests to a peer, which has a state of its own and answers
as it likes.  The requests and their answers are written down, so that what a
program did can be compared with what it was meant to do.
-/

namespace Exchange

/-- What a peer makes of a request. -/
def Peer (σ ρ α : Type) := ρ → σ → α × σ

structure World (σ ρ α : Type) where
  peer : σ
  /-- The oldest request comes first, each with its answer. -/
  log : List (ρ × α)

variable {σ ρ α β γ ε : Type}

def World.sent (w : World σ ρ α) : List ρ := w.log.map Prod.fst

def ask (peer : Peer σ ρ α) (request : ρ) : Fallible (World σ ρ α) ε α :=
  fun w => (.ok (peer request w.peer).1,
    ⟨(peer request w.peer).2, w.log ++ [(request, (peer request w.peer).1)]⟩)

/-! ## What a program says -/

/-- Whatever the peer does, the result and what is said on the way are as they
should be. -/
def Talks (p : Except ε β → List (ρ × α) → Prop)
    (x : Fallible (World σ ρ α) ε β) : Prop :=
  ∀ w, ∃ said, (x w).2.log = w.log ++ said ∧ p (x w).1 said

theorem Talks.mono {p q : Except ε β → List (ρ × α) → Prop}
    {x : Fallible (World σ ρ α) ε β} (h : Talks p x)
    (hpq : ∀ result said, p result said → q result said) : Talks q x := by
  intro w
  obtain ⟨said, hlog, hp⟩ := h w
  exact ⟨said, hlog, hpq _ _ hp⟩

theorem talks_pure {p : Except ε β → List (ρ × α) → Prop} {b : β}
    (h : p (.ok b) []) : Talks p (pure b : Fallible (World σ ρ α) ε β) :=
  fun w => ⟨[], (List.append_nil w.log).symm, h⟩

theorem talks_fail {p : Except ε β → List (ρ × α) → Prop} {e : ε}
    (h : p (.error e) []) :
    Talks p (Fallible.fail e : Fallible (World σ ρ α) ε β) :=
  fun w => ⟨[], (List.append_nil w.log).symm, h⟩

/-- A request and what follows from its answer. -/
theorem talks_ask_bind {peer : Peer σ ρ α} {request : ρ}
    {k : α → Fallible (World σ ρ α) ε β}
    {p : Except ε β → List (ρ × α) → Prop}
    (h : ∀ answer, Talks (fun result rest =>
      p result ((request, answer) :: rest)) (k answer)) :
    Talks p (ask peer request >>= k) := by
  intro w
  obtain ⟨rest, hlog, hp⟩ := h (peer request w.peer).1
    ⟨(peer request w.peer).2, w.log ++ [(request, (peer request w.peer).1)]⟩
  refine ⟨(request, (peer request w.peer).1) :: rest, ?_, hp⟩
  have hrun : (ask peer request >>= k) w = k (peer request w.peer).1
      ⟨(peer request w.peer).2,
        w.log ++ [(request, (peer request w.peer).1)]⟩ := rfl
  rw [hrun, hlog, List.append_assoc]
  rfl

/-- A program and what follows from its result. -/
theorem Talks.bind {p : Except ε β → List (ρ × α) → Prop}
    {q : Except ε γ → List (ρ × α) → Prop}
    {x : Fallible (World σ ρ α) ε β} {k : β → Fallible (World σ ρ α) ε γ}
    (hx : Talks p x)
    (herror : ∀ e said, p (.error e) said → q (.error e) said)
    (hok : ∀ b said, p (.ok b) said →
      Talks (fun result rest => q result (said ++ rest)) (k b)) :
    Talks q (x >>= k) := by
  intro w
  obtain ⟨said, hlog, hp⟩ := hx w
  cases hrun : x w with
  | mk result next =>
      rw [hrun] at hlog hp
      cases result with
      | error e =>
          rw [Fallible.bind_of_error hrun]
          exact ⟨said, hlog, herror e said hp⟩
      | ok b =>
          rw [Fallible.bind_of_ok hrun]
          obtain ⟨rest, hrest, hq⟩ := hok b said hp next
          refine ⟨said ++ rest, ?_, hq⟩
          rw [hrest, hlog, List.append_assoc]

/-! ## What a program sends -/

/-- The same of the requests alone. -/
def Sends (p : Except ε β → List ρ → Prop)
    (x : Fallible (World σ ρ α) ε β) : Prop :=
  Talks (fun result said => p result (said.map Prod.fst)) x

theorem Sends.mono {p q : Except ε β → List ρ → Prop}
    {x : Fallible (World σ ρ α) ε β} (h : Sends p x)
    (hpq : ∀ result requests, p result requests → q result requests) :
    Sends q x :=
  Talks.mono h (fun result said => hpq result (said.map Prod.fst))

theorem sends_pure {p : Except ε β → List ρ → Prop} {b : β}
    (h : p (.ok b) []) : Sends p (pure b : Fallible (World σ ρ α) ε β) :=
  talks_pure h

theorem sends_fail {p : Except ε β → List ρ → Prop} {e : ε}
    (h : p (.error e) []) :
    Sends p (Fallible.fail e : Fallible (World σ ρ α) ε β) :=
  talks_fail h

theorem sends_ask_bind {peer : Peer σ ρ α} {request : ρ}
    {k : α → Fallible (World σ ρ α) ε β} {p : Except ε β → List ρ → Prop}
    (h : ∀ answer, Sends (fun result rest => p result (request :: rest))
      (k answer)) :
    Sends p (ask peer request >>= k) :=
  talks_ask_bind h

theorem Sends.bind {p : Except ε β → List ρ → Prop}
    {q : Except ε γ → List ρ → Prop} {x : Fallible (World σ ρ α) ε β}
    {k : β → Fallible (World σ ρ α) ε γ} (hx : Sends p x)
    (herror : ∀ e requests, p (.error e) requests → q (.error e) requests)
    (hok : ∀ b requests, p (.ok b) requests →
      Sends (fun result rest => q result (requests ++ rest)) (k b)) :
    Sends q (x >>= k) := by
  apply Talks.bind hx
  · intro e said hsaid
    exact herror e _ hsaid
  · intro b said hsaid
    apply Talks.mono (hok b _ hsaid)
    intro result rest hrest
    rw [List.map_append]
    exact hrest

theorem Sends.sent {p : Except ε β → List ρ → Prop}
    {x : Fallible (World σ ρ α) ε β} (h : Sends p x) (w : World σ ρ α) :
    ∃ requests, (x w).2.sent = w.sent ++ requests ∧ p (x w).1 requests := by
  obtain ⟨said, hlog, hp⟩ := h w
  exact ⟨said.map Prod.fst, by rw [World.sent, hlog, List.map_append]; rfl,
    hp⟩

/-- What each request keeps, a request keeps as a step of a program. -/
theorem keeps_ask {inv : World σ ρ α → Prop} {peer : Peer σ ρ α}
    (h : ∀ request w, inv w →
      inv ⟨(peer request w.peer).2,
        w.log ++ [(request, (peer request w.peer).1)]⟩) (request : ρ) :
    Fallible.Keeps inv
      (ask peer request : Fallible (World σ ρ α) ε α) :=
  fun w hw => h request w hw

end Exchange
