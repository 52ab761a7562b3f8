import Mathlib.Algebra.BigOperators.Group.Finset.Basic
import Mathlib.Algebra.Order.BigOperators.Group.Finset
import Mathlib.Data.Fintype.BigOperators
import Mathlib.Tactic.NormNum
import Orvex.Foundation.Contract

/-!
# The test token

Balances add up to the supply over any run of messages, and apart from the
zero address a balance is what the Transfer events say.
-/

namespace Orvex
namespace TestUSDC

/-- A 256-bit amount, as a message carries it. -/
abbrev Uint256 := {n : ℕ // n < 2 ^ 256}

def maxUint256 : ℕ := 2 ^ 256 - 1

/-- Checked addition: an overflow reverts. -/
def checkedAdd (a b : ℕ) : Option ℕ :=
  if a + b < 2 ^ 256 then some (a + b) else none

variable {α : Type} [DecidableEq α]

structure Storage (α : Type) where
  totalSupply : ℕ
  balanceOf : α → ℕ
  allowance : α → α → ℕ
  paused : Bool
  owner : α

inductive Event (α : Type) where
  | transfer (sender recipient : α) (value : ℕ)
  | approval (owner spender : α) (value : ℕ)

inductive Method (α : Type) where
  | setPaused (p : Bool)
  | mint (recipient : α) (amount : Uint256)
  | transfer (recipient : α) (amount : Uint256)
  | approve (spender : α) (amount : Uint256)
  | transferFrom (holder recipient : α) (amount : Uint256)

structure Message (α : Type) where
  sender : α
  method : Method α

/-- The storage after construction. -/
def deployed (owner : α) : Storage α where
  totalSupply := 0
  balanceOf _ := 0
  allowance _ _ := 0
  paused := false
  owner := owner

def setAllowance (owner spender : α) (amount : ℕ) (s : Storage α) :
    Storage α :=
  { s with
    allowance := Function.update s.allowance owner
      (Function.update (s.allowance owner) spender amount) }

/-- The two balances are written one after the other. -/
def move (holder recipient : α) (amount : ℕ) (s : Storage α) :
    Option (Storage α) := do
  let lowered := Function.update s.balanceOf holder
    (s.balanceOf holder - amount)
  let raised ← checkedAdd (lowered recipient) amount
  pure { s with balanceOf := Function.update lowered recipient raised }

def setPaused (sender : α) (p : Bool) (s : Storage α) :
    Option (Storage α × List (Event α)) :=
  if sender = s.owner then some ({ s with paused := p }, []) else none

def mint (zero recipient : α) (amount : ℕ) (s : Storage α) :
    Option (Storage α × List (Event α)) := do
  let supply ← checkedAdd s.totalSupply amount
  let balance ← checkedAdd (s.balanceOf recipient) amount
  pure
    ({ s with
        totalSupply := supply
        balanceOf := Function.update s.balanceOf recipient balance },
      [.transfer zero recipient amount])

def transfer (sender recipient : α) (amount : ℕ) (s : Storage α) :
    Option (Storage α × List (Event α)) :=
  if s.paused then none
  else if s.balanceOf sender < amount then none
  else do
    let moved ← move sender recipient amount s
    pure (moved, [.transfer sender recipient amount])

def approve (sender spender : α) (amount : ℕ) (s : Storage α) :
    Option (Storage α × List (Event α)) :=
  some (setAllowance sender spender amount s,
    [.approval sender spender amount])

/-- An allowance of the largest amount is never used up. -/
def spendAllowance (holder sender : α) (amount : ℕ) (s : Storage α) :
    Storage α :=
  if s.allowance holder sender ≠ maxUint256 then
    setAllowance holder sender (s.allowance holder sender - amount) s
  else s

def transferFrom (sender holder recipient : α) (amount : ℕ)
    (s : Storage α) : Option (Storage α × List (Event α)) :=
  if s.paused then none
  else if s.allowance holder sender < amount then none
  else if s.balanceOf holder < amount then none
  else do
    let moved ← move holder recipient amount
      (spendAllowance holder sender amount s)
    pure (moved, [.transfer holder recipient amount])

/-- The contract; `zero` is the zero address. -/
def contract (zero : α) : Contract (Storage α) (Message α) (Event α) where
  execute m s :=
    match m.method with
    | .setPaused p => setPaused m.sender p s
    | .mint recipient amount => mint zero recipient amount s
    | .transfer recipient amount => transfer m.sender recipient amount s
    | .approve spender amount => approve m.sender spender amount s
    | .transferFrom holder recipient amount =>
        transferFrom m.sender holder recipient amount s

/-! ## What a message can do -/

/-- The balances after a transfer. -/
def moved (balances : α → ℕ) (holder recipient : α) (amount : ℕ) : α → ℕ :=
  let lowered := Function.update balances holder (balances holder - amount)
  Function.update lowered recipient (lowered recipient + amount)

/-- The effects of the messages of one sender. -/
inductive Effect (zero sender : α) (s : Storage α) :
    Storage α → List (Event α) → Prop where
  | paused (p : Bool) (howner : sender = s.owner) :
      Effect zero sender s { s with paused := p } []
  | minted (recipient : α) (amount : ℕ)
      (hsupply : s.totalSupply + amount < 2 ^ 256) :
      Effect zero sender s
        { s with
          totalSupply := s.totalSupply + amount
          balanceOf := Function.update s.balanceOf recipient
            (s.balanceOf recipient + amount) }
        [.transfer zero recipient amount]
  | approved (spender : α) (amount : ℕ) :
      Effect zero sender s (setAllowance sender spender amount s)
        [.approval sender spender amount]
  | sent (recipient : α) (amount : ℕ)
      (hfunds : amount ≤ s.balanceOf sender) :
      Effect zero sender s
        { s with balanceOf := moved s.balanceOf sender recipient amount }
        [.transfer sender recipient amount]
  | taken (holder recipient : α) (amount : ℕ)
      (hallowed : amount ≤ s.allowance holder sender)
      (hfunds : amount ≤ s.balanceOf holder) :
      Effect zero sender s
        { spendAllowance holder sender amount s with
          balanceOf := moved s.balanceOf holder recipient amount }
        [.transfer holder recipient amount]

theorem checkedAdd_eq_some {a b sum : ℕ} :
    checkedAdd a b = some sum ↔ a + b < 2 ^ 256 ∧ sum = a + b := by
  unfold checkedAdd
  by_cases h : a + b < 2 ^ 256
  · rw [if_pos h]
    exact ⟨fun heq => ⟨h, (Option.some.inj heq).symm⟩,
      fun heq => congrArg some heq.2.symm⟩
  · rw [if_neg h]
    exact ⟨fun heq => absurd heq (Option.some_ne_none sum).symm,
      fun heq => absurd heq.1 h⟩

theorem move_eq_some {holder recipient : α} {amount : ℕ} {s s' : Storage α}
    (h : move holder recipient amount s = some s') :
    s' = { s with balanceOf := moved s.balanceOf holder recipient amount } := by
  unfold move at h
  simp only [Option.bind_eq_bind, Option.bind_eq_some_iff, Option.pure_def,
    Option.some.injEq] at h
  obtain ⟨raised, hraised, hstate⟩ := h
  have hsum := (checkedAdd_eq_some.mp hraised).2
  rw [← hstate, hsum]
  rfl

@[simp] theorem spendAllowance_balanceOf (holder sender : α) (amount : ℕ)
    (s : Storage α) :
    (spendAllowance holder sender amount s).balanceOf = s.balanceOf := by
  unfold spendAllowance
  split <;> rfl

@[simp] theorem spendAllowance_totalSupply (holder sender : α) (amount : ℕ)
    (s : Storage α) :
    (spendAllowance holder sender amount s).totalSupply = s.totalSupply := by
  unfold spendAllowance
  split <;> rfl

theorem effect_of_execute {zero : α} {m : Message α} {s s' : Storage α}
    {events : List (Event α)}
    (h : (contract zero).execute m s = some (s', events)) :
    Effect zero m.sender s s' events := by
  obtain ⟨sender, method⟩ := m
  cases method with
  | setPaused p =>
      simp only [contract, setPaused] at h
      split at h
      next howner =>
        simp only [Option.some.injEq, Prod.mk.injEq] at h
        rw [← h.1, ← h.2]
        exact .paused p howner
      next => contradiction
  | mint recipient amount =>
      simp only [contract, mint, Option.bind_eq_bind,
        Option.bind_eq_some_iff, Option.pure_def, Option.some.injEq,
        Prod.mk.injEq] at h
      obtain ⟨supply, hsupply, balance, hbalance, hstate, hevents⟩ := h
      have hsum := checkedAdd_eq_some.mp hsupply
      have hraised := checkedAdd_eq_some.mp hbalance
      rw [← hstate, ← hevents, hsum.2, hraised.2]
      exact .minted recipient amount hsum.1
  | transfer recipient amount =>
      simp only [contract, transfer] at h
      split at h
      next => contradiction
      next =>
        split at h
        next => contradiction
        next hfunds =>
          simp only [Option.bind_eq_bind, Option.bind_eq_some_iff,
            Option.pure_def, Option.some.injEq, Prod.mk.injEq] at h
          obtain ⟨after, hmove, hstate, hevents⟩ := h
          rw [← hstate, ← hevents, move_eq_some hmove]
          exact .sent recipient amount (not_lt.mp hfunds)
  | approve spender amount =>
      simp only [contract, approve, Option.some.injEq, Prod.mk.injEq] at h
      rw [← h.1, ← h.2]
      exact .approved spender amount
  | transferFrom holder recipient amount =>
      simp only [contract, transferFrom] at h
      split at h
      next => contradiction
      next =>
        split at h
        next => contradiction
        next hallowed =>
          split at h
          next => contradiction
          next hfunds =>
            simp only [Option.bind_eq_bind, Option.bind_eq_some_iff,
              Option.pure_def, Option.some.injEq, Prod.mk.injEq] at h
            obtain ⟨after, hmove, hstate, hevents⟩ := h
            rw [← hstate, ← hevents, move_eq_some hmove,
              spendAllowance_balanceOf]
            exact .taken holder recipient amount (not_lt.mp hallowed)
              (not_lt.mp hfunds)

/-! ## Supply -/

section

variable [Fintype α]

/-- The balances add up to the supply, which fits in a word. -/
def Backed (s : Storage α) : Prop :=
  ∑ a, s.balanceOf a = s.totalSupply ∧ s.totalSupply < 2 ^ 256

theorem sum_update (f : α → ℕ) (a : α) (x : ℕ) :
    ∑ b, Function.update f a x b + f a = ∑ b, f b + x := by
  have hsum := Finset.sum_eq_add_sum_sdiff_singleton_of_mem
    (Finset.mem_univ a) f
  rw [Finset.sum_update_of_mem (Finset.mem_univ a)]
  omega

theorem sum_moved {balances : α → ℕ} {holder : α} (recipient : α)
    {amount : ℕ} (hfunds : amount ≤ balances holder) :
    ∑ a, moved balances holder recipient amount a = ∑ a, balances a := by
  have hlowered := sum_update balances holder (balances holder - amount)
  have hraised := sum_update
    (Function.update balances holder (balances holder - amount)) recipient
    (Function.update balances holder (balances holder - amount) recipient +
      amount)
  simp only [moved]
  omega

omit [DecidableEq α] in
theorem Backed.of_same {s s' : Storage α} (h : Backed s)
    (hsum : ∑ a, s'.balanceOf a = ∑ a, s.balanceOf a)
    (hsupply : s'.totalSupply = s.totalSupply) : Backed s' := by
  unfold Backed
  rw [hsum, hsupply]
  exact h

theorem Effect.backed {zero sender : α} {s s' : Storage α}
    {events : List (Event α)} (heffect : Effect zero sender s s' events)
    (h : Backed s) : Backed s' := by
  cases heffect with
  | paused p howner => exact h
  | minted recipient amount hsupply =>
      have hsum := sum_update s.balanceOf recipient
        (s.balanceOf recipient + amount)
      refine ⟨?_, hsupply⟩
      have hold := h.1
      simp only
      omega
  | approved spender amount => exact h
  | sent recipient amount hfunds =>
      exact h.of_same (sum_moved recipient hfunds) rfl
  | taken holder recipient amount hallowed hfunds =>
      exact h.of_same (sum_moved recipient hfunds)
        (spendAllowance_totalSupply holder sender amount s)

end

/-! ## The log -/

/-- What an event says that an address received. -/
def Event.receivedBy (a : α) : Event α → ℕ
  | .transfer _ recipient value => if recipient = a then value else 0
  | .approval _ _ _ => 0

def Event.sentBy (a : α) : Event α → ℕ
  | .transfer sender _ value => if sender = a then value else 0
  | .approval _ _ _ => 0

def receivedTotal (a : α) (log : List (Event α)) : ℕ :=
  (log.map (Event.receivedBy a)).sum

def sentTotal (a : α) (log : List (Event α)) : ℕ :=
  (log.map (Event.sentBy a)).sum

/-- What an address holds and has sent is what it has received; mints are
logged as sent by the zero address. -/
def Logged (zero : α) (s : Storage α) (log : List (Event α)) : Prop :=
  ∀ a, a ≠ zero → s.balanceOf a + sentTotal a log = receivedTotal a log

theorem receivedTotal_append (a : α) (log events : List (Event α)) :
    receivedTotal a (log ++ events) =
      receivedTotal a log + receivedTotal a events := by
  simp [receivedTotal]

theorem sentTotal_append (a : α) (log events : List (Event α)) :
    sentTotal a (log ++ events) = sentTotal a log + sentTotal a events := by
  simp [sentTotal]

/-- A transfer takes from the holder what it gives to the recipient, also
where they are the same. -/
theorem moved_apply {balances : α → ℕ} {holder : α} (recipient : α)
    {amount : ℕ} (hfunds : amount ≤ balances holder) (a : α) :
    moved balances holder recipient amount a +
        (if holder = a then amount else 0) =
      balances a + (if recipient = a then amount else 0) := by
  by_cases hholder : holder = a
  · subst hholder
    by_cases hrecipient : recipient = holder
    · subst hrecipient
      simp [moved]
      omega
    · have hother : holder ≠ recipient := fun h => hrecipient h.symm
      simp [moved, hrecipient, hother]
      omega
  · have hholder' : a ≠ holder := fun h => hholder h.symm
    by_cases hrecipient : recipient = a
    · subst hrecipient
      simp [moved, hholder, hholder']
    · have hother : a ≠ recipient := fun h => hrecipient h.symm
      simp [moved, hholder, hholder', hrecipient, hother]

theorem Logged.moved {zero : α} {s s' : Storage α} {log : List (Event α)}
    (h : Logged zero s log) {holder recipient : α} {amount : ℕ}
    (hfunds : amount ≤ s.balanceOf holder)
    (hbalances : s'.balanceOf =
      TestUSDC.moved s.balanceOf holder recipient amount) :
    Logged zero s' (log ++ [.transfer holder recipient amount]) := by
  intro a ha
  have hold := h a ha
  have hmoved := moved_apply recipient hfunds a
  rw [sentTotal_append, receivedTotal_append, hbalances]
  simp only [sentTotal, receivedTotal, Event.sentBy, Event.receivedBy,
    List.map_cons, List.map_nil, List.sum_cons, List.sum_nil] at hold ⊢
  omega

theorem Effect.logged {zero sender : α} {s s' : Storage α}
    {log events : List (Event α)}
    (heffect : Effect zero sender s s' events) (h : Logged zero s log) :
    Logged zero s' (log ++ events) := by
  cases heffect with
  | paused p howner =>
      rw [List.append_nil]
      exact h
  | minted recipient amount hsupply =>
      intro a ha
      have hold := h a ha
      have hzero : zero ≠ a := fun heq => ha heq.symm
      rw [sentTotal_append, receivedTotal_append]
      by_cases hrecipient : recipient = a
      · subst hrecipient
        simp [sentTotal, receivedTotal, Event.sentBy, Event.receivedBy, hzero]
          at hold ⊢
        omega
      · have hother : a ≠ recipient := fun heq => hrecipient heq.symm
        simp [sentTotal, receivedTotal, Event.sentBy, Event.receivedBy, hzero,
          hrecipient, hother] at hold ⊢
        omega
  | approved spender amount =>
      intro a ha
      have hold := h a ha
      rw [sentTotal_append, receivedTotal_append]
      simp [sentTotal, receivedTotal, Event.sentBy, Event.receivedBy] at hold ⊢
      exact hold
  | sent recipient amount hfunds => exact h.moved hfunds rfl
  | taken holder recipient amount hallowed hfunds =>
      exact h.moved hfunds rfl

/-! ## Transfers -/

theorem move_of_lt {s : Storage α} {holder recipient : α} {amount : ℕ}
    (h : moved s.balanceOf holder recipient amount recipient < 2 ^ 256) :
    ∃ s', move holder recipient amount s = some s' := by
  simp only [moved, Function.update_self] at h
  have hadd := checkedAdd_eq_some.mpr ⟨h, rfl⟩
  simp [move, hadd]

/-- What a recipient then holds is at most the supply. -/
theorem moved_lt [Fintype α] {s : Storage α} (h : Backed s)
    (holder recipient : α) {amount : ℕ}
    (hfunds : amount ≤ s.balanceOf holder) :
    moved s.balanceOf holder recipient amount recipient < 2 ^ 256 := by
  have hsum := sum_moved recipient hfunds
  have hsingle := Finset.single_le_sum
    (f := moved s.balanceOf holder recipient amount)
    (fun a _ => Nat.zero_le _) (Finset.mem_univ recipient)
  rw [hsum, h.1] at hsingle
  exact lt_of_le_of_lt hsingle h.2

/-- No balance overflows: a transfer is executed as soon as it is funded and
the token is not paused. -/
theorem transfer_executes_iff [Fintype α] {zero : α} {s : Storage α}
    (h : Backed s) (sender recipient : α) (amount : Uint256) :
    ((contract zero).execute ⟨sender, .transfer recipient amount⟩ s).isSome =
        true ↔
      s.paused = false ∧ amount.val ≤ s.balanceOf sender := by
  simp only [contract, transfer]
  by_cases hpaused : s.paused = true
  · simp [hpaused]
  · by_cases hfunds : s.balanceOf sender < amount.val
    · simp [hpaused, hfunds]
    · have hle : amount.val ≤ s.balanceOf sender := not_lt.mp hfunds
      have hroom := moved_lt h sender recipient hle
      obtain ⟨s', hmove⟩ := move_of_lt hroom
      simp [hpaused, hfunds, hle, hmove]

/-- Over any messages from the deployment the balances add up to the supply,
which does not overflow, each balance is what the log says, and funded
transfers go through. -/
theorem run_backed_logged [Fintype α] (zero owner : α)
    (ms : List (Message α)) :
    let w := (contract zero).run ms ⟨deployed owner, []⟩
    Backed w.storage ∧ Logged zero w.storage w.log ∧
      ∀ (sender recipient : α) (amount : Uint256),
        ((contract zero).execute ⟨sender, .transfer recipient amount⟩
            w.storage).isSome = true ↔
          w.storage.paused = false ∧
            amount.val ≤ w.storage.balanceOf sender := by
  have hkept : Backed ((contract zero).run ms ⟨deployed owner, []⟩).storage ∧
      Logged zero ((contract zero).run ms ⟨deployed owner, []⟩).storage
        ((contract zero).run ms ⟨deployed owner, []⟩).log := by
    apply Contract.run_keeps
      (p := fun w => Backed w.storage ∧ Logged zero w.storage w.log)
    · intro m _ s log s' events hinv hrun
      have heffect := effect_of_execute hrun
      exact ⟨heffect.backed hinv.1, heffect.logged hinv.2⟩
    · constructor
      · simp [Backed, deployed]
      · intro a _
        rfl
  exact ⟨hkept.1, hkept.2, transfer_executes_iff hkept.1⟩

/-! ## Custody -/

section

variable [Fintype α]

/-- What others may still take from the holder. -/
def granted (holder : α) (s : Storage α) : ℕ :=
  ∑ spender, s.allowance holder spender

/-- Since `start`, the holder has lost at most what was taken on its
allowances, none of which is without limit. -/
structure Kept (holder : α) (start s : Storage α) : Prop where
  limited : ∀ spender, s.allowance holder spender < maxUint256
  spent : start.balanceOf holder + granted holder s ≤
    s.balanceOf holder + granted holder start

omit [Fintype α] in
theorem allowance_setAllowance (owner spender holder : α) (amount : ℕ)
    (s : Storage α) :
    (setAllowance owner spender amount s).allowance holder =
      if holder = owner then
        Function.update (s.allowance owner) spender amount
      else s.allowance holder := by
  unfold setAllowance
  by_cases h : holder = owner
  · subst h
    simp
  · simp [h]

/-- A balance of somebody who sends nothing is lowered by a transfer on its
allowance only. -/
theorem Effect.kept {zero sender holder : α} {start s s' : Storage α}
    {events : List (Event α)} (heffect : Effect zero sender s s' events)
    (hsender : sender ≠ holder) (h : Kept holder start s) :
    Kept holder start s' := by
  cases heffect with
  | paused p howner => exact ⟨h.limited, h.spent⟩
  | minted recipient amount hsupply =>
      refine ⟨h.limited, ?_⟩
      have hspent := h.spent
      by_cases hrecipient : holder = recipient
      · subst hrecipient
        simp only [Function.update_self, granted] at hspent ⊢
        omega
      · simp only [Function.update_of_ne hrecipient, granted] at hspent ⊢
        exact hspent
  | approved spender amount =>
      have hsame : (setAllowance sender spender amount s).allowance holder =
          s.allowance holder := by
        rw [allowance_setAllowance, if_neg (fun heq => hsender heq.symm)]
      constructor
      · rw [hsame]
        exact h.limited
      · have hspent := h.spent
        unfold granted at hspent ⊢
        rw [hsame]
        exact hspent
  | sent recipient amount hfunds =>
      refine ⟨h.limited, h.spent.trans ?_⟩
      have hmoved := moved_apply recipient hfunds holder
      rw [if_neg hsender] at hmoved
      simp only
      omega
  | taken owner recipient amount hallowed hfunds =>
      have hmoved := moved_apply recipient hfunds holder
      by_cases howner : owner = holder
      · subst howner
        have hlimit := (h.limited sender).ne
        have hsame : (spendAllowance owner sender amount s).allowance owner =
            Function.update (s.allowance owner) sender
              (s.allowance owner sender - amount) := by
          unfold spendAllowance
          rw [if_pos hlimit, allowance_setAllowance, if_pos rfl]
        have hsum := sum_update (s.allowance owner) sender
          (s.allowance owner sender - amount)
        constructor
        · intro spender
          have hlimited := h.limited spender
          simp only [hsame]
          by_cases hspender : spender = sender
          · subst hspender
            rw [Function.update_self]
            omega
          · rw [Function.update_of_ne hspender]
            exact hlimited
        · have hspent := h.spent
          rw [if_pos rfl] at hmoved
          simp only [granted, hsame] at hspent ⊢
          omega
      · have hsame : (spendAllowance owner sender amount s).allowance holder =
            s.allowance holder := by
          unfold spendAllowance
          split
          · rw [allowance_setAllowance, if_neg (fun heq => howner heq.symm)]
          · rfl
        constructor
        · simp only [hsame]
          exact h.limited
        · have hspent := h.spent
          rw [if_neg howner] at hmoved
          simp only [granted, hsame] at hspent ⊢
          omega

/-- Over any messages of others, a holder loses at most what it had allowed
them. -/
theorem run_custody (zero holder : α) (ms : List (Message α))
    (w : Contract.World (Storage α) (Event α))
    (hsilent : ∀ m ∈ ms, m.sender ≠ holder)
    (hlimited : ∀ spender, w.storage.allowance holder spender < maxUint256) :
    let after := ((contract zero).run ms w).storage
    w.storage.balanceOf holder + granted holder after ≤
      after.balanceOf holder + granted holder w.storage := by
  have hkept : Kept holder w.storage ((contract zero).run ms w).storage := by
    apply Contract.run_keeps
      (p := fun later => Kept holder w.storage later.storage)
    · intro m hm s log s' events hinv hrun
      exact (effect_of_execute hrun).kept (hsilent m hm) hinv
    · exact ⟨hlimited, le_refl _⟩
  exact hkept.spent

end

/-- Address 1 holds ten units and allows address 2 four of them. -/
def sampleStorage : Storage (Fin 4) :=
  { deployed 0 with
    totalSupply := 10
    balanceOf := fun a => if a = 1 then 10 else 0
    allowance := fun a b => if a = 1 ∧ b = 2 then 4 else 0 }

/-- Address 2 takes three units and then asks for three more. -/
def sampleMessages : List (Message (Fin 4)) :=
  [⟨2, .transferFrom 1 2 ⟨3, by norm_num⟩⟩,
    ⟨2, .transferFrom 1 2 ⟨3, by norm_num⟩⟩]

theorem sample_custody :
    sampleStorage.balanceOf 1 +
        granted 1 ((contract 0).run sampleMessages
          ⟨sampleStorage, []⟩).storage ≤
      ((contract 0).run sampleMessages ⟨sampleStorage, []⟩).storage.balanceOf
          1 + granted 1 sampleStorage := by
  apply run_custody 0 1 sampleMessages ⟨sampleStorage, []⟩
  · intro m hm
    rcases List.mem_pair.mp hm with rfl | rfl
    · decide
    · decide
  · intro spender
    simp only [sampleStorage, maxUint256]
    split
    · norm_num
    · norm_num

end TestUSDC
end Orvex
