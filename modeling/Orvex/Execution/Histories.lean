import Orvex.Execution.Steps

/-!
# What a call has done

A call hands at most one transaction to the signer, and what it has handed
over it records before it goes on.  A call is open from its look-up of the
key to its record.
-/

namespace Orvex
namespace Execution

open Awaits (Task Pool Move)

/-! ## Open calls -/

/-- The call has not yet had an answer of the signer. -/
def Unsent : Point → Prop
  | .sending _ => True
  | point => Preparing point

/-- The call has looked its key up, and has not recorded what its submission
ended with. -/
def Open : Point → Prop
  | .submitted _ => True
  | point => Unsent point

def isSending : Point → Bool
  | .sending _ => true
  | _ => false

/-- How often the call has had an answer of the signer. -/
def answersOfSigner (past : List (Point × Reply)) : ℕ :=
  past.countP (fun entry => isSending entry.1)

/-- How often the call has called the signer. -/
def sends (task : Task Call Point Reply) : ℕ :=
  answersOfSigner task.past + if isSending task.point then 1 else 0

/-- The call has recorded what its submission ended with. -/
def Recorded (past : List (Point × Reply)) : Prop :=
  ∃ submission reply, (.submitted submission, reply) ∈ past

/-- The signer has answered the call with this hash. -/
def Sent (txHash : String) (past : List (Point × Reply)) : Prop :=
  ∃ tx reply, (.sending tx, reply) ∈ past ∧ reply.answer = .sent txHash

theorem open_of_preparing {point : Point} (h : Preparing point) :
    Open point := by
  cases point with
  | checkingChain | recheckingChain | readingBalance | simulatingTransfer
  | estimatingGas => trivial
  | _ => exact absurd h id

theorem not_open_of_waitsFor {txHash : String} {point : Point}
    (h : WaitsFor txHash point) : ¬ Open point := by
  cases point with
  | waitingForReceipt | gettingReceipt | sleeping => exact id
  | _ => exact absurd h id

@[simp] theorem answersOfSigner_nil : answersOfSigner [] = 0 := rfl

@[simp] theorem answersOfSigner_append (past : List (Point × Reply))
    (point : Point) (reply : Reply) :
    answersOfSigner (past ++ [(point, reply)]) =
      answersOfSigner past + if isSending point then 1 else 0 := by
  simp [answersOfSigner, List.countP_append, List.countP_singleton]

theorem not_recorded_nil : ¬ Recorded [] := by
  rintro ⟨_, _, hmem⟩
  exact absurd hmem List.not_mem_nil

theorem recorded_append {past : List (Point × Reply)} {point : Point}
    {reply : Reply} :
    Recorded (past ++ [(point, reply)]) ↔
      Recorded past ∨ ∃ submission, point = .submitted submission := by
  constructor
  · rintro ⟨submission, found, hmem⟩
    rcases List.mem_append.mp hmem with hold | hnew
    · exact Or.inl ⟨submission, found, hold⟩
    · have hsame := List.mem_singleton.mp hnew
      rw [Prod.mk.injEq] at hsame
      exact Or.inr ⟨submission, hsame.1.symm⟩
  · rintro (⟨submission, found, hmem⟩ | ⟨submission, rfl⟩)
    · exact ⟨submission, found, List.mem_append_left _ hmem⟩
    · exact ⟨submission, reply, by simp⟩

theorem sent_append {past : List (Point × Reply)} {point : Point}
    {reply : Reply} {txHash : String} :
    Sent txHash (past ++ [(point, reply)]) ↔
      Sent txHash past ∨
        (∃ tx, point = .sending tx) ∧ reply.answer = .sent txHash := by
  constructor
  · rintro ⟨tx, found, hmem, hanswer⟩
    rcases List.mem_append.mp hmem with hold | hnew
    · exact Or.inl ⟨tx, found, hold, hanswer⟩
    · have hsame := List.mem_singleton.mp hnew
      rw [Prod.mk.injEq] at hsame
      rw [hsame.2] at hanswer
      exact Or.inr ⟨⟨tx, hsame.1.symm⟩, hanswer⟩
  · rintro (⟨tx, found, hmem, hanswer⟩ | ⟨⟨tx, rfl⟩, hanswer⟩)
    · exact ⟨tx, found, List.mem_append_left _ hmem, hanswer⟩
    · exact ⟨tx, reply, by simp, hanswer⟩

theorem not_sent_of_answersOfSigner {past : List (Point × Reply)}
    (hnone : answersOfSigner past = 0) (txHash : String) :
    ¬ Sent txHash past := by
  rintro ⟨tx, reply, hmem, -⟩
  exact absurd rfl (List.countP_eq_zero.mp hnone _ hmem)

/-! ## Histories -/

/-- What holds of the past of a call where it waits. -/
structure History (past : List (Point × Reply)) (point : Point) : Prop where
  unsent : Unsent point → answersOfSigner past = 0
  once : answersOfSigner past ≤ 1
  unrecorded : Open point → ¬ Recorded past
  recorded : ¬ Open point → 0 < answersOfSigner past → Recorded past
  waits : ∀ txHash, WaitsFor txHash point →
    Recorded past ∧ Sent txHash past
  heard : ∀ submission, point = .submitted submission →
    ∀ txHash, Sent txHash past ↔ submission = .hash txHash

/-- Of a call that has sent nothing. -/
theorem History.of_none {past : List (Point × Reply)} {point : Point}
    (hnone : answersOfSigner past = 0) (hrecorded : ¬ Recorded past)
    (hwaits : ∀ txHash, ¬ WaitsFor txHash point)
    (hfailed : ∀ txHash, point ≠ .submitted (.hash txHash)) :
    History past point where
  unsent := fun _ => hnone
  once := by omega
  unrecorded := fun _ => hrecorded
  recorded := by
    intro _ hpos
    omega
  waits := fun txHash h => absurd h (hwaits txHash)
  heard := by
    rintro submission rfl txHash
    constructor
    · intro hsent
      exact absurd hsent (not_sent_of_answersOfSigner hnone txHash)
    · rintro rfl
      exact absurd rfl (hfailed txHash)

/-- Of a call that has recorded its submission. -/
theorem History.of_recorded {past : List (Point × Reply)} {point : Point}
    (honce : answersOfSigner past ≤ 1) (hrecorded : Recorded past)
    (hclosed : ¬ Open point)
    (hsent : ∀ txHash, WaitsFor txHash point → Sent txHash past) :
    History past point where
  unsent := by
    intro hunsent
    have hopen : Open point := by
      cases point with
      | submitted => trivial
      | _ => exact hunsent
    exact absurd hopen hclosed
  once := honce
  unrecorded := fun hopen => absurd hopen hclosed
  recorded := fun _ _ => hrecorded
  waits := fun txHash hwaits => ⟨hrecorded, hsent txHash hwaits⟩
  heard := by
    rintro submission rfl
    exact absurd trivial hclosed

section

variable {deps : PipelineDeps} {request : ExecutionRequest}
  {ctx : AuthorizedContext} {past : List (Point × Reply)}
  {point point' : Point} {reply : Reply} {shared shared' : Shared}

theorem begin_not_waits (shared : Shared) (txHash : String) :
    ¬ WaitsFor txHash (Pipeline.begin deps request shared) := by
  rcases @begin_cases deps request shared with ⟨prior, -, heq⟩ |
    ⟨-, hpreparing | ⟨thrown, heq⟩⟩
  · rw [heq]
    exact id
  · intro hwaits
    exact not_open_of_waitsFor hwaits (open_of_preparing hpreparing)
  · rw [heq]
    exact id

theorem begin_not_submitted (shared : Shared) (submission : Submission) :
    Pipeline.begin deps request shared ≠ .submitted submission := by
  intro hsubmitted
  rcases @begin_cases deps request shared with ⟨prior, -, heq⟩ |
    ⟨-, hpreparing | ⟨thrown, heq⟩⟩
  · rw [hsubmitted] at heq
    simp [Pipeline.returning] at heq
  · rw [hsubmitted] at hpreparing
    exact hpreparing
  · rw [hsubmitted] at heq
    simp [Pipeline.throwing] at heq

theorem Prepares.not_hash (h : Prepares deps request ctx point reply point')
    (txHash : String) : point' ≠ .submitted (.hash txHash) := by
  intro heq
  cases h with
  | thrown => simp [Pipeline.throwing] at heq
  | prepared | simulation | balance | simulated | sending | refused =>
      simp at heq

theorem Prepares.not_waits
    (h : Prepares deps request ctx point reply point') (txHash : String) :
    ¬ WaitsFor txHash point' := by
  cases h with
  | thrown | prepared | simulation | balance | simulated | sending
  | refused => exact id

/-- After the submission the call is not open again. -/
theorem Waits.not_open {txHash : String}
    (h : Waits deps request txHash reply shared shared' point') :
    ¬ Open point' := by
  cases h with
  | waiting _ hwaits => exact not_open_of_waitsFor hwaits
  | thrown | unknown | received => exact id

theorem record_not_open (submission : Submission) (now : ℤ)
    (shared : Shared) :
    ¬ Open (Pipeline.record deps request ctx submission now shared).2 := by
  obtain ⟨result, -, -, -, ⟨txHash, deadline, -, -, -, heq⟩ |
    ⟨cause, -, -, heq⟩⟩ := @record_cases deps request ctx submission now shared
  · rw [heq]
    exact id
  · rw [heq]
    exact id

/-- The call that waits after its record waits for the recorded hash. -/
theorem waits_of_record {submission : Submission} {now : ℤ} {txHash : String}
    (h : WaitsFor txHash
      (Pipeline.record deps request ctx submission now shared).2) :
    submission = .hash txHash := by
  obtain ⟨result, -, -, -, ⟨found, deadline, hsubmission, -, -, heq⟩ |
    ⟨cause, -, -, heq⟩⟩ := @record_cases deps request ctx submission now shared
  · rw [heq] at h
    have hsame : found = txHash := h
    rw [hsubmission, hsame]
  · rw [heq] at h
    exact absurd h id

theorem waitsFor_unique {one two : String} (h : WaitsFor one point)
    (h' : WaitsFor two point) : one = two := by
  cases point with
  | waitingForReceipt found | gettingReceipt found | sleeping found =>
      have hone : found = one := h
      have htwo : found = two := h'
      rw [← hone, htwo]
  | _ => exact absurd h id

theorem not_waitsFor_returning {txHash : String} {result : ExecutionResult} :
    ¬ WaitsFor txHash (Pipeline.returning result) := id

/-- A wait that goes on is for the same hash. -/
theorem Waits.waitsFor {txHash found : String}
    (h : Waits deps request txHash reply shared shared' point')
    (hfound : WaitsFor found point') : found = txHash := by
  rcases h.cases with ⟨-, hwaiting | ⟨thrown, rfl⟩⟩ | ⟨status, -, rfl, -⟩
  · exact waitsFor_unique hfound hwaiting
  · exact absurd hfound id
  · exact absurd hfound not_waitsFor_returning

theorem step_history (hpast : History past point)
    (h : Pipeline.step deps request ctx point reply shared =
      some (shared', point')) :
    History (past ++ [(point, reply)]) point' := by
  cases point with
  | checkingChain | recheckingChain | readingBalance | simulatingTransfer
  | estimatingGas =>
      obtain ⟨-, hprepares⟩ := step_preparing (by exact trivial) h
      have hnone := hpast.unsent trivial
      have hunrecorded := hpast.unrecorded trivial
      apply History.of_none
      · rw [answersOfSigner_append, hnone]
        rfl
      · rw [recorded_append]
        simp [hunrecorded]
      · exact hprepares.not_waits
      · exact hprepares.not_hash
  | sending tx =>
      have hnone := hpast.unsent trivial
      have hunrecorded := hpast.unrecorded trivial
      have hsubmitted : ∃ submission, point' = .submitted submission ∧
          ∀ txHash, reply.answer = .sent txHash ↔
            submission = .hash txHash := by
        rcases (step_sending h).2 with ⟨found, hanswer, heq⟩ |
          ⟨accepted, hanswer, heq⟩
        · exact ⟨_, heq, fun txHash => by simp [hanswer]⟩
        · exact ⟨_, heq, fun txHash => by simp [hanswer]⟩
      obtain ⟨submission, rfl, hheard⟩ := hsubmitted
      exact
        { unsent := fun hunsent => absurd hunsent id
          once := by
            rw [answersOfSigner_append, hnone]
            simp [isSending]
          unrecorded := fun _ => by
            rw [recorded_append]
            simp [hunrecorded]
          recorded := fun hclosed => absurd trivial hclosed
          waits := fun _ hwaits => absurd hwaits id
          heard := by
            intro found heq txHash
            rw [Point.submitted.injEq] at heq
            rw [← heq, ← hheard txHash, sent_append]
            simp [not_sent_of_answersOfSigner hnone txHash] }
  | submitted submission =>
      have hrecord := congrArg Prod.snd (step_submitted h)
      simp only at hrecord
      rw [hrecord]
      apply History.of_recorded
      · rw [answersOfSigner_append]
        exact hpast.once
      · exact recorded_append.mpr (Or.inr ⟨submission, rfl⟩)
      · exact record_not_open submission reply.now shared
      · intro txHash hwaits
        have hsubmission := waits_of_record hwaits
        exact sent_append.mpr
          (Or.inl ((hpast.heard submission rfl txHash).mpr hsubmission))
  | waitingForReceipt txHash | gettingReceipt txHash | sleeping txHash =>
      have hwaits := @step_waiting _ _ _ _ _ _ _ _ txHash (by exact rfl) h
      apply History.of_recorded
      · rw [answersOfSigner_append]
        exact hpast.once
      · exact recorded_append.mpr (Or.inl (hpast.waits txHash rfl).1)
      · exact hwaits.not_open
      · intro found hfound
        rw [hwaits.waitsFor hfound]
        exact sent_append.mpr (Or.inl (hpast.waits txHash rfl).2)
  | verifying =>
      rw [step_verifying] at h
      simp at h
  | done =>
      rw [step_done] at h
      simp at h

/-- Of an execution, its history; a verification sends nothing. -/
def Kept (call : Call) (past : List (Point × Reply)) (point : Point) :
    Prop :=
  match call with
  | .execute _ _ => History past point
  | .verify _ => True

theorem histories_kept :
    (Pipeline.program deps).Local (fun _ => True) Kept where
  enter := by
    intro call reply shared _
    refine ⟨trivial, ?_⟩
    cases call with
    | verify executionId => trivial
    | execute request ctx =>
        exact History.of_none rfl not_recorded_nil (begin_not_waits shared)
          fun _ => begin_not_submitted shared _
  resume := by
    intro call past point reply shared shared' point' _ hkept h
    refine ⟨trivial, ?_⟩
    cases call with
    | verify executionId => trivial
    | execute request ctx => exact step_history hkept h

end

end Execution
end Orvex
