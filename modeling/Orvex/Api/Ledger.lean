import Orvex.Api.Amounts
import Orvex.Foundation.Records
import Orvex.Gate.Charges

/-!
# The ledger under the routes

Whatever calls run one after another, the totals of every account stay the
sums over its reservations, as long as no sum that is stored is rounded.
What a revalidation decides, before it asks for budget, does not depend on
anything that was authorised, held or settled before.
-/

namespace Orvex

open Fallible (Keeps Brings keeps_pure)
open ExecutionResults (Balanced BoundSums)
open Financial (WellFormed Conserved heldBy spentBy)

section

variable {rt : Runtime}

namespace Api

open ExecutionResults (ResultCall)

/-- The sums that the call would store lose nothing. -/
def Call.Sums (rt : Runtime) (call : Call) (db : Database) : Prop :=
  match call.operation with
  | .prepare body _ =>
      Financial.ReserveSums rt
        (Revalidation.reserveInput (revalidateInput call.auth body)) db
  | .reconcile client executionId =>
      client.getResult executionId = .ok .failed →
        BoundSums rt .reconcileRelease executionId db
  | .ingestResult executionId body _ =>
      body.status = .failed → BoundSums rt .release executionId db
  | .verify _ executionId _ _ => BoundSums rt .commit executionId db
  | _ => True

end Api

end

namespace Api

/-- The database without what was authorised, held and settled. -/
def withoutSpending (db : Database) : Database :=
  { db with
    financialAccounts := []
    financialReservations := []
    idempotencyRecords := []
    executionRequests := []
    executionResults := []
    receiptVerifications := [] }

/-- The call authorises, holds or settles. -/
def Operation.spends : Operation → Bool
  | .prepare _ _ => true
  | .reconcile _ _ => true
  | .ingestResult _ _ _ => true
  | .verify _ _ _ _ => true
  | _ => false

/-- The decision that a revalidation derives, before it mints. -/
def judgement (rt : Runtime) (input : Revalidation.RevalidateInput) (now : ℤ)
    (db : Database) : Except Failure DecisionOutput := do
  let state ← Revalidation.resolve rt input now db
  pure (DecisionEngine.decide
    (Revalidation.decisionInput rt input state now db))

theorem judgement_withoutSpending (rt : Runtime)
    (input : Revalidation.RevalidateInput) (now : ℤ) (db : Database) :
    judgement rt input now (withoutSpending db) =
      judgement rt input now db := rfl

/-- A revalidation that is not allowed answers with what was judged. -/
theorem revalidate_of_judgement {rt : Runtime}
    {input : Revalidation.RevalidateInput} {now : ℤ}
    {ids : Revalidation.MintIds} {db : Database} {decision : DecisionOutput}
    (hjudged : judgement rt input now db = .ok decision)
    (hrefused : decision.result ≠ .allow) :
    Revalidation.revalidate rt input now ids db =
      (.ok (Revalidation.refused decision), db) := by
  unfold judgement at hjudged
  obtain ⟨state, hresolve, hdecision⟩ :=
    Fallible.result_bind_eq_ok.mp hjudged
  rw [Fallible.result_pure, Except.ok.injEq] at hdecision
  unfold Revalidation.revalidate
  rw [Fallible.bind_of_ok (reading_eq_ok.mpr ⟨hresolve, rfl⟩),
    Fallible.query_bind, hdecision, if_pos hrefused]
  rfl

theorem withoutSpending_step {rt : Runtime} {call : Call}
    (hspends : call.operation.spends = true) (db : Database) :
    withoutSpending (call.step rt db) = withoutSpending db := by
  refine Call.step_spares ?_ db
  cases hoperation : call.operation with
  | prepare body ids =>
      exact ⟨fun _ _ _ => rfl, fun _ _ => rfl, fun _ _ => rfl⟩
  | reconcile client executionId =>
      exact ⟨fun _ _ => rfl, fun _ _ _ => rfl⟩
  | ingestResult executionId body uuid =>
      exact ⟨fun _ _ => rfl, fun _ _ _ => rfl, fun _ _ => rfl⟩
  | verify client executionId authorized uuid =>
      exact ⟨fun _ _ _ => rfl, fun _ _ => rfl⟩
  | _ =>
      rw [hoperation] at hspends
      exact absurd hspends Bool.noConfusion

/-- However much was spent before, the same payment is judged alike; where it
is refused, it is refused with the same answer. -/
theorem run_judged_alike (rt : Runtime) (calls : List Call) (db : Database)
    (hspend : ∀ call ∈ calls, call.operation.spends = true)
    (input : Revalidation.RevalidateInput) (now : ℤ) :
    judgement rt input now (run rt calls db) = judgement rt input now db ∧
      ∀ decision ids, judgement rt input now db = .ok decision →
        decision.result ≠ .allow →
          Revalidation.revalidate rt input now ids (run rt calls db) =
            (.ok (Revalidation.refused decision), run rt calls db) := by
  have hsame : withoutSpending (run rt calls db) = withoutSpending db := by
    induction calls generalizing db with
    | nil => rfl
    | cons call rest ih =>
        have hrest := ih (call.step rt db)
          (fun other hmem => hspend other (List.mem_cons_of_mem _ hmem))
        exact hrest.trans
          (withoutSpending_step (hspend call List.mem_cons_self) db)
  have hjudged : judgement rt input now (run rt calls db) =
      judgement rt input now db := by
    rw [← judgement_withoutSpending, hsame, judgement_withoutSpending]
  refine ⟨hjudged, fun decision ids hdecision hrefused => ?_⟩
  exact revalidate_of_judgement (hjudged.trans hdecision) hrefused

theorem sample_judged_alike :
    judgement .reference Revalidation.samplePayment Revalidation.sampleNow
        (run .reference [samplePrepare, samplePrepare]
          (Revalidation.sampleDatabase [])) =
      judgement .reference Revalidation.samplePayment Revalidation.sampleNow
        (Revalidation.sampleDatabase []) := by
  refine (run_judged_alike .reference [samplePrepare, samplePrepare] _ ?_ _
    _).1
  intro call hcall
  rcases List.mem_pair.mp hcall with rfl | rfl
  · rfl
  · rfl

end Api

end Orvex
