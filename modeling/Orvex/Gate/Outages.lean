import Orvex.Financial.Buckets
import Orvex.Financial.Totals
import Orvex.Gate.Minting

/-!
# Revalidation during outages

Every database statement of a revalidation can fail.  Registration, account,
reservation and request are committed one after the other, so a call that
fails late leaves behind what it wrote before.
-/

namespace Orvex
namespace Revalidation

/-! ## Statements that fail -/

/-- The database statements of a revalidation; all reads before the decision
count as one. -/
inductive Statement where
  | readState | findRecord | createRecord | rereadRecord | findRequest
  | findAccount | createAccount | rereadAccount | reserve | createRequest
  | bindReservation
  deriving DecidableEq

/-- The statements that fail. -/
abbrev Outage := Statement → Bool

def during {α : Type} (outage : Outage) (statement : Statement)
    (action : Service α) : Service α :=
  if outage statement then Fallible.fail .connectionLost else action

theorem during_up {α : Type} {outage : Outage} {statement : Statement}
    (hup : outage statement = false) (action : Service α) :
    during outage statement action = action := by
  unfold during
  rw [hup, if_neg Bool.false_ne_true]

theorem during_down {α : Type} {outage : Outage} {statement : Statement}
    (hdown : outage statement = true) (action : Service α) :
    during outage statement action = Fallible.fail .connectionLost := by
  unfold during
  rw [hdown, if_pos rfl]

section

variable (rt : Runtime) (outage : Outage)

def registerDuring (input : Idempotency.RegisterInput) (uuid : String) :
    Service (Idempotency.RegisterOutcome × IdempotencyRecord) := do
  match ← during outage .findRecord
      (Fallible.query (Idempotency.findRecord input)) with
  | some existing => Idempotency.replayOf rt input existing
  | none =>
      match ← Fallible.attempt (during outage .createRecord
          (idempotencyTable.create .constraint
            (fun db => (Idempotency.findRecord input db).isNone)
            (Idempotency.newRecord rt input uuid))) with
      | .ok created => pure (.new, created)
      | .error _ => do
          Idempotency.afterRace rt input
            (← during outage .rereadRecord
              (Fallible.query (Idempotency.findRecord input)))

def ensureAccountDuring (key : Financial.AccountKey) (uuid : String) :
    Service FinancialAccount := do
  match ← during outage .findAccount
      (Fallible.query (Financial.findAccount key)) with
  | some existing => pure existing
  | none =>
      match ← Fallible.attempt (during outage .createAccount
          (Financial.createAccount rt key none uuid)) with
      | .ok account => pure account
      | .error _ =>
          match ← during outage .rereadAccount
              (Fallible.query (Financial.findAccount key)) with
          | some row => pure row
          | none =>
              Fallible.fail
                (.of .internalError "Failed to ensure financial account." [])

def reserveDuring (input : Financial.ReserveInput)
    (accountUuid uuid : String) : Service FinancialReservation := do
  let account ← ensureAccountDuring rt outage input.toAccountKey accountUuid
  during outage .reserve (Financial.reserveOn rt input uuid account)

def authorizeDuring (input : RevalidateInput) (policy : PolicyReading)
    (now : ℤ) (uuid reservationId : String) :
    Service RevalidationOutcome := do
  let row := newRequest rt input policy now uuid
  let request ← during outage .createRequest
    (executionRequestTable.create .constraint (requestAllowed row) row)
  let _ ← during outage .bindReservation
    (reservationTable.update .recordNotFound reservationId
      (bindTo request.id))
  pure (minted request reservationId)

/-- What follows a registration. -/
def holdAndAuthorize (input : RevalidateInput) (policy : PolicyReading)
    (now : ℤ) (ids : MintIds) : Service RevalidationOutcome := do
  match ← during outage .findRequest
      (Fallible.query (findExisting rt input)) with
  | some existing => pure (reused existing)
  | none =>
      match ← Fallible.attempt (reserveDuring rt outage (reserveInput input)
          ids.account ids.reservation) with
      | .ok reservation =>
          authorizeDuring rt outage input policy now ids.executionRequest
            reservation.id
      | .error failure =>
          if failure.hasCode .policyViolation then pure budgetExceeded
          else Fallible.fail failure

def mintDuring (input : RevalidateInput) (policy : PolicyReading) (now : ℤ)
    (ids : MintIds) : Service RevalidationOutcome := do
  let _ ← registerDuring rt outage (registration rt input) ids.idempotency
  holdAndAuthorize rt outage input policy now ids

def revalidateDuring (input : RevalidateInput) (now : ℤ) (ids : MintIds) :
    Service RevalidationOutcome := do
  let state ← during outage .readState (reading (resolve rt input now))
  let decision ← Fallible.query (fun db =>
    DecisionEngine.decide (decisionInput rt input state now db))
  if decision.result ≠ .allow then pure (refused decision)
  else mintDuring rt outage input state.policy now ids

end

/-- Without an outage this is `revalidate`. -/
theorem revalidateDuring_up (rt : Runtime) (input : RevalidateInput)
    (now : ℤ) (ids : MintIds) :
    revalidateDuring rt (fun _ => false) input now ids =
      revalidate rt input now ids := by
  unfold revalidateDuring revalidate mintDuring mint holdAndAuthorize
    registerDuring Idempotency.register authorizeDuring authorize
    reserveDuring
  rfl

/-! ## What a statement needs -/

section

variable {rt : Runtime} {outage : Outage} {db : Database}

/-- The call writes a new record. -/
structure Registers (outage : Outage) (input : Idempotency.RegisterInput)
    (uuid : String) (db : Database) : Prop where
  findUp : outage .findRecord = false
  createUp : outage .createRecord = false
  vacant : Idempotency.findRecord input db = none
  fresh : idempotencyTable.lookup uuid db = none

/-- The key has a record of the same request. -/
structure Replays (rt : Runtime) (outage : Outage)
    (input : Idempotency.RegisterInput) (db : Database) : Prop where
  findUp : outage .findRecord = false
  same : ∃ record, Idempotency.findRecord input db = some record ∧
    record.requestHash = Idempotency.requestHash rt input.request

theorem registerDuring_of_registers {input : Idempotency.RegisterInput}
    {uuid : String} (h : Registers outage input uuid db) :
    registerDuring rt outage input uuid db =
      (.ok (.new, Idempotency.newRecord rt input uuid),
        idempotencyTable.insert (Idempotency.newRecord rt input uuid) db) := by
  have hcreate : idempotencyTable.create Failure.constraint
      (fun db => (Idempotency.findRecord input db).isNone)
      (Idempotency.newRecord rt input uuid) db =
        (.ok (Idempotency.newRecord rt input uuid),
          idempotencyTable.insert (Idempotency.newRecord rt input uuid)
            db) :=
    Table.create_eq_ok.mpr ⟨h.fresh, by rw [h.vacant]; rfl, rfl, rfl⟩
  unfold registerDuring
  rw [during_up h.findUp, Fallible.query_bind]
  simp only [h.vacant, during_up h.createUp, Fallible.attempt_bind, hcreate,
    Fallible.pure_apply]

theorem registerDuring_of_replays {input : Idempotency.RegisterInput}
    {uuid : String} (h : Replays rt outage input db) :
    ∃ record, registerDuring rt outage input uuid db =
      (.ok (.replay, record), db) := by
  obtain ⟨record, hfind, hhash⟩ := h.same
  refine ⟨record, ?_⟩
  unfold registerDuring
  rw [during_up h.findUp, Fallible.query_bind]
  simp only [hfind, Idempotency.replayOf]
  rw [if_neg (not_not.mpr hhash), Fallible.pure_apply]

theorem registerDuring_refused {input : Idempotency.RegisterInput}
    {uuid : String} (hnew : ¬ Registers outage input uuid db)
    (hreplay : ¬ Replays rt outage input db) :
    ∃ failure, registerDuring rt outage input uuid db =
      (.error failure, db) := by
  unfold registerDuring
  cases hfindUp : outage .findRecord with
  | true =>
      rw [during_down hfindUp]
      exact ⟨_, rfl⟩
  | false =>
      rw [during_up hfindUp, Fallible.query_bind]
      cases hfind : Idempotency.findRecord input db with
      | some record =>
          have hhash : record.requestHash ≠
              Idempotency.requestHash rt input.request := by
            intro hsame
            exact hreplay ⟨hfindUp, record, hfind, hsame⟩
          simp only [Idempotency.replayOf, if_pos hhash]
          exact ⟨_, rfl⟩
      | none =>
          simp only [Fallible.attempt_bind]
          have hfailed : ∃ failure, during outage .createRecord
              (idempotencyTable.create Failure.constraint
                (fun db => (Idempotency.findRecord input db).isNone)
                (Idempotency.newRecord rt input uuid)) db =
              (.error failure, db) := by
            cases hcreateUp : outage .createRecord with
            | true =>
                rw [during_down hcreateUp]
                exact ⟨_, rfl⟩
            | false =>
                rw [during_up hcreateUp]
                rcases Table.allOrNothing_create Failure.constraint
                    (fun db => (Idempotency.findRecord input db).isNone)
                    (Idempotency.newRecord rt input uuid) db with
                  hfailed | ⟨row, mid, hcreate⟩
                · exact hfailed
                · have hfresh := (Table.create_eq_ok.mp hcreate).1
                  exact absurd ⟨hfindUp, hcreateUp, hfind, hfresh⟩ hnew
          obtain ⟨failure, hfailed⟩ := hfailed
          simp only [hfailed]
          cases hrereadUp : outage .rereadRecord with
          | true =>
              rw [during_down hrereadUp]
              exact ⟨_, rfl⟩
          | false =>
              rw [during_up hrereadUp, Fallible.query_bind]
              simp only [hfind, Idempotency.afterRace]
              exact ⟨_, rfl⟩

end

end Revalidation
end Orvex
