import Orvex.Api.KillSwitch

/-!
# What a role may change

A guarded route checks the role of its actor before anything else.  Without
an operator nothing is configured or authorised, and without an executor no
result is recorded and nothing is committed.
-/

namespace Orvex
namespace Api

open Fallible (Keeps)

/-- The roles that a route asks for; some routes ask for none. -/
def Operation.roles : Operation → Option (List String)
  | .createAgent _ _ => some operatorRoles
  | .updateAgent _ _ => some operatorRoles
  | .createIntent _ _ => none
  | .createProposal _ _ => none
  | .ingestAssessment _ _ _ => none
  | .createPolicy _ _ => some operatorRoles
  | .compilePolicy _ _ => some operatorRoles
  | .validatePolicy _ => some operatorRoles
  | .activatePolicy _ _ => some activatorRoles
  | .createConstitution _ _ _ => some operatorRoles
  | .activateConstitution _ => some activatorRoles
  | .createDecision _ _ => none
  | .approve _ _ _ => none
  | .deny _ _ => none
  | .prepare _ _ => some operatorRoles
  | .reconcile _ _ => none
  | .ingestResult _ _ _ => some executorRoles
  | .verify _ _ _ _ => some executorRoles

section

variable {rt : Runtime}

theorem requireRole_of_refused {α : Type} {auth : AuthContext}
    {roles : List String} (hrole : ¬ roles.contains auth.actorRole = true)
    (k : Unit → Service α) (db : Database) :
    ((requireRole auth roles >>= k) db).2 = db := by
  unfold requireRole
  rw [if_neg hrole]
  rfl

/-- A guarded route leaves the state as it was, for an actor of another
role. -/
theorem Call.step_refused {call : Call} {roles : List String}
    (hroles : call.operation.roles = some roles)
    (hrole : ¬ roles.contains call.auth.actorRole = true) (db : Database) :
    call.step rt db = db := by
  cases hoperation : call.operation with
  | _ =>
      rw [hoperation] at hroles
      first
        | -- a route that asks for no role
          exact absurd hroles (Option.some_ne_none roles).symm
        | have hasked := Option.some.inj hroles
          subst hasked
          simp only [Call.step, Call.perform, hoperation, discard_state]
          exact requireRole_of_refused hrole _ db

theorem run_unchanged {γ : Type} {f : Database → γ} {calls : List Call}
    (hstep : ∀ call ∈ calls, ∀ db, f (call.step rt db) = f db)
    (db : Database) : f (run rt calls db) = f db := by
  induction calls generalizing db with
  | nil => rfl
  | cons call rest ih =>
      have hrest := ih (fun other hmem =>
        hstep other (List.mem_cons_of_mem _ hmem)) (call.step rt db)
      exact hrest.trans (hstep call List.mem_cons_self db)

/-! ## Operators -/

/-- What the operators configure. -/
def configuration (db : Database) :=
  (db.agents, db.constitutions, db.capabilities, db.policies,
    db.policyVersions, db.policyRules)

/-- How rows of the ledger are identified. -/
def identified (rows : List FinancialAccount × List FinancialReservation ×
    List IdempotencyRecord × List ExecutionRequestRecord) :=
  (rows.1.map FinancialAccount.identity,
    rows.2.1.map FinancialReservation.identity, rows.2.2.1,
    rows.2.2.2.map ExecutionRequestRecord.identity)

/-- What was authorised and held, as it is identified. -/
def authorised (db : Database) := identified (ledgerRows db)

theorem authorised_recordsKept (rows) :
    RecordsKept (fun db => authorised db = rows) := by
  refine RecordsKept.of_ledger
    (p := fun ledger => identified ledger = rows) ?_ ?_ ?_
  · intro p change db hsame h
    have hrows := KeyedTable.map_changed hsame p db.financialAccounts
    rw [← h]
    exact congrArg (fun accounts => (accounts, _)) hrows
  · intro p change db hsame h
    have hrows := KeyedTable.map_changed hsame p db.financialReservations
    rw [← h]
    exact congrArg (fun holds => (_, holds, _)) hrows
  · intro p change db hsame h
    have hrows := KeyedTable.map_changed hsame p db.executionRequests
    rw [← h]
    exact congrArg (fun requests => (_, _, _, requests)) hrows

theorem contains_activator {role : String}
    (hrole : ¬ operatorRoles.contains role = true) :
    ¬ activatorRoles.contains role = true := by
  intro hactivator
  refine hrole (List.contains_iff_mem.mpr ?_)
  have hmem := List.contains_iff_mem.mp hactivator
  simp only [activatorRoles, operatorRoles, List.mem_cons,
    List.not_mem_nil, or_false] at hmem ⊢
  exact hmem.imp_right Or.inl

theorem refused_or_spared {call : Call}
    (hrole : ¬ operatorRoles.contains call.auth.actorRole = true) :
    (∀ db, call.step rt db = db) ∨
      call.operation.Spares configuration ∧
        ∀ body ids, call.operation ≠ .prepare body ids := by
  have hactivator := contains_activator hrole
  cases hoperation : call.operation with
  | _ =>
      first
        | exact .inl (Call.step_refused (by rw [hoperation]; rfl) hrole)
        | exact .inl (Call.step_refused (by rw [hoperation]; rfl)
            hactivator)
        | refine .inr ⟨?_, fun _ _ => Operation.noConfusion⟩
          -- the routes that ask for no operator configure nothing
          repeat' first
            | exact fun _ _ => rfl
            | exact fun _ _ _ => rfl
            | refine ⟨?_, ?_⟩

theorem run_without_operator {calls : List Call}
    (hroles : ∀ call ∈ calls,
      ¬ operatorRoles.contains call.auth.actorRole = true)
    (db : Database) :
    configuration (run rt calls db) = configuration db ∧
      authorised (run rt calls db) = authorised db := by
  constructor
  · refine run_unchanged (fun call hcall state => ?_) db
    rcases refused_or_spared (hroles call hcall) with hsame | ⟨hspares, _⟩
    · rw [hsame]
    · exact Call.step_spares hspares state
  · refine run_unchanged (fun call hcall state => ?_) db
    rcases refused_or_spared (hroles call hcall) with hsame | ⟨_, hother⟩
    · rw [hsame]
    · exact Call.step_keeps (authorised_recordsKept _)
        (fun body ids hoperation => absurd hoperation (hother body ids)) rfl

/-! ## Executors -/

/-- What the executors report. -/
def reported (db : Database) := (db.executionResults, db.receiptVerifications)

theorem run_without_executor {calls : List Call}
    (hroles : ∀ call ∈ calls,
      ¬ executorRoles.contains call.auth.actorRole = true)
    (db : Database) : reported (run rt calls db) = reported db := by
  refine run_unchanged (fun call hcall state => ?_) db
  have hrole := hroles call hcall
  cases hoperation : call.operation with
  | ingestResult executionId body uuid =>
      rw [Call.step_refused (by rw [hoperation]; rfl) hrole]
  | verify client executionId authorized uuid =>
      rw [Call.step_refused (by rw [hoperation]; rfl) hrole]
  | _ =>
      refine Call.step_spares ?_ state
      rw [hoperation]
      -- the other routes report nothing
      repeat' first
        | exact fun _ _ => rfl
        | exact fun _ _ _ => rfl
        | refine ⟨?_, ?_⟩

end

/-- Without an operator nothing is configured or authorised, and without an
executor nothing is reported, whatever else the calls do. -/
theorem run_by_role (rt : Runtime) (calls : List Call) (db : Database) :
    ((∀ call ∈ calls, ¬ operatorRoles.contains call.auth.actorRole = true) →
      configuration (run rt calls db) = configuration db ∧
        authorised (run rt calls db) = authorised db) ∧
    ((∀ call ∈ calls, ¬ executorRoles.contains call.auth.actorRole = true) →
      reported (run rt calls db) = reported db) :=
  ⟨fun hroles => run_without_operator hroles db,
    fun hroles => run_without_executor hroles db⟩

end Api
end Orvex
