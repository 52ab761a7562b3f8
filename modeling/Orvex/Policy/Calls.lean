import Orvex.Concurrency.Actions
import Orvex.Domain.Constitutions
import Orvex.Policy.Activation

/-!
# Calls on policy versions and constitutions

Creating a draft, approving and activating are transactions.  The other moves
of a version read it and write its status in two statements.
-/

namespace Orvex
namespace Policies

open ReadCommitted (Script Steps Write)
open ReadCommitted.Steps (answering create fail ofExcept ofOption query
  transaction update updateMany)

/-! ## The rows that a statement locks -/

inductive RowKey where
  | policy (id : String)
  | version (id : String)
  /-- The unique number of a version within its policy. -/
  | number (policyId : String) (version : ℕ)
  | rule (id : String)
  /-- The unique id of a rule within its version. -/
  | ruleOf (policyVersionId ruleId : String)
  | constitution (id : String)
  | agent (id : String)
  deriving DecidableEq

abbrev PolicySteps (α : Type) := Steps Database RowKey Failure α

/-! ## Drafts -/

def findOrCreatePolicySteps (input : CreateDraftInput)
    (name uuid : String) : PolicySteps Policy := do
  match ← query (policyTable.find (fun policy =>
      policy.companyId = input.companyId ∧ policy.agentId = input.agentId ∧
        policy.name = name)) with
  | some policy => pure policy
  | none =>
      create policyTable [.policy uuid] .constraint
        (companyExists input.companyId)
        { id := uuid
          companyId := input.companyId
          agentId := input.agentId
          name := name
          description := input.description.getD ""
          currentVersion := 0
          status := .draft
          createdBy := input.createdBy }

def createVersionSteps (rt : Runtime) (input : CreateDraftInput)
    (policyId uuid : String) (rules : List CompiledRule) :
    PolicySteps PolicyVersion := do
  let number := (← query (latestVersion policyId)) + 1
  let version : PolicyVersion :=
    { id := uuid
      policyId := policyId
      version := number
      status := .draft
      compiledPolicyJson := ⟨some rules⟩
      hash := sha256Json rt (.object
        [("policyId", .string policyId), ("version", .number number),
          ("rules", input.rules)])
      sourceType := input.sourceType
      sourceReference := input.sourceReference
      activatedAt := none
      deactivatedAt := none
      approvedBy := none }
  create policyVersionTable [.version uuid, .number policyId number]
    .constraint (versionAllowed version) version

def createRuleSteps (versionId uuid : String) (rule : CompiledRule) :
    PolicySteps PolicyRule := do
  let priority ← ofOption .language (priorityColumn rule.priority)
  let row : PolicyRule :=
    { id := uuid
      policyVersionId := versionId
      ruleId := rule.ruleId
      ruleType := rule.type
      priority := priority
      configurationJson := rule
      enabled := rule.enabled.getD true }
  create policyRuleTable [.rule uuid, .ruleOf versionId rule.ruleId]
    .constraint (ruleAllowed row) row

def createRulesSteps (versionId : String) (uuid : ℕ → String) :
    List CompiledRule → PolicySteps Unit
  | [] => pure ()
  | rule :: rest => do
      let _ ← createRuleSteps versionId (uuid 0) rule
      createRulesSteps versionId (fun n => uuid (n + 1)) rest

def createDraftSteps (rt : Runtime) (input : CreateDraftInput)
    (ids : DraftIds) : PolicySteps (Policy × PolicyVersion) := do
  let name := jsTrim (input.name.getD "")
  if name = "" then
    fail (.of .invalidInput "Policy name is required." [])
  else
    let () ← ofExcept (validateCompiledRules rt input.rules)
    if ← query (companyExists input.companyId) then
      transaction do
        let policy ← findOrCreatePolicySteps input name ids.policy
        let rules ← ofOption .language
          ((ruleItems input.rules).mapM CompiledRule.ofJson)
        let version ← createVersionSteps rt input policy.id ids.version rules
        createRulesSteps version.id ids.rule rules
        pure (policy, version)
    else
      fail (.of .tenantError "Company not found for policy."
        [("companyId", input.companyId)])

/-! ## Moves of a version -/

/-- A read of the tables that may refuse. -/
def readingSteps {α : Type} (f : Database → Except Failure α) :
    PolicySteps α := do
  let result ← query f
  ofExcept result

def setVersionStatus (target : PolicyVersionStatus)
    (version : PolicyVersion) : PolicyVersion :=
  { version with status := target }

/-- The read and the write are not one transaction. -/
def transitionSteps (companyId policyVersionId : String)
    (target : PolicyVersionStatus) : PolicySteps PolicyVersion := do
  let current ← readingSteps (requireVersion companyId policyVersionId)
  let () ← ofExcept (assertTransition current.status target)
  transaction (update policyVersionTable RowKey.version .recordNotFound
    current.id (setVersionStatus target))

def approveSteps (companyId policyVersionId : String)
    (approvedBy : Option String) : PolicySteps PolicyVersion :=
  transaction do
    let current ← readingSteps (requireVersion companyId policyVersionId)
    let () ← ofExcept (assertTransition current.status .approved)
    update policyVersionTable RowKey.version .recordNotFound current.id
      (fun version =>
        { version with status := .approved, approvedBy := approvedBy })

def activateSteps (companyId policyVersionId : String) (now : ℤ) :
    PolicySteps PolicyVersion :=
  transaction do
    let target ← readingSteps (requireVersion companyId policyVersionId)
    let () ← ofExcept (assertTransition target.status .active)
    updateMany policyVersionTable RowKey.version
      (fun version =>
        version.policyId = target.policyId ∧ version.status = .active)
      (fun version =>
        { version with status := .superseded, deactivatedAt := some now })
    let activated ← update policyVersionTable RowKey.version .recordNotFound
      target.id
      (fun version =>
        { version with status := .active, activatedAt := some now })
    let _ ← update policyTable RowKey.policy .recordNotFound target.policyId
      (fun policy =>
        { policy with
          status := .active
          currentVersion := activated.version })
    pure activated

/-! ## Constitutions -/

open Constitutions (constitutionStatusText) in
def activateConstitutionSteps (companyId constitutionId : String)
    (now : ℤ) : PolicySteps Constitution :=
  transaction do
    match ← query (constitutionTable.find (fun c =>
        c.id = constitutionId ∧ c.companyId = companyId)) with
    | none =>
        fail (.of .notFound "Constitution not found in this company."
          [("companyId", companyId), ("constitutionId", constitutionId)])
    | some target =>
        if target.status = .superseded ∨ target.status = .disabled then
          fail (.of .conflict
            "Cannot activate a superseded or disabled constitution version."
            [("constitutionId", constitutionId),
              ("status", constitutionStatusText target.status)])
        else
          updateMany constitutionTable RowKey.constitution
            (fun c => c.companyId = companyId ∧
              c.agentId = target.agentId ∧ c.status = .active)
            (fun c =>
              { c with status := .superseded, deactivatedAt := some now })
          let activated ← update constitutionTable RowKey.constitution
            .recordNotFound target.id
            (fun c => { c with status := .active, activatedAt := some now })
          let _ ← update agentTable RowKey.agent .recordNotFound
            target.agentId
            (fun agent =>
              { agent with activeConstitutionId := some activated.id })
          pure activated

/-! ## The calls -/

inductive VersionAnswer where
  | drafted (result : Except Failure (Policy × PolicyVersion))
  | moved (result : Except Failure PolicyVersion)
  | appointed (result : Except Failure Constitution)
  /-- The call never ended. -/
  | lost

abbrev VersionScript := Script Database RowKey VersionAnswer

inductive VersionCall where
  | createDraft (input : CreateDraftInput) (ids : DraftIds)
  | validate (companyId policyVersionId : String)
  | simulate (companyId policyVersionId : String)
  | approve (companyId policyVersionId : String) (approvedBy : Option String)
  | activate (companyId policyVersionId : String) (now : ℤ)
  | disable (companyId policyVersionId : String)
  | activateConstitution (companyId constitutionId : String) (now : ℤ)

namespace VersionCall

def script (rt : Runtime) : VersionCall → VersionScript
  | .createDraft input ids =>
      answering .drafted (createDraftSteps rt input ids)
  | .validate companyId policyVersionId =>
      answering .moved (transitionSteps companyId policyVersionId .validating)
  | .simulate companyId policyVersionId =>
      answering .moved (transitionSteps companyId policyVersionId .simulated)
  | .approve companyId policyVersionId approvedBy =>
      answering .moved (approveSteps companyId policyVersionId approvedBy)
  | .activate companyId policyVersionId now =>
      answering .moved (activateSteps companyId policyVersionId now)
  | .disable companyId policyVersionId =>
      answering .moved (transitionSteps companyId policyVersionId .disabled)
  | .activateConstitution companyId constitutionId now =>
      answering .appointed
        (activateConstitutionSteps companyId constitutionId now)

/-- An action of a service with its answer. -/
def answer {α : Type} (given : Except Failure α → VersionAnswer)
    (x : Service α) (db : Database) : VersionAnswer × Database :=
  (given (x db).1, (x db).2)

/-- The call of the service. -/
def perform (rt : Runtime) : VersionCall → Database →
    VersionAnswer × Database
  | .createDraft input ids => answer .drafted (Policies.createDraft rt input ids)
  | .validate companyId policyVersionId =>
      answer .moved (Policies.validate companyId policyVersionId)
  | .simulate companyId policyVersionId =>
      answer .moved (Policies.simulate companyId policyVersionId)
  | .approve companyId policyVersionId approvedBy =>
      answer .moved (Policies.approve companyId policyVersionId approvedBy)
  | .activate companyId policyVersionId now =>
      answer .moved (Policies.activate companyId policyVersionId now)
  | .disable companyId policyVersionId =>
      answer .moved (Policies.disable companyId policyVersionId)
  | .activateConstitution companyId constitutionId now =>
      answer .appointed
        (Constitutions.activateConstitution companyId constitutionId now)

end VersionCall

/-! ## A call that runs alone -/

section

open ReadCommitted.Steps (Computes Performs computes_create computes_fail
  computes_ofOption computes_pure computes_query computes_update
  computes_updateMany performs_fail performs_query)

theorem computes_ofExcept {α : Type} (result : Except Failure α) :
    Computes (ofExcept result : PolicySteps α) (reading (fun _ => result)) := by
  intro pending tables
  cases result with
  | ok a => exact ⟨pending, rfl, rfl⟩
  | error failure => exact ⟨pending, rfl, rfl⟩

theorem performs_ofExcept {α : Type} (result : Except Failure α) :
    Performs (ofExcept result : PolicySteps α) (reading (fun _ => result)) := by
  intro tables
  cases result with
  | ok a => rfl
  | error failure => rfl

theorem computes_reading {α : Type} (f : Database → Except Failure α) :
    Computes (readingSteps f) (reading f) := by
  intro pending tables
  have hread := computes_ofExcept (f (ReadCommitted.overlay pending tables))
    pending tables
  unfold reading at *
  rw [Fallible.query_bind]
  exact hread

theorem performs_reading {α : Type} (f : Database → Except Failure α) :
    Performs (readingSteps f) (reading f) := by
  intro tables
  have hread := performs_ofExcept (f tables) tables
  unfold reading at *
  rw [Fallible.query_bind]
  exact hread

theorem computes_findOrCreatePolicy (input : CreateDraftInput)
    (name uuid : String) :
    Computes (findOrCreatePolicySteps input name uuid)
      (findOrCreatePolicy input name uuid) := by
  refine (computes_query _).bind (fun found => ?_)
  cases found with
  | some policy => exact computes_pure policy
  | none => exact computes_create _ _ _ _ _

theorem computes_createVersion (rt : Runtime) (input : CreateDraftInput)
    (policyId uuid : String) (rules : List CompiledRule) :
    Computes (createVersionSteps rt input policyId uuid rules)
      (createVersion rt input policyId uuid rules) :=
  (computes_query _).bind (fun _ => computes_create _ _ _ _ _)

theorem computes_createRules (versionId : String) (uuid : ℕ → String)
    (rules : List CompiledRule) :
    Computes (createRulesSteps versionId uuid rules)
      (createRules versionId uuid rules) := by
  induction rules generalizing uuid with
  | nil => exact computes_pure ()
  | cons rule rest ih =>
      have hrule : Computes (createRuleSteps versionId (uuid 0) rule)
          (createRule versionId (uuid 0) rule) :=
        (computes_ofOption _ _).bind (fun _ => computes_create _ _ _ _ _)
      exact hrule.bind (fun _ => ih _)

theorem performs_createDraft (rt : Runtime) (input : CreateDraftInput)
    (ids : DraftIds) :
    Performs (createDraftSteps rt input ids) (createDraft rt input ids) := by
  refine Performs.ite (performs_fail _) ?_
  refine (performs_ofExcept _).bind (fun _ => ?_)
  refine (performs_query _).bind (fun known => ?_)
  refine Performs.ite ?_ (performs_fail _)
  apply Computes.performs_transaction
  refine (computes_findOrCreatePolicy input _ _).bind (fun policy => ?_)
  refine (computes_ofOption _ _).bind (fun rules => ?_)
  refine (computes_createVersion rt input _ _ rules).bind (fun version => ?_)
  refine (computes_createRules _ _ rules).bind (fun _ => ?_)
  exact computes_pure (policy, version)

theorem allOrNothing_update (id : String)
    (change : PolicyVersion → PolicyVersion) :
    Fallible.AllOrNothing
      (policyVersionTable.update Failure.recordNotFound id change) := by
  intro db
  unfold Table.update
  rw [Fallible.query_bind]
  cases policyVersionTable.lookup id db with
  | none => exact Or.inl ⟨_, rfl⟩
  | some row => exact Or.inr ⟨_, _, rfl⟩

theorem performs_transition (companyId policyVersionId : String)
    (target : PolicyVersionStatus) :
    Performs (transitionSteps companyId policyVersionId target)
      (transition companyId policyVersionId target) := by
  refine (performs_reading _).bind (fun current => ?_)
  refine (performs_ofExcept _).bind (fun _ => ?_)
  exact (computes_update _ _ _ _ _).performs_single
    (allOrNothing_update current.id _)

theorem performs_approve (companyId policyVersionId : String)
    (approvedBy : Option String) :
    Performs (approveSteps companyId policyVersionId approvedBy)
      (approve companyId policyVersionId approvedBy) := by
  apply Computes.performs_transaction
  refine (computes_reading _).bind (fun current => ?_)
  refine (computes_ofExcept _).bind (fun _ => ?_)
  exact computes_update _ _ _ _ _

theorem performs_activate (companyId policyVersionId : String) (now : ℤ) :
    Performs (activateSteps companyId policyVersionId now)
      (activate companyId policyVersionId now) := by
  apply Computes.performs_transaction
  refine (computes_reading _).bind (fun target => ?_)
  refine (computes_ofExcept _).bind (fun _ => ?_)
  refine (computes_updateMany _ _ _ _).bind (fun _ => ?_)
  refine (computes_update _ _ _ _ _).bind (fun activated => ?_)
  refine (computes_update _ _ _ _ _).bind (fun _ => ?_)
  exact computes_pure activated

theorem performs_activateConstitution (companyId constitutionId : String)
    (now : ℤ) :
    Performs (activateConstitutionSteps companyId constitutionId now)
      (Constitutions.activateConstitution companyId constitutionId now) := by
  apply Computes.performs_transaction
  refine (computes_query _).bind (fun found => ?_)
  cases found with
  | none => exact computes_fail _
  | some target =>
      refine Computes.ite (computes_fail _) ?_
      refine (computes_updateMany _ _ _ _).bind (fun _ => ?_)
      refine (computes_update _ _ _ _ _).bind (fun activated => ?_)
      refine (computes_update _ _ _ _ _).bind (fun _ => ?_)
      exact computes_pure activated

/-- A call that runs alone does what the service does. -/
theorem VersionCall.script_alone (rt : Runtime) (call : VersionCall)
    (db : Database) : (call.script rt).alone [] db = call.perform rt db := by
  cases call with
  | createDraft input ids => exact (performs_createDraft rt input ids).alone _ db
  | validate companyId policyVersionId =>
      exact (performs_transition companyId policyVersionId _).alone _ db
  | simulate companyId policyVersionId =>
      exact (performs_transition companyId policyVersionId _).alone _ db
  | approve companyId policyVersionId approvedBy =>
      exact (performs_approve companyId policyVersionId approvedBy).alone _ db
  | activate companyId policyVersionId now =>
      exact (performs_activate companyId policyVersionId now).alone _ db
  | disable companyId policyVersionId =>
      exact (performs_transition companyId policyVersionId _).alone _ db
  | activateConstitution companyId constitutionId now =>
      exact (performs_activateConstitution companyId constitutionId now).alone
        _ db

end

end Policies
end Orvex
