import Orvex.Core.Database

/-!
# The policy lifecycle

A policy has immutable versions.  A version is created as a draft, moves
through the states of `versionTransitions`, and activating it supersedes the
active version of its policy.
-/

namespace Orvex
namespace Policies

def versionTransitions : PolicyVersionStatus → List PolicyVersionStatus
  | .draft => [.validating, .disabled]
  | .validating => [.simulated, .draft, .disabled]
  | .simulated => [.approved, .draft, .disabled]
  | .approved => [.active, .disabled]
  | .active => [.superseded, .disabled]
  | .superseded => []
  | .disabled => []

def versionStatusText : PolicyVersionStatus → String
  | .draft => "DRAFT"
  | .validating => "VALIDATING"
  | .simulated => "SIMULATED"
  | .approved => "APPROVED"
  | .active => "ACTIVE"
  | .superseded => "SUPERSEDED"
  | .disabled => "DISABLED"

/-! ## Reading -/

def getPolicy (companyId policyId : String) (db : Database) :
    Option Policy :=
  policyTable.find
    (fun policy => policy.id = policyId ∧ policy.companyId = companyId) db

/-- The policy of the version belongs to the company. -/
def ownedBy (companyId : String) (db : Database) (version : PolicyVersion) :
    Bool :=
  (policyTable.lookup version.policyId db).any
    (fun policy => policy.companyId = companyId)

def getVersion (companyId policyVersionId : String) (db : Database) :
    Option PolicyVersion :=
  policyVersionTable.find (fun version =>
    version.id = policyVersionId ∧ ownedBy companyId db version) db

def getActiveVersion (companyId policyId : String) (db : Database) :
    Option PolicyVersion :=
  policyVersionTable.find (fun version =>
    version.policyId = policyId ∧ version.status = .active ∧
      ownedBy companyId db version) db

def versionNotFound (policyVersionId : String) : Failure :=
  .of .notFound "Policy version not found."
    [("policyVersionId", policyVersionId)]

def requireVersion (companyId policyVersionId : String) (db : Database) :
    Except Failure PolicyVersion :=
  match getVersion companyId policyVersionId db with
  | some version => .ok version
  | none => .error (versionNotFound policyVersionId)

def loadRules (companyId policyVersionId : String) (db : Database) :
    Except Failure (List CompiledRule) := do
  let version ← requireVersion companyId policyVersionId db
  pure (version.compiledPolicyJson.rules.getD [])

/-! ## Drafts -/

structure CreateDraftInput where
  companyId : String
  agentId : Option String
  name : Option String
  description : Option String
  rules : Json
  sourceType : Option String
  sourceReference : Option String
  createdBy : Option String

/-- The ids that the database generates for the rows of one draft. -/
structure DraftIds where
  policy : String
  version : String
  rule : ℕ → String

def ruleItems : Json → List Json
  | .array items => items
  | _ => []

/-- The `Int` column of a priority. -/
def priorityColumn : Option ℚ → Option ℤ
  | none => some 100
  | some n => if n.den = 1 ∧ |n| < 2147483648 then some n.num else none

def ruleAllowed (row : PolicyRule) (db : Database) : Bool :=
  (policyVersionTable.lookup row.policyVersionId db).isSome &&
    db.policyRules.all (fun other =>
      other.policyVersionId != row.policyVersionId ||
        other.ruleId != row.ruleId)

def createRule (versionId uuid : String) (rule : CompiledRule) :
    Service PolicyRule := do
  let priority ← Fallible.ofOption .language (priorityColumn rule.priority)
  let row : PolicyRule :=
    { id := uuid
      policyVersionId := versionId
      ruleId := rule.ruleId
      ruleType := rule.type
      priority := priority
      configurationJson := rule
      enabled := rule.enabled.getD true }
  policyRuleTable.create .constraint (ruleAllowed row) row

def createRules (versionId : String) (uuid : ℕ → String) :
    List CompiledRule → Service Unit
  | [] => pure ()
  | rule :: rest => do
      let _ ← createRule versionId (uuid 0) rule
      createRules versionId (fun n => uuid (n + 1)) rest

def latestVersion (policyId : String) (db : Database) : ℕ :=
  ((db.policyVersions.filter (fun v => v.policyId = policyId)).map
    PolicyVersion.version).foldl max 0

def versionAllowed (version : PolicyVersion) (db : Database) : Bool :=
  (policyTable.lookup version.policyId db).isSome &&
    db.policyVersions.all (fun other =>
      other.policyId != version.policyId || other.version != version.version)

/-- The policy of this company, agent and name, created when there is
none. -/
def findOrCreatePolicy (input : CreateDraftInput) (name uuid : String) :
    Service Policy := do
  match ← Fallible.query (policyTable.find (fun policy =>
      policy.companyId = input.companyId ∧ policy.agentId = input.agentId ∧
        policy.name = name)) with
  | some policy => pure policy
  | none =>
      policyTable.create .constraint (companyExists input.companyId)
        { id := uuid
          companyId := input.companyId
          agentId := input.agentId
          name := name
          description := input.description.getD ""
          currentVersion := 0
          status := .draft
          createdBy := input.createdBy }

def createVersion (rt : Runtime) (input : CreateDraftInput)
    (policyId uuid : String) (rules : List CompiledRule) :
    Service PolicyVersion := do
  let number := (← Fallible.query (latestVersion policyId)) + 1
  let version : PolicyVersion :=
    { id := uuid
      policyId := policyId
      version := number
      status := .draft
      compiledPolicyJson := ⟨some rules⟩
      hash := sha256Json rt (.object
        [("policyId", .string policyId), ("version", .number number),
          ("rules", input.rules)])
      sourceType := input.sourceType
      sourceReference := input.sourceReference
      activatedAt := none
      deactivatedAt := none
      approvedBy := none }
  policyVersionTable.create .constraint (versionAllowed version) version

def createDraft (rt : Runtime) (input : CreateDraftInput) (ids : DraftIds) :
    Service (Policy × PolicyVersion) := do
  let name := jsTrim (input.name.getD "")
  if name = "" then
    Fallible.fail (.of .invalidInput "Policy name is required." [])
  else
    let () ← reading (fun _ => validateCompiledRules rt input.rules)
    if ← Fallible.query (companyExists input.companyId) then
      Fallible.transaction do
        let policy ← findOrCreatePolicy input name ids.policy
        -- a rule whose row is rejected undoes the whole transaction
        let rules ← Fallible.ofOption .language
          ((ruleItems input.rules).mapM CompiledRule.ofJson)
        let version ← createVersion rt input policy.id ids.version rules
        createRules version.id ids.rule rules
        pure (policy, version)
    else
      Fallible.fail (.of .tenantError "Company not found for policy."
        [("companyId", input.companyId)])

/-! ## Transitions -/

def assertTransition (source target : PolicyVersionStatus) :
    Except Failure Unit :=
  if (versionTransitions source).contains target then .ok ()
  else
    .error (.of .conflict
      ("Illegal policy version transition " ++ versionStatusText source ++
        " -> " ++ versionStatusText target ++ ".")
      [("from", versionStatusText source),
        ("to", versionStatusText target)])

def transition (companyId policyVersionId : String)
    (target : PolicyVersionStatus) : Service PolicyVersion := do
  let current ← reading (requireVersion companyId policyVersionId)
  let () ← reading (fun _ => assertTransition current.status target)
  policyVersionTable.update .recordNotFound current.id
    (fun version => { version with status := target })

def validate (companyId policyVersionId : String) : Service PolicyVersion :=
  transition companyId policyVersionId .validating

def simulate (companyId policyVersionId : String) : Service PolicyVersion :=
  transition companyId policyVersionId .simulated

def approve (companyId policyVersionId : String)
    (approvedBy : Option String) : Service PolicyVersion :=
  Fallible.transaction do
    let current ← reading (requireVersion companyId policyVersionId)
    let () ← reading (fun _ => assertTransition current.status .approved)
    policyVersionTable.update .recordNotFound current.id
      (fun version =>
        { version with status := .approved, approvedBy := approvedBy })

def disable (companyId policyVersionId : String) : Service PolicyVersion :=
  transition companyId policyVersionId .disabled

def activate (companyId policyVersionId : String) (now : ℤ) :
    Service PolicyVersion :=
  Fallible.transaction do
    let target ← reading (requireVersion companyId policyVersionId)
    let () ← reading (fun _ => assertTransition target.status .active)
    policyVersionTable.updateMany
      (fun version =>
        version.policyId = target.policyId ∧ version.status = .active)
      (fun version =>
        { version with status := .superseded, deactivatedAt := some now })
    let activated ← policyVersionTable.update .recordNotFound target.id
      (fun version =>
        { version with status := .active, activatedAt := some now })
    let _ ← policyTable.update .recordNotFound target.policyId
      (fun policy =>
        { policy with
          status := .active
          currentVersion := activated.version })
    pure activated

/-! ## What the reads find -/

theorem getVersion_eq_some {companyId policyVersionId : String}
    {db : Database} {version : PolicyVersion}
    (h : getVersion companyId policyVersionId db = some version) :
    version ∈ db.policyVersions ∧ version.id = policyVersionId ∧
      ownedBy companyId db version = true := by
  have hmem := List.mem_of_find?_eq_some h
  have hkeys := List.find?_some h
  rw [decide_eq_true_eq] at hkeys
  exact ⟨hmem, hkeys⟩

theorem getActiveVersion_eq_some {companyId policyId : String}
    {db : Database} {version : PolicyVersion}
    (h : getActiveVersion companyId policyId db = some version) :
    version ∈ db.policyVersions ∧ version.policyId = policyId ∧
      version.status = .active ∧ ownedBy companyId db version = true := by
  have hmem := List.mem_of_find?_eq_some h
  have hkeys := List.find?_some h
  rw [decide_eq_true_eq] at hkeys
  exact ⟨hmem, hkeys⟩

end Policies
end Orvex
