import Orvex.Domain.Agents

/-!
# Constitutions

A constitution is a versioned definition of authority.  A change makes a new
version, and activating one supersedes the active one of the agent.
-/

namespace Orvex
namespace Constitutions

/-! ## Validation -/

/-- `/^\d+(\.\d+)?$/u`. -/
def isDecimalText (text : String) : Bool :=
  let whole := text.toList.takeWhile Char.isDigit
  match text.toList.dropWhile Char.isDigit with
  | [] => !whole.isEmpty
  | '.' :: fraction =>
      !whole.isEmpty && !fraction.isEmpty && fraction.all Char.isDigit
  | _ => false

/-- `Object.entries(value)`. -/
def objectEntries (rt : Runtime) : Json → List (String × Json)
  | .object fields => fields
  | .array items =>
      items.zipIdx.map (fun item =>
        (rt.numberToString (item.2 : ℚ), item.1))
  | .string text =>
      text.toList.zipIdx.map (fun char =>
        (rt.numberToString (char.2 : ℚ), .string (String.singleton char.1)))
  | _ => []

def limitAllowed : Json → Bool
  | .string text => isDecimalText text
  | _ => false

def validateLimits (rt : Runtime) :
    List (String × Json) → Except Failure Unit
  | [] => .ok ()
  | (key, value) :: rest =>
      if limitAllowed value then validateLimits rt rest
      else
        .error (.of .invalidInput
          ("Spending limit '" ++ key ++
            "' must be a non-negative decimal string.")
          [("key", key), ("value", jsString rt value)])

def isObject : Json → Bool
  | .object _ => true
  | .array _ => true
  | _ => false

/-- `value ?? fallback`. -/
def orElse (fallback : Json) : Option Json → Json
  | none => fallback
  | some .null => fallback
  | some value => value

def validateConstitution (rt : Runtime) (config : Json) :
    Except Failure Unit :=
  if isObject config then
    match fieldOf "allowed_actions" config with
    | some (.array (_ :: _)) =>
        validateLimits rt (objectEntries rt
          (orElse (.object []) (fieldOf "spending_limits" config)))
    | _ =>
        .error (.of .invalidInput
          "Constitution must allow at least one action." [])
  else
    .error (.of .invalidInput "Constitution config is required." [])

/-! ## Versions -/

structure CreateConstitutionInput where
  companyId : String
  agentId : String
  config : Json
  createdBy : Option String

def latestVersion (agentId : String) (db : Database) : ℕ :=
  ((db.constitutions.filter (fun c => c.agentId = agentId)).map
    Constitution.version).foldl max 0

def constitutionAllowed (constitution : Constitution) (db : Database) :
    Bool :=
  companyExists constitution.companyId db &&
    (agentTable.lookup constitution.agentId db).isSome &&
    db.constitutions.all (fun other =>
      other.agentId != constitution.agentId ||
        other.version != constitution.version)

def createConstitution (rt : Runtime) (input : CreateConstitutionInput)
    (uuid : String) : Service Constitution := do
  let () ← reading (fun _ => validateConstitution rt input.config)
  match ← Fallible.query (Agents.getAgent input.companyId input.agentId) with
  | none =>
      Fallible.fail (.of .tenantError "Agent not found in this company."
        [("companyId", input.companyId), ("agentId", input.agentId)])
  | some _ =>
      let version := (← Fallible.query (latestVersion input.agentId)) + 1
      -- the column of the purpose rejects a value that is not a text
      let purpose ← Fallible.ofOption .language
        (textColumn (some (orElse (.string "")
          (fieldOf "purpose" input.config))))
      let constitution : Constitution :=
        { id := uuid
          companyId := input.companyId
          agentId := input.agentId
          version := version
          status := .draft
          purpose := purpose
          configurationJson := input.config
          hash := sha256Json rt (.object
            [("agentId", .string input.agentId),
              ("version", .number version), ("config", input.config)])
          createdBy := input.createdBy
          activatedAt := none
          deactivatedAt := none }
      constitutionTable.create .constraint
        (constitutionAllowed constitution) constitution

def getActiveConstitution (companyId agentId : String) (db : Database) :
    Option Constitution :=
  constitutionTable.find (fun c =>
    c.companyId = companyId ∧ c.agentId = agentId ∧ c.status = .active) db

def constitutionStatusText : ConstitutionStatus → String
  | .draft => "DRAFT"
  | .validating => "VALIDATING"
  | .approved => "APPROVED"
  | .active => "ACTIVE"
  | .superseded => "SUPERSEDED"
  | .disabled => "DISABLED"

def activateConstitution (companyId constitutionId : String) (now : ℤ) :
    Service Constitution :=
  Fallible.transaction do
    match ← Fallible.query (constitutionTable.find (fun c =>
        c.id = constitutionId ∧ c.companyId = companyId)) with
    | none =>
        Fallible.fail (.of .notFound "Constitution not found in this company."
          [("companyId", companyId), ("constitutionId", constitutionId)])
    | some target =>
        if target.status = .superseded ∨ target.status = .disabled then
          Fallible.fail (.of .conflict
            "Cannot activate a superseded or disabled constitution version."
            [("constitutionId", constitutionId),
              ("status", constitutionStatusText target.status)])
        else
          constitutionTable.updateMany
            (fun c => c.companyId = companyId ∧
              c.agentId = target.agentId ∧ c.status = .active)
            (fun c =>
              { c with status := .superseded, deactivatedAt := some now })
          let activated ← constitutionTable.update .recordNotFound target.id
            (fun c => { c with status := .active, activatedAt := some now })
          let _ ← agentTable.update .recordNotFound target.agentId
            (fun agent =>
              { agent with activeConstitutionId := some activated.id })
          pure activated

theorem getActiveConstitution_eq_some {companyId agentId : String}
    {db : Database} {c : Constitution}
    (h : getActiveConstitution companyId agentId db = some c) :
    c ∈ db.constitutions ∧ c.companyId = companyId ∧ c.agentId = agentId ∧
      c.status = .active := by
  have hmem := List.mem_of_find?_eq_some h
  have hkeys := List.find?_some h
  rw [decide_eq_true_eq] at hkeys
  exact ⟨hmem, hkeys⟩

/-! ## What the calls leave alone -/

section

open Fallible (Preserves)

variable {γ : Type} {f : Database → γ} (h : constitutionTable.Apart f)

include h

theorem preserves_createConstitution (rt : Runtime)
    (input : CreateConstitutionInput) (uuid : String) :
    Preserves f (createConstitution rt input uuid) := by
  refine (preserves_reading _).bind (fun _ => ?_)
  refine (Fallible.preserves_query _).bind (fun agent => ?_)
  cases agent with
  | none => exact Fallible.preserves_fail _
  | some row =>
      refine (Fallible.preserves_query _).bind (fun latest => ?_)
      exact (Fallible.preserves_ofOption _ _).bind (fun _ => h.create _ _ _)

theorem preserves_activateConstitution (hagent : agentTable.Apart f)
    (companyId constitutionId : String) (now : ℤ) :
    Preserves f (activateConstitution companyId constitutionId now) := by
  refine Preserves.transaction ?_
  refine (Fallible.preserves_query _).bind (fun found => ?_)
  cases found with
  | none => exact Fallible.preserves_fail _
  | some target =>
      simp only
      split
      · exact Fallible.preserves_fail _
      · refine (h.updateMany _ _).bind (fun _ => ?_)
        refine (h.update _ _ _).bind (fun activated => ?_)
        exact (hagent.update _ _ _).bind (fun _ => Fallible.preserves_pure _)

end

end Constitutions
end Orvex
