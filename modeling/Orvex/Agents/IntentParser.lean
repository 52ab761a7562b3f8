import Orvex.Core.Python
import Orvex.Foundation.Action

/-!
# The intent parser

The structured answer of a model becomes an intent.  A list of ambiguities is
filled by the model and by the checks of the budget and of the autonomy level,
and the status is read off it.
-/

namespace Orvex
namespace IntentParser

inductive AutonomyLevel where
  | manual | conditional | automatic
  deriving DecidableEq

def AutonomyLevel.text : AutonomyLevel → String
  | .manual => "MANUAL"
  | .conditional => "CONDITIONAL"
  | .automatic => "AUTOMATIC"

/-- The level that a value names, if it is in `_VALID_AUTONOMY`. -/
def AutonomyLevel.named (value : PyValue) : Option AutonomyLevel :=
  [manual, conditional, automatic].find? (fun level =>
    value.isText level.text)

inductive IntentStatus where
  | valid | needsClarification | expired | invalid
  deriving DecidableEq

structure MoneyLimit where
  maximum : String
  currency : String
  period : Option String
  deriving DecidableEq

structure Ambiguity where
  field : String
  reason : String
  deriving DecidableEq

structure Intent where
  userId : Option String
  agentId : String
  userGoal : String
  purpose : String
  desiredOutcome : String
  constraints : List String
  budget : Option MoneyLimit
  authorizedActions : List String
  forbiddenActions : List String
  autonomyLevel : AutonomyLevel
  approvalConditions : List String
  status : IntentStatus
  confidence : Option PyFloat
  ambiguities : List Ambiguity

/-- The arguments of `parse` that are copied into the intent. -/
structure ParseCall where
  userGoal : String
  agentId : String
  userId : Option String

def budgetMaximum : String := "budget.maximum"

def budgetCurrency : String := "budget.currency"

def autonomyField : String := "autonomy_level"

/-- `_MATERIAL_FIELDS`. -/
def materialFields : List String :=
  [budgetMaximum, budgetCurrency, autonomyField]

/-- `_valid_decimal_string(value)`. -/
def validDecimalString (py : Python) : PyValue → Bool
  | .str text => (py.decimal text).isSome
  | _ => false

/-! ## Ambiguities -/

/-- `_has_ambiguity(ambiguities, field)`. -/
def hasAmbiguity (ambiguities : List Ambiguity) (field : String) : Bool :=
  ambiguities.any (fun a => decide (a.field = field))

/-- `_ensure_ambiguity(ambiguities, field, reason)`. -/
def ensureAmbiguity (ambiguities : List Ambiguity) (field reason : String) :
    List Ambiguity :=
  if hasAmbiguity ambiguities field then ambiguities
  else ambiguities ++ [⟨field, reason⟩]

/-- The ambiguity that a dictionary of the answer reports, if it does. -/
def ambiguityOf (item : PyDict) : Except PyException (Option Ambiguity) :=
  if (item.get "field").truthy then do
    let field ← (item.get "field").requireText
    let reason ← (item.getD "reason" (.str "unspecified")).requireText
    return some ⟨field, reason⟩
  else .ok none

def reportedAmbiguity : PyValue → Except PyException (Option Ambiguity)
  | .dict fields => ambiguityOf fields
  | _ => .ok none

def reportedAmbiguities (raw : PyDict) :
    Except PyException (List Ambiguity) := do
  let items ← (raw.getD "ambiguities" (.list [])).members
  let reported ← items.mapM reportedAmbiguity
  return reported.filterMap id

/-! ## The checks -/

def noAmount : String := "No maximum spending amount was supplied."

def noCurrency : String := "No currency was supplied."

def noValidAmount : String :=
  "No valid maximum amount (decimal string) was supplied; " ++
    "the system will not invent one."

def noAutonomy : String :=
  "Autonomy level was not clearly specified by the user."

/-- A value that is not an accepted text is dropped. -/
def keptText (accepted : Bool) : PyValue → Option String
  | .str text => if accepted then some text else none
  | _ => none

/-- The period of the budget, if it is one of the known ones. -/
def keptPeriod : PyValue → Option String
  | .str text =>
      if text ∈ ["daily", "weekly", "monthly", "once"] then some text
      else none
  | _ => none

/-- The limit of a budget that is stated, with the list. -/
def budgetOf (py : Python) (budget : PyDict)
    (ambiguities : List Ambiguity) : Option MoneyLimit × List Ambiguity :=
  let maximum := keptText (validDecimalString py (budget.get "maximum"))
    (budget.get "maximum")
  let currency := keptText (budget.get "currency").truthy
    (budget.get "currency")
  let ambiguities :=
    if maximum.isNone then
      ensureAmbiguity ambiguities budgetMaximum noValidAmount
    else ambiguities
  let ambiguities :=
    if currency.isNone then
      ensureAmbiguity ambiguities budgetCurrency noCurrency
    else ambiguities
  (maximum.bind (fun m => currency.map (fun c =>
    ⟨m, c, keptPeriod (budget.get "period")⟩)), ambiguities)

/-- `_extract_budget(raw_budget, ambiguities)`, which also fills the list. -/
def extractBudget (py : Python) (rawBudget : PyValue)
    (ambiguities : List Ambiguity) : Option MoneyLimit × List Ambiguity :=
  match rawBudget with
  | .dict fields => budgetOf py fields ambiguities
  | _ =>
      (none, ensureAmbiguity
        (ensureAmbiguity ambiguities budgetMaximum noAmount)
        budgetCurrency noCurrency)

/-- The autonomy level of the answer, which has to be hashable, with the
list. -/
def extractAutonomy (value : PyValue) (ambiguities : List Ambiguity) :
    Except PyException (AutonomyLevel × List Ambiguity) :=
  if value.hashable then
    match AutonomyLevel.named value with
    | some level => .ok (level, ambiguities)
    | none =>
        .ok (.manual, ensureAmbiguity ambiguities autonomyField noAutonomy)
  else .error .typeError

/-- `_determine_status(budget, ambiguities)`. -/
def determineStatus (budget : Option MoneyLimit)
    (ambiguities : List Ambiguity) : IntentStatus :=
  if materialFields.any (hasAmbiguity ambiguities) then .needsClarification
  else if budget.isNone && hasAmbiguity ambiguities budgetMaximum then
    .needsClarification
  else .valid

/-! ## The intent -/

/-- `[str(v) for v in raw.get(key, []) if v]`. -/
def textsOf (py : Python) (raw : PyDict) (key : String) :
    Except PyException (List String) := do
  let members ← (raw.getD key (.list [])).members
  return (members.filter PyValue.truthy).map py.str

/-- A float or nothing, as the intent requires its confidence. -/
def requireFloat (py : Python) : PyValue → Except PyException (Option PyFloat)
  | .none => .ok none
  | .str text =>
      match py.floatOfStr text with
      | some x => .ok (some x)
      | none => .error .validationError
  | value =>
      match value.number with
      | some x => .ok (some x)
      | none => .error .validationError

/-- `str(raw.get(key) or "unspecified")`. -/
def specified (py : Python) (raw : PyDict) (key : String) : String :=
  py.str ((raw.get key).orElse (.str "unspecified"))

/-- `_assemble(raw, ...)`. -/
def assemble (py : Python) (call : ParseCall) (raw : PyDict) :
    Except PyException Intent := do
  let reported ← reportedAmbiguities raw
  let (budget, checked) := extractBudget py (raw.get "budget") reported
  let (autonomy, ambiguities) ←
    extractAutonomy (raw.get "autonomy_level") checked
  let constraints ← textsOf py raw "constraints"
  let authorizedActions ← textsOf py raw "authorized_actions"
  let forbiddenActions ← textsOf py raw "forbidden_actions"
  let approvalConditions ← textsOf py raw "approval_conditions"
  let confidence ← requireFloat py (raw.get "confidence")
  return {
    userId := call.userId
    agentId := call.agentId
    userGoal := call.userGoal
    purpose := specified py raw "purpose"
    desiredOutcome := specified py raw "desired_outcome"
    constraints := constraints
    budget := budget
    authorizedActions := authorizedActions
    forbiddenActions := forbiddenActions
    autonomyLevel := autonomy
    approvalConditions := approvalConditions
    status := determineStatus budget ambiguities
    confidence := confidence
    ambiguities := ambiguities }

/-- `response.structured or {}`, on which `get` is called. -/
def rawAnswer (structured : PyValue) : Except PyException PyDict :=
  (structured.orElse (.dict [])).asDict

/-- `parse(...)` with the structured answer of the provider. -/
def parse (py : Python) (call : ParseCall) (structured : PyValue) :
    Except PyException Intent := do
  let raw ← rawAnswer structured
  assemble py call raw

/-! ## What an intent is made of -/

@[simp] theorem hasAmbiguity_iff {ambiguities : List Ambiguity}
    {field : String} :
    hasAmbiguity ambiguities field = true ↔
      ∃ a ∈ ambiguities, a.field = field := by
  simp [hasAmbiguity]

theorem hasAmbiguity_ensure {ambiguities : List Ambiguity}
    {field reason other : String} :
    hasAmbiguity (ensureAmbiguity ambiguities field reason) other = true ↔
      hasAmbiguity ambiguities other = true ∨ field = other := by
  unfold ensureAmbiguity
  by_cases hhas : hasAmbiguity ambiguities field = true
  · rw [if_pos hhas]
    constructor
    · exact Or.inl
    · intro h
      rcases h with hother | hsame
      · exact hother
      · rw [← hsame]
        exact hhas
  · rw [if_neg hhas]
    simp [or_and_right, exists_or]

theorem named_eq_some_iff {value : PyValue} {level : AutonomyLevel} :
    AutonomyLevel.named value = some level ↔ value = .str level.text := by
  constructor
  · intro h
    have htext := List.find?_some h
    cases value with
    | str s =>
        have hsame : s = level.text := by
          simpa [PyValue.isText] using htext
        rw [hsame]
    | _ => cases htext
  · intro h
    rw [h]
    cases level with
    | manual => decide
    | conditional => decide
    | automatic => decide

/-- The parts of an intent that the gate is about. -/
theorem assemble_eq_ok {py : Python} {call : ParseCall} {raw : PyDict}
    {intent : Intent} (h : assemble py call raw = .ok intent) :
    ∃ reported, reportedAmbiguities raw = .ok reported ∧
      intent.budget =
        (extractBudget py (raw.get "budget") reported).1 ∧
      extractAutonomy (raw.get "autonomy_level")
          (extractBudget py (raw.get "budget") reported).2 =
        .ok (intent.autonomyLevel, intent.ambiguities) ∧
      intent.status = determineStatus intent.budget intent.ambiguities := by
  unfold assemble at h
  obtain ⟨reported, hreported, h⟩ := Fallible.result_bind_eq_ok.mp h
  obtain ⟨⟨autonomy, ambiguities⟩, hautonomy, h⟩ :=
    Fallible.result_bind_eq_ok.mp h
  obtain ⟨constraints, -, h⟩ := Fallible.result_bind_eq_ok.mp h
  obtain ⟨authorizedActions, -, h⟩ := Fallible.result_bind_eq_ok.mp h
  obtain ⟨forbiddenActions, -, h⟩ := Fallible.result_bind_eq_ok.mp h
  obtain ⟨approvalConditions, -, h⟩ := Fallible.result_bind_eq_ok.mp h
  obtain ⟨confidence, -, h⟩ := Fallible.result_bind_eq_ok.mp h
  have hintent := Except.ok.inj h
  refine ⟨reported, hreported, ?_⟩
  rw [← hintent]
  exact ⟨rfl, hautonomy, rfl⟩

end IntentParser
end Orvex
