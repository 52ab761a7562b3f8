import Orvex.Agents.IntentParser
import Orvex.Core.Reference

/-!
# The clarification gate

An intent is valid when the answer states the budget and the autonomy level
and reports no ambiguity on them.  What it states is copied.  The maximum is
checked only for being a text that the decimal package reads.
-/

namespace Orvex
namespace IntentParser

/-! ## What the answer says -/

/-- The answer states these as its budget and its autonomy level. -/
structure States (raw : PyDict) (maximum currency : String)
    (autonomy : AutonomyLevel) : Prop where
  budget : ∃ budget, raw.get "budget" = .dict budget ∧
    PyDict.get budget "maximum" = .str maximum ∧
    PyDict.get budget "currency" = .str currency
  currency_ne : currency ≠ ""
  autonomy : raw.get "autonomy_level" = .str autonomy.text

/-- The answer reports an ambiguity on a field. -/
def ReportsAmbiguity (raw : PyDict) (field : String) : Prop :=
  ∃ items item, (raw.getD "ambiguities" (.list [])).members = .ok items ∧
    PyValue.dict item ∈ items ∧ PyDict.get item "field" = .str field

/-- The text spells a finite decimal number that is not negative. -/
def SpellsAmount (py : Python) (text : String) : Prop :=
  ∃ amount decimal, py.decimal text = some ⟨.finite amount, decimal⟩ ∧
    0 ≤ amount

/-- The text is read as a decimal, which may be no number. -/
def SpellsDecimal (py : Python) (text : String) : Prop :=
  (py.decimal text).isSome = true

/-! ## The ambiguities of the intent -/

theorem requireText_eq_ok {value : PyValue} {text : String} :
    value.requireText = .ok text ↔ value = .str text := by
  cases value <;> simp [PyValue.requireText]

theorem ambiguityOf_eq_some {item : PyDict} {a : Ambiguity}
    (h : ambiguityOf item = .ok (some a)) :
    PyDict.get item "field" = .str a.field := by
  unfold ambiguityOf at h
  by_cases htruthy : (PyDict.get item "field").truthy = true
  · rw [if_pos htruthy] at h
    obtain ⟨field, hfield, h⟩ := Fallible.result_bind_eq_ok.mp h
    obtain ⟨reason, -, h⟩ := Fallible.result_bind_eq_ok.mp h
    have ha := Option.some.inj (Except.ok.inj h)
    rw [← ha]
    exact requireText_eq_ok.mp hfield
  · rw [if_neg htruthy] at h
    cases h

/-- A dictionary with a field is reported, or the answer is rejected. -/
theorem ambiguityOf_of_field {item : PyDict} {field : String}
    {found : Option Ambiguity} (hfield : PyDict.get item "field" = .str field)
    (hne : field ≠ "") (h : ambiguityOf item = .ok found) :
    ∃ a, found = some a ∧ a.field = field := by
  unfold ambiguityOf at h
  have htruthy : (PyDict.get item "field").truthy = true := by
    rw [hfield]
    exact decide_eq_true hne
  rw [if_pos htruthy, hfield] at h
  obtain ⟨text, htext, h⟩ := Fallible.result_bind_eq_ok.mp h
  obtain ⟨reason, -, h⟩ := Fallible.result_bind_eq_ok.mp h
  have hsame : PyValue.str field = .str text := requireText_eq_ok.mp htext
  rw [← Except.ok.inj h]
  exact ⟨_, rfl, (PyValue.str.inj hsame).symm⟩

/-- Before the checks the list has the ambiguities that the answer reports. -/
theorem hasAmbiguity_reported {raw : PyDict} {reported : List Ambiguity}
    (h : reportedAmbiguities raw = .ok reported) {field : String}
    (hne : field ≠ "") :
    hasAmbiguity reported field = true ↔ ReportsAmbiguity raw field := by
  unfold reportedAmbiguities at h
  obtain ⟨items, hitems, h⟩ := Fallible.result_bind_eq_ok.mp h
  obtain ⟨results, hresults, h⟩ := Fallible.result_bind_eq_ok.mp h
  have hreported : reported = results.filterMap id := (Except.ok.inj h).symm
  have hmem : ∀ a, a ∈ reported ↔
      ∃ value ∈ items, reportedAmbiguity value = .ok (some a) := by
    intro a
    rw [hreported, ← Fallible.mem_mapM_iff hresults]
    simp
  rw [hasAmbiguity_iff]
  constructor
  · intro hhas
    obtain ⟨a, ha, hfield⟩ := hhas
    obtain ⟨value, hvalue, hfound⟩ := (hmem a).mp ha
    cases value with
    | dict item =>
        refine ⟨items, item, hitems, hvalue, ?_⟩
        rw [← hfield]
        exact ambiguityOf_eq_some hfound
    | _ => cases hfound
  · intro hreports
    obtain ⟨items', item, hitems', hitem, hfield⟩ := hreports
    have hsame : items = items' := by
      rw [hitems] at hitems'
      exact Except.ok.inj hitems'
    rw [← hsame] at hitem
    obtain ⟨found, hfound⟩ := Fallible.exists_of_mapM hresults hitem
    obtain ⟨a, ha, hafield⟩ := ambiguityOf_of_field hfield hne hfound
    rw [ha] at hfound
    exact ⟨a, (hmem a).mpr ⟨_, hitem, hfound⟩, hafield⟩

/-! ## The status -/

theorem determineStatus_valid_iff {budget : Option MoneyLimit}
    {ambiguities : List Ambiguity} :
    determineStatus budget ambiguities = .valid ↔
      ∀ field ∈ materialFields, ¬ hasAmbiguity ambiguities field = true := by
  unfold determineStatus
  by_cases hany : materialFields.any (hasAmbiguity ambiguities) = true
  · rw [if_pos hany]
    obtain ⟨field, hfield, hhas⟩ := List.any_eq_true.mp hany
    refine iff_of_false (by decide) ?_
    intro hnone
    exact hnone field hfield hhas
  · have hnone : ∀ field ∈ materialFields,
        ¬ hasAmbiguity ambiguities field = true := by
      intro field hfield hhas
      exact hany (List.any_eq_true.mpr ⟨field, hfield, hhas⟩)
    have hmaximum : ¬ (budget.isNone &&
        hasAmbiguity ambiguities budgetMaximum) = true := by
      intro h
      exact hnone budgetMaximum List.mem_cons_self
        (Bool.and_eq_true_iff.mp h).2
    rw [if_neg hany, if_neg hmaximum]
    exact iff_of_true rfl hnone

/-- A status that is not valid asks for clarification. -/
theorem determineStatus_cases (budget : Option MoneyLimit)
    (ambiguities : List Ambiguity) :
    determineStatus budget ambiguities = .valid ∨
      determineStatus budget ambiguities = .needsClarification := by
  unfold determineStatus
  split
  · exact Or.inr rfl
  · split
    · exact Or.inr rfl
    · exact Or.inl rfl

/-- The answer states a budget with a maximum that is read as a decimal and
with a currency. -/
structure StatesBudget (py : Python) (rawBudget : PyValue)
    (limit : MoneyLimit) : Prop where
  dict : ∃ budget, rawBudget = .dict budget ∧
    PyDict.get budget "maximum" = .str limit.maximum ∧
    PyDict.get budget "currency" = .str limit.currency ∧
    limit.period = keptPeriod (PyDict.get budget "period")
  decimal : SpellsDecimal py limit.maximum
  currency_ne : limit.currency ≠ ""

theorem keptText_eq_some {accepted : Bool} {value : PyValue}
    {text : String} :
    keptText accepted value = some text ↔
      value = .str text ∧ accepted = true := by
  cases value with
  | str s =>
      cases accepted with
      | true => simp [keptText]
      | false => simp [keptText]
  | _ => simp [keptText]

/-- The limit is what the answer states, and the list is kept. -/
theorem extractBudget_of_states {py : Python} {rawBudget : PyValue}
    {limit : MoneyLimit} (h : StatesBudget py rawBudget limit)
    (ambiguities : List Ambiguity) :
    extractBudget py rawBudget ambiguities = (some limit, ambiguities) := by
  obtain ⟨budget, hraw, hmaximum, hcurrency, hperiod⟩ := h.dict
  have hkeptMaximum : keptText
      (validDecimalString py (PyDict.get budget "maximum"))
      (PyDict.get budget "maximum") = some limit.maximum := by
    rw [hmaximum]
    exact keptText_eq_some.mpr ⟨rfl, h.decimal⟩
  have hkeptCurrency : keptText (PyDict.get budget "currency").truthy
      (PyDict.get budget "currency") = some limit.currency := by
    rw [hcurrency]
    exact keptText_eq_some.mpr ⟨rfl, decide_eq_true h.currency_ne⟩
  rw [hraw]
  simp only [extractBudget, budgetOf, hkeptMaximum, hkeptCurrency,
    Option.isNone_some, Bool.false_eq_true, if_false, Option.bind_some,
    Option.map_some, ← hperiod]

/-- A limit is one that the answer states. -/
theorem states_of_extractBudget {py : Python} {rawBudget : PyValue}
    {ambiguities : List Ambiguity} {limit : MoneyLimit}
    (h : (extractBudget py rawBudget ambiguities).1 = some limit) :
    StatesBudget py rawBudget limit := by
  cases rawBudget with
  | dict budget =>
      simp only [extractBudget, budgetOf, Option.bind_eq_some_iff,
        Option.map_eq_some_iff] at h
      obtain ⟨maximum, hmaximum, currency, hcurrency, hlimit⟩ := h
      obtain ⟨hmaximum, hvalid⟩ := keptText_eq_some.mp hmaximum
      obtain ⟨hcurrency, htruthy⟩ := keptText_eq_some.mp hcurrency
      rw [hmaximum] at hvalid
      rw [hcurrency] at htruthy
      rw [← hlimit]
      exact ⟨⟨budget, rfl, hmaximum, hcurrency, rfl⟩, hvalid,
        of_decide_eq_true htruthy⟩
  | _ => cases h

/-- Without a limit an ambiguity of the budget is in the list. -/
theorem ambiguous_of_no_limit {py : Python} {rawBudget : PyValue}
    {ambiguities : List Ambiguity}
    (h : (extractBudget py rawBudget ambiguities).1 = none) :
    hasAmbiguity (extractBudget py rawBudget ambiguities).2 budgetMaximum =
        true ∨
      hasAmbiguity (extractBudget py rawBudget ambiguities).2
        budgetCurrency = true := by
  cases rawBudget with
  | dict budget =>
      simp only [extractBudget, budgetOf] at h ⊢
      cases hmaximum : keptText
          (validDecimalString py (PyDict.get budget "maximum"))
          (PyDict.get budget "maximum") with
      | none =>
          left
          have hfirst : hasAmbiguity (ensureAmbiguity ambiguities
              budgetMaximum noValidAmount) budgetMaximum = true :=
            hasAmbiguity_ensure.mpr (Or.inr rfl)
          simp only [Option.isNone_none, if_true]
          split
          · exact hasAmbiguity_ensure.mpr (Or.inl hfirst)
          · exact hfirst
      | some maximum =>
          right
          cases hcurrency : keptText (PyDict.get budget "currency").truthy
              (PyDict.get budget "currency") with
          | none =>
              simp only [Option.isNone_none, if_true]
              exact hasAmbiguity_ensure.mpr (Or.inr rfl)
          | some currency =>
              rw [hmaximum, hcurrency] at h
              cases h
  | _ => exact Or.inr (hasAmbiguity_ensure.mpr (Or.inr rfl))

theorem extractAutonomy_of_named {value : PyValue} {level : AutonomyLevel}
    (h : value = .str level.text) (ambiguities : List Ambiguity) :
    extractAutonomy value ambiguities = .ok (level, ambiguities) := by
  have hnamed := named_eq_some_iff.mpr h
  have hhashable : value.hashable = true := by
    rw [h]
    rfl
  rw [extractAutonomy, if_pos hhashable, hnamed]

/-- Without a level of the answer an ambiguity of the autonomy is in the
list. -/
theorem ambiguous_of_no_level {value : PyValue}
    {ambiguities ambiguities' : List Ambiguity} {level : AutonomyLevel}
    (h : extractAutonomy value ambiguities = .ok (level, ambiguities'))
    (hnot : ∀ named : AutonomyLevel, value ≠ .str named.text) :
    hasAmbiguity ambiguities' autonomyField = true := by
  unfold extractAutonomy at h
  have hnone : AutonomyLevel.named value = none := by
    cases hnamed : AutonomyLevel.named value with
    | none => rfl
    | some named => exact absurd (named_eq_some_iff.mp hnamed) (hnot named)
  by_cases hhashable : value.hashable = true
  · rw [if_pos hhashable, hnone] at h
    have hlist : ensureAmbiguity ambiguities autonomyField noAutonomy =
        ambiguities' := (Prod.mk.inj (Except.ok.inj h)).2
    rw [← hlist]
    exact hasAmbiguity_ensure.mpr (Or.inr rfl)
  · rw [if_neg hhashable] at h
    cases h

/-- The checks of the autonomy level keep what is in the list. -/
theorem ambiguity_kept_of_autonomy {value : PyValue}
    {ambiguities ambiguities' : List Ambiguity} {level : AutonomyLevel}
    (h : extractAutonomy value ambiguities = .ok (level, ambiguities'))
    {field : String} (hhas : hasAmbiguity ambiguities field = true) :
    hasAmbiguity ambiguities' field = true := by
  unfold extractAutonomy at h
  split at h
  · split at h
    · have hlist : ambiguities = ambiguities' :=
        (Prod.mk.inj (Except.ok.inj h)).2
      rw [← hlist]
      exact hhas
    · have hlist : ensureAmbiguity ambiguities autonomyField noAutonomy =
          ambiguities' := (Prod.mk.inj (Except.ok.inj h)).2
      rw [← hlist]
      exact hasAmbiguity_ensure.mpr (Or.inl hhas)
  · cases h

/-! ## The gate -/

/-- The answer states the material fields, with a maximum that satisfies the
condition, and reports no ambiguity on them. -/
structure Material (readable : String → Prop) (raw : PyDict)
    (maximum currency : String) (autonomy : AutonomyLevel) : Prop where
  stated : States raw maximum currency autonomy
  readable : readable maximum
  unambiguous : ∀ field ∈ materialFields, ¬ ReportsAmbiguity raw field

variable {py : Python} {call : ParseCall} {raw : PyDict} {intent : Intent}

theorem material_ne_empty {field : String} (h : field ∈ materialFields) :
    field ≠ "" := by
  have hall : ∀ field ∈ materialFields, field ≠ "" := by decide
  exact hall field h

/-- What is stated without ambiguity makes the intent valid. -/
theorem valid_of_material (h : assemble py call raw = .ok intent)
    {maximum currency : String} {level : AutonomyLevel}
    (hmaterial : Material (SpellsDecimal py) raw maximum currency level) :
    intent.status = .valid := by
  obtain ⟨reported, hreported, -, hautonomy, hstatus⟩ := assemble_eq_ok h
  obtain ⟨budget, hraw, hmaximum, hcurrency⟩ := hmaterial.stated.budget
  have hstates : StatesBudget py (raw.get "budget")
      ⟨maximum, currency, keptPeriod (PyDict.get budget "period")⟩ :=
    ⟨⟨budget, hraw, hmaximum, hcurrency, rfl⟩, hmaterial.readable,
      hmaterial.stated.currency_ne⟩
  rw [extractBudget_of_states hstates reported,
    extractAutonomy_of_named hmaterial.stated.autonomy] at hautonomy
  have hlist := (Prod.mk.inj (Except.ok.inj hautonomy)).2
  rw [hstatus, determineStatus_valid_iff, ← hlist]
  intro field hfield hhas
  exact hmaterial.unambiguous field hfield
    ((hasAmbiguity_reported hreported (material_ne_empty hfield)).mp hhas)

/-- A valid intent is stated without ambiguity, and copied. -/
theorem material_of_valid (h : assemble py call raw = .ok intent)
    (hvalid : intent.status = .valid) :
    ∃ maximum currency autonomy,
      Material (SpellsDecimal py) raw maximum currency autonomy ∧
        (∃ limit, intent.budget = some limit ∧
          limit.maximum = maximum ∧ limit.currency = currency) ∧
        intent.autonomyLevel = autonomy := by
  obtain ⟨reported, hreported, hbudget, hautonomy, hstatus⟩ :=
    assemble_eq_ok h
  rw [hstatus, determineStatus_valid_iff] at hvalid
  have hlimit : ∃ limit, (extractBudget py (raw.get "budget")
      reported).1 = some limit := by
    cases hextract : (extractBudget py (raw.get "budget") reported).1 with
    | some limit => exact ⟨limit, rfl⟩
    | none =>
        exfalso
        rcases ambiguous_of_no_limit hextract with hmaximum | hcurrency
        · exact hvalid budgetMaximum (by decide)
            (ambiguity_kept_of_autonomy hautonomy hmaximum)
        · exact hvalid budgetCurrency (by decide)
            (ambiguity_kept_of_autonomy hautonomy hcurrency)
  obtain ⟨limit, hlimit⟩ := hlimit
  have hstates := states_of_extractBudget hlimit
  rw [extractBudget_of_states hstates reported] at hautonomy hbudget
  have hlevel : ∃ level : AutonomyLevel,
      raw.get "autonomy_level" = .str level.text := by
    by_contra hnot
    push Not at hnot
    exact hvalid autonomyField (by decide)
      (ambiguous_of_no_level hautonomy hnot)
  obtain ⟨level, hlevel⟩ := hlevel
  rw [extractAutonomy_of_named hlevel] at hautonomy
  obtain ⟨hsame, hlist⟩ := Prod.mk.inj (Except.ok.inj hautonomy)
  obtain ⟨budget, hraw, hmaximum, hcurrency, -⟩ := hstates.dict
  refine ⟨limit.maximum, limit.currency, level, ⟨⟨⟨budget, hraw, hmaximum,
    hcurrency⟩, hstates.currency_ne, hlevel⟩, hstates.decimal, ?_⟩,
    ⟨limit, hbudget, rfl, rfl⟩, hsame.symm⟩
  intro field hfield hreports
  rw [← hlist] at hvalid
  exact hvalid field hfield
    ((hasAmbiguity_reported hreported (material_ne_empty hfield)).mpr
      hreports)

/-- A status other than valid asks for clarification. -/
theorem status_cases (h : assemble py call raw = .ok intent) :
    intent.status = .valid ∨ intent.status = .needsClarification := by
  obtain ⟨reported, -, -, -, hstatus⟩ := assemble_eq_ok h
  rw [hstatus]
  exact determineStatus_cases _ _

/-- The budget of the intent is in the answer. -/
def BudgetOfAnswer (raw : PyDict) (limit : MoneyLimit) : Prop :=
  ∃ budget, raw.get "budget" = .dict budget ∧
    PyDict.get budget "maximum" = .str limit.maximum ∧
    PyDict.get budget "currency" = .str limit.currency ∧
    ∀ period, limit.period = some period →
      PyDict.get budget "period" = .str period

theorem keptPeriod_eq_some {value : PyValue} {period : String}
    (h : keptPeriod value = some period) : value = .str period := by
  cases value with
  | str s =>
      rw [keptPeriod, Option.ite_none_right_eq_some, Option.some.injEq] at h
      rw [h.2]
  | _ => cases h

theorem budget_of_answer (h : assemble py call raw = .ok intent)
    {limit : MoneyLimit} (hbudget : intent.budget = some limit) :
    BudgetOfAnswer raw limit := by
  obtain ⟨reported, -, hextract, -, -⟩ := assemble_eq_ok h
  rw [hextract] at hbudget
  obtain ⟨budget, hraw, hmaximum, hcurrency, hperiod⟩ :=
    (states_of_extractBudget hbudget).dict
  refine ⟨budget, hraw, hmaximum, hcurrency, ?_⟩
  intro period hsome
  rw [hperiod] at hsome
  exact keptPeriod_eq_some hsome

/-- An intent is valid exactly when the answer states an amount as its
maximum, a currency and an autonomy level, which are copied, and reports no
ambiguity on them.  Otherwise it asks for clarification, and it has no budget
that the answer does not have. -/
structure Gate (py : Python) (raw : PyDict) (intent : Intent) : Prop where
  valid : intent.status = .valid ↔
    ∃ maximum currency autonomy,
      Material (SpellsAmount py) raw maximum currency autonomy ∧
        (∃ limit, intent.budget = some limit ∧
          limit.maximum = maximum ∧ limit.currency = currency) ∧
        intent.autonomyLevel = autonomy
  otherwise : intent.status ≠ .valid →
    intent.status = .needsClarification
  budget : ∀ limit, intent.budget = some limit → BudgetOfAnswer raw limit

/-- A maximum that passes the checks is an amount. -/
def MaximumIsAmount (py : Python) (raw : PyDict) : Prop :=
  ∀ maximum currency autonomy,
    Material (SpellsDecimal py) raw maximum currency autonomy →
      SpellsAmount py maximum

theorem SpellsAmount.decimal {text : String} (h : SpellsAmount py text) :
    SpellsDecimal py text := by
  obtain ⟨amount, decimal, hread, -⟩ := h
  rw [SpellsDecimal, hread]
  rfl

theorem States.maximum_unique {maximum maximum' currency currency' : String}
    {autonomy autonomy' : AutonomyLevel}
    (h : States raw maximum currency autonomy)
    (h' : States raw maximum' currency' autonomy') : maximum = maximum' := by
  obtain ⟨budget, hraw, hmaximum, -⟩ := h.budget
  obtain ⟨budget', hraw', hmaximum', -⟩ := h'.budget
  rw [hraw] at hraw'
  have hsame := PyValue.dict.inj hraw'
  rw [← hsame, hmaximum] at hmaximum'
  exact PyValue.str.inj hmaximum'

/-- The gate holds exactly when a maximum that passes the checks is an
amount. -/
theorem gate_iff (h : assemble py call raw = .ok intent) :
    Gate py raw intent ↔ MaximumIsAmount py raw := by
  constructor
  · intro hgate maximum currency autonomy hmaterial
    obtain ⟨maximum', currency', autonomy', hamount, -, -⟩ :=
      hgate.valid.mp (valid_of_material h hmaterial)
    rw [States.maximum_unique hmaterial.stated hamount.stated]
    exact hamount.readable
  · intro hamounts
    refine ⟨?_, ?_, fun limit hlimit => budget_of_answer h hlimit⟩
    · constructor
      · intro hvalid
        obtain ⟨maximum, currency, autonomy, hmaterial, hcopied⟩ :=
          material_of_valid h hvalid
        exact ⟨maximum, currency, autonomy, ⟨hmaterial.stated,
          hamounts maximum currency autonomy hmaterial,
          hmaterial.unambiguous⟩, hcopied⟩
      · intro hmaterial
        obtain ⟨maximum, currency, autonomy, hmaterial, -⟩ := hmaterial
        exact valid_of_material h ⟨hmaterial.stated,
          hmaterial.readable.decimal, hmaterial.unambiguous⟩
    · intro hnot
      rcases status_cases h with hstatus | hstatus
      · exact absurd hstatus hnot
      · exact hstatus

/-- For every structured answer on which parsing completes the gate holds
exactly when a maximum that passes the checks is an amount. -/
theorem clarification_gate_iff {structured : PyValue}
    (h : parse py call structured = .ok intent) :
    ∃ raw, rawAnswer structured = .ok raw ∧
      (Gate py raw intent ↔ MaximumIsAmount py raw) := by
  unfold parse at h
  obtain ⟨raw, hraw, h⟩ := Fallible.result_bind_eq_ok.mp h
  exact ⟨raw, hraw, gate_iff h⟩

/-- The library on plain decimals and on `NaN`. -/
def readingPython : Python where
  str := fun value =>
    match value with
    | .str s => s
    | _ => "None"
  upper := fun s => s
  lower := fun s => s
  strip := fun s => s
  decimal := fun s =>
    if s = "NaN" then some ⟨.nan, s⟩
    else (Reference.decimal? s).map (fun x => ⟨.finite x, s⟩)
  floatOfInt := fun n => some (.finite n)
  floatOfStr := fun s => (Reference.decimal? s).map .finite
  int := fun _ => none
  ge := fun _ _ => none

/-- An answer with this maximum. -/
def answerOf (maximum : String) : PyDict :=
  [("budget", .dict [("maximum", .str maximum), ("currency", .str "USDC")]),
    ("autonomy_level", .str "AUTOMATIC")]

def sampleCall : ParseCall := ⟨"buy market data", "agent-1", none⟩

theorem assemble_answerOf (maximum : String) :
    ∃ intent, assemble readingPython sampleCall (answerOf maximum) =
      .ok intent :=
  ⟨_, rfl⟩

theorem material_answerOf {maximum : String}
    (hread : SpellsDecimal readingPython maximum) :
    Material (SpellsDecimal readingPython) (answerOf maximum) maximum "USDC"
      .automatic := by
  refine ⟨⟨⟨_, rfl, rfl, rfl⟩, by decide, rfl⟩, hread, ?_⟩
  intro field _ hreports
  obtain ⟨items, item, hitems, hitem, -⟩ := hreports
  rw [← Except.ok.inj hitems] at hitem
  exact List.not_mem_nil hitem

theorem sample_answer_gated :
    ∃ intent, parse readingPython sampleCall (.dict (answerOf "10")) =
        .ok intent ∧ Gate readingPython (answerOf "10") intent := by
  have hread : SpellsDecimal readingPython "10" := rfl
  obtain ⟨intent, hintent⟩ := assemble_answerOf "10"
  have hparse : parse readingPython sampleCall (.dict (answerOf "10")) =
      .ok intent := hintent
  obtain ⟨raw, hraw, hgate⟩ := clarification_gate_iff hparse
  have hsame : answerOf "10" = raw := Except.ok.inj hraw
  rw [← hsame] at hgate
  refine ⟨intent, hparse, hgate.mpr ?_⟩
  intro maximum currency autonomy hmaterial
  rw [← States.maximum_unique (material_answerOf hread).stated
    hmaterial.stated]
  exact ⟨10, "10", rfl, by decide⟩

/-- A maximum that is not a number makes a valid intent. -/
theorem nan_maximum_valid :
    ∃ intent, parse readingPython sampleCall (.dict (answerOf "NaN")) =
        .ok intent ∧ intent.status = .valid ∧
      ¬ Gate readingPython (answerOf "NaN") intent := by
  have hread : SpellsDecimal readingPython "NaN" := rfl
  obtain ⟨intent, hintent⟩ := assemble_answerOf "NaN"
  have hmaterial := material_answerOf hread
  refine ⟨intent, hintent, valid_of_material hintent hmaterial, ?_⟩
  intro hgate
  obtain ⟨amount, decimal, hamount, -⟩ :=
    (gate_iff hintent).mp hgate _ _ _ hmaterial
  cases hamount

end IntentParser
end Orvex
