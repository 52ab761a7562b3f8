import Orvex.Security.IntentVerifier

/-!
# Reputation and anomalies

The recipient context and the historical behaviour are dictionaries that the
caller supplies.  Their values are compared as they come, so a value of
another type raises.
-/

namespace Orvex

structure Signal where
  type : String
  severity : Option String
  description : String

/-! ## Reputation -/

namespace Reputation

inductive Level where
  | low | medium | high | new | insufficientHistory
  deriving DecidableEq

inductive DataQuality where
  | good | partially | poor | unavailable
  deriving DecidableEq

structure ReputationAssessment where
  entity : PyDict
  score : Option ℚ
  level : Level
  signals : List Signal
  dataQuality : DataQuality
  evidenceIds : List String
  confidence : ℚ

/-- `ReputationAssessment(entity=..., ...)`, which validates the entity. -/
def assessment (entity : PyValue) (score : Option ℚ) (level : Level)
    (signals : List Signal) (dataQuality : DataQuality) (confidence : ℚ) :
    Except PyException ReputationAssessment := do
  let fields ← entity.requireDict
  return {
    entity := fields
    score := score
    level := level
    signals := signals
    dataQuality := dataQuality
    evidenceIds := []
    confidence := confidence }

def noContext : Signal :=
  ⟨"NO_CONTEXT", none, "No recipient context supplied."⟩

def newRecipient : Signal :=
  ⟨"NEW_RECIPIENT", none, "No prior history observed."⟩

/-- `age_days and age_days > 180`. -/
def longLived (ageDays : PyValue) : Except PyException Bool :=
  if ageDays.truthy then ageDays.exceeds 180 else .ok false

/-- `ReputationAnalyzer.analyze(recipient_context, entity)`. -/
def analyze (py : Python) (context : Option PyDict) (entity : PyValue) :
    Except PyException ReputationAssessment := do
  let entity := entity.orElse (.dict [])
  let fields := context.getD []
  if fields.isEmpty then
    assessment entity none .insufficientHistory [noContext] .unavailable
      (3 / 10)
  else
    let ageDays := fields.get "address_age_days"
    let txCount := fields.getD "transaction_count" (.int 0)
    let knownLabels :=
      (fields.getD "known_labels" (.list [])).orElse (.list [])
    let riskLabels :=
      (fields.getD "risk_labels" (.list [])).orElse (.list [])
    let prior := fields.getD "prior_agent_interactions" (.int 0)
    if riskLabels.truthy then
      assessment entity (some (1 / 10)) .high
        [⟨"KNOWN_RISK_LABEL", some "HIGH", py.str riskLabels⟩] .good
        (17 / 20)
    else if (ageDays.isNone || ageDays.isZero) && txCount.isZero &&
        !knownLabels.truthy && prior.isZero then
      assessment entity none .new [newRecipient] .partially (1 / 2)
    else
      let old ← longLived ageDays
      let met ← prior.exceeds 0
      let score : ℚ := 1 / 2 + (if old then 1 / 5 else 0) +
        (if met then 1 / 5 else 0) +
        if knownLabels.truthy then 1 / 10 else 0
      let signals :=
        (if old then
            [⟨"LONG_LIVED_ADDRESS", some "LOW",
              py.str ageDays ++ "d old"⟩]
          else []) ++
          (if met then
            [⟨"PRIOR_INTERACTION", some "LOW", py.str prior⟩]
          else []) ++
          if knownLabels.truthy then
            [⟨"KNOWN_ENTITY", some "LOW", py.str knownLabels⟩]
          else []
      assessment entity (some (round3 (min score 1)))
        (if 7 / 10 ≤ score then .low else .medium) signals .good (7 / 10)

end Reputation

/-! ## Anomalies -/

namespace Anomaly

inductive Level where
  | low | medium | high | insufficientEvidence
  deriving DecidableEq

structure AnomalyAssessment where
  score : Option ℚ
  level : Level
  signals : List Signal
  baselineReference : Option PyDict
  confidence : ℚ
  evidenceIds : List String

def noBaseline : Signal :=
  ⟨"NO_BASELINE", none, "No historical behavior supplied."⟩

def withinBaseline : Signal :=
  ⟨"WITHIN_BASELINE", none, "No significant deviation."⟩

def recipientNovelty : Signal :=
  ⟨"RECIPIENT_NOVELTY", none, "Recipient not seen before."⟩

/-- A score with the signal that raised it. -/
abbrev Finding := Option (ℚ × Signal)

/-- The deviation of an amount from the median. -/
def amountFinding (py : AnalysisPython) (amount median : Option (ℚ × String)) :
    Except PyException Finding :=
  match amount, median with
  | some (value, _), some (middle, _) =>
      if 0 < middle then
        match py.ratio value middle with
        | some ratio =>
            let signal : Signal :=
              ⟨"AMOUNT_DEVIATION", none, py.fixed1 ratio ++ "x median"⟩
            .ok (if ratio.ge (.finite 5) then some (4 / 5, signal)
              else if ratio.ge (.finite 3) then some (1 / 2, signal)
              else none)
        | none => .error .overflowError
      else .ok none
  | _, _ => .ok none

/-- The members of `set(values)`, which have to be hashable. -/
def hashableMembers (values : PyValue) :
    Except PyException (List PyValue) := do
  let members ← values.members
  if members.all PyValue.hashable then return members
  else throw .typeError

/-- A recipient that is not among the known ones. -/
def recipientFinding (recipient : PyDict) (known : List PyValue) :
    Except PyException Finding :=
  let rid := (recipient.get "identifier").orElse (recipient.get "address")
  if rid.truthy && !known.isEmpty then
    if rid.hashable then
      .ok (if known.any rid.same then none
        else some (1 / 2, recipientNovelty))
    else .error .typeError
  else .ok none

/-- Five times as many transactions as usual. -/
def frequencyFinding (py : AnalysisPython) (recent typical : PyValue) :
    Finding :=
  match recent.number, typical.number with
  | some count, some usual =>
      if PyFloat.lt (.finite 0) usual &&
          count.ge (usual.onFinite (fun x => x * 5)) then
        some (7 / 10, ⟨"FREQUENCY_SPIKE", none,
          py.str recent ++ " vs typical " ++ py.str typical⟩)
      else none
  | _, _ => none

/-- The level of a score. -/
def levelOf (score : ℚ) : Level :=
  if 7 / 10 ≤ score then .high
  else if 2 / 5 ≤ score then .medium
  else .low

/-- The highest score of the findings. -/
def scoreOf (findings : List (ℚ × Signal)) : ℚ :=
  (findings.map Prod.fst).foldl max 0

/-- `AnomalyDetector.analyze(proposal, historical_behavior)`. -/
def analyze (py : AnalysisPython) (proposal : PyDict)
    (historicalBehavior : Option PyDict) :
    Except PyException AnomalyAssessment := do
  let history := historicalBehavior.getD []
  if history.isEmpty then
    return {
      score := none
      level := .insufficientEvidence
      signals := [noBaseline]
      baselineReference := none
      confidence := 3 / 10
      evidenceIds := [] }
  else
    let amount := IntentVerifier.toDecimal py.toPython
      ((← proposal.getDict "amount").get "value")
    let median := IntentVerifier.toDecimal py.toPython
      (history.get "median_amount")
    let deviation ← amountFinding py amount median
    let known ← hashableMembers
      ((history.getD "known_recipients" (.list [])).orElse (.list []))
    let recipient ← proposal.getDict "recipient"
    let novelty ← recipientFinding recipient known
    let spike := frequencyFinding py (history.get "recent_tx_count")
      (history.get "typical_daily_tx")
    let findings := deviation.toList ++ novelty.toList ++ spike.toList
    let score := scoreOf findings
    return {
      score := some (round3 score)
      level := levelOf score
      signals :=
        if findings.isEmpty then [withinBaseline]
        else findings.map Prod.snd
      baselineReference := some
        [("window", history.getD "window" (.str "unknown")),
          ("transactions_observed", history.get "transactions_observed")]
      confidence := 3 / 4
      evidenceIds := [] }

end Anomaly
end Orvex
