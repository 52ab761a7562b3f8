import Orvex.Security.IntentVerifier

/-!
# The threat detector

A scan of the trajectory and of the untrusted evidence finds categories.  The
answer of a model may add categories and raise the severity; it is not asked
for when the scan already found a severe threat.
-/

namespace Orvex
namespace Threats

open Retrieval (analyzeTrajectory)

inductive Severity where
  | low | medium | high | critical
  deriving DecidableEq

namespace Severity

def text : Severity → String
  | .low => "LOW"
  | .medium => "MEDIUM"
  | .high => "HIGH"
  | .critical => "CRITICAL"

/-- `_SEVERITY_ORDER`. -/
def order : Option Severity → ℕ
  | none => 0
  | some .low => 1
  | some .medium => 2
  | some .high => 3
  | some .critical => 4

/-- The severity that a value names. -/
def named : PyValue → Option Severity
  | .str s =>
      if s = "LOW" then some .low
      else if s = "MEDIUM" then some .medium
      else if s = "HIGH" then some .high
      else if s = "CRITICAL" then some .critical
      else none
  | _ => none

/-- `severity in ("HIGH", "CRITICAL")`. -/
def severe (severity : Option Severity) : Bool :=
  decide (severity = some .high) || decide (severity = some .critical)

end Severity

/-- `_max_severity(a, b)`. -/
def maxSeverity (a b : Option Severity) : Option Severity :=
  if Severity.order b ≤ Severity.order a then a else b

/-- The severity of an answer, which is looked up in a table. -/
def answeredSeverity (value : PyValue) :
    Except PyException (Option Severity) :=
  if value.hashable then .ok (Severity.named value) else .error .typeError

inductive Handling where
  | monitor | review | denyRecommended
  deriving DecidableEq

structure ThreatAssessment where
  detected : Bool
  severity : Option Severity
  categories : List String
  confidence : PyFloat
  evidenceIds : List String
  trajectoryEventIds : List String
  explanation : String
  recommendedHandling : Handling

/-! ## The deterministic scan -/

def injectionPatterns : List String :=
  ["ignore (?:all )?(?:previous|prior) instructions",
    "disregard (?:the )?(?:above|previous)",
    "send (?:the )?payment to",
    "change (?:the )?(?:payment )?(?:address|recipient|wallet)",
    "new (?:payment )?(?:address|wallet)",
    "you are now",
    "system[: ]",
    "reveal (?:the )?(?:api key|private key|secret|seed)",
    "send (?:your|the) (?:api key|private key|seed)",
    "(?:private key|api key|seed phrase|secret key|wallet seed)",
    "(?:reveal|return|share|provide|send)\\b.\x7b0,30\x7d\\b" ++
      "(?:key|seed|secret|password|credential)"]

def paymentRedirection : String := "PAYMENT_REDIRECTION"

def credentialRequest : String := "CREDENTIAL_REQUEST"

def indirectPromptInjection : String := "INDIRECT_PROMPT_INJECTION"

def amountManipulation : String := "AMOUNT_MANIPULATION"

/-- What a match of the pattern is counted as. -/
def patternCategories (pattern : String) : List String :=
  [indirectPromptInjection] ++
    (if ["payment", "recipient", "wallet", "address"].any
        (IntentVerifier.containsText pattern) then [paymentRedirection]
    else []) ++
    if ["key", "secret", "seed"].any
        (IntentVerifier.containsText pattern) then [credentialRequest]
    else []

/-- The source of an evidence item, if it is a dictionary. -/
def evidenceSource (item : PyDict) : PyDict :=
  match item.getD "source" (.dict []) with
  | .dict fields => fields
  | _ => []

/-- The text of an evidence item that is scanned. -/
def evidenceText (py : AnalysisPython) (item : PyDict) : String :=
  py.lower (py.str (item.getD "claim" (.str "")) ++ " " ++
    py.str (item.getD "raw_reference" (.str "")))

/-- The patterns found in an evidence item that is not trusted. -/
def matched (py : AnalysisPython) (item : PyDict) : List String :=
  if ((evidenceSource item).get "trust_level").isText "UNTRUSTED" then
    injectionPatterns.filter (fun pattern =>
      py.search pattern (evidenceText py item))
  else []

def redirectedText : String :=
  "Recipient changed immediately after untrusted external content."

def amountText : String :=
  "Amount changed after untrusted external content."

def patternText (pattern : String) : String :=
  "Untrusted content matched injection pattern: '" ++ pattern ++ "'."

/-- `categories & ("PAYMENT_REDIRECTION", "CREDENTIAL_REQUEST")`. -/
def severeCategory (categories : List String) : Bool :=
  decide (paymentRedirection ∈ categories) ||
    decide (credentialRequest ∈ categories)

structure Scan where
  detected : Bool
  severity : Option Severity
  categories : List String
  confidence : ℚ
  evidenceIds : List PyValue
  trajectoryEventIds : List PyValue
  explanation : String

/-- The severity of what a scan found. -/
def scannedSeverity (categories : List String) : Option Severity :=
  if categories.isEmpty then none
  else if severeCategory categories then some .high
  else some .medium

/-- The categories that the trajectory and the evidence give. -/
def foundCategories (py : AnalysisPython)
    (insights : Retrieval.TrajectoryInsights) (evidence : List PyDict) :
    List String :=
  (if insights.recipientChangeAfterUntrusted then
      [paymentRedirection, indirectPromptInjection]
    else []) ++
    (if insights.amountChangeAfterUntrusted then [amountManipulation]
    else []) ++
    evidence.flatMap (fun item =>
      (matched py item).flatMap patternCategories)

/-- `sorted(categories)` of a set. -/
def sortedSet (categories : List String) : List String :=
  categories.dedup.insertionSort (fun a b => a ≤ b)

def deterministicScan (py : AnalysisPython)
    (trajectory evidence : List PyDict) : Except PyException Scan := do
  let insights ← analyzeTrajectory py.toPython trajectory
  let categories := foundCategories py insights evidence
  let evidenceIds := evidence.flatMap (fun item =>
    (matched py item).map (fun _ => item.get "evidence_id"))
  let trajectoryIds :=
    if insights.recipientChangeAfterUntrusted then
      insights.untrustedEventIds
    else []
  let explanation :=
    (if insights.recipientChangeAfterUntrusted then [redirectedText]
      else []) ++
      (if insights.amountChangeAfterUntrusted then [amountText] else []) ++
      evidence.flatMap (fun item => (matched py item).map patternText)
  return {
    detected := !categories.isEmpty
    severity := scannedSeverity categories
    categories := sortedSet categories
    confidence := if categories.isEmpty then 1 / 2 else 9 / 10
    evidenceIds := evidenceIds.filter PyValue.truthy
    trajectoryEventIds := trajectoryIds.filter PyValue.truthy
    explanation := " ".intercalate explanation }

/-! ## The merge with an answer -/

/-- The variables of `_merge` after the answer was read. -/
structure Merged where
  categories : List String
  explanation : String
  confidence : PyFloat
  severity : Option Severity
  reported : Bool

/-- What a scan says when there is no answer. -/
def unanswered (det : Scan) : Merged where
  categories := det.categories
  explanation := det.explanation
  confidence := .finite det.confidence
  severity := det.severity
  reported := false

def answered (py : AnalysisPython) (det : Scan) (answer : PyDict) :
    Except PyException Merged := do
  let members ← (answer.getD "categories" (.list [])).members
  let told := answer.get "explanation"
  let confidence ←
    (answer.getD "confidence" (.float (.finite 0))).toFloat py.toPython
  let severity ← answeredSeverity (answer.get "severity")
  return {
    categories := det.categories ++
      (members.filter PyValue.truthy).map py.str
    explanation :=
      if told.truthy then
        py.strip (det.explanation ++ " " ++ py.str told)
      else det.explanation
    confidence := PyFloat.max (.finite det.confidence) confidence
    severity := maxSeverity det.severity severity
    reported := (answer.get "detected").truthy }

/-- The handling that a severity recommends. -/
def handlingOf (severity : Option Severity) : Handling :=
  if Severity.severe severity then .denyRecommended
  else if severity = some .medium then .review
  else .monitor

def nothingDetected : String := "No manipulation detected."

/-- The assessment of what was merged. -/
def conclude (det : Scan) (merged : Merged) :
    Except PyException ThreatAssessment := do
  let detected := !merged.categories.isEmpty || merged.reported
  let severity :=
    if severeCategory merged.categories then
      maxSeverity merged.severity (some .high)
    else merged.severity
  let evidenceIds ← IntentVerifier.requireTexts det.evidenceIds
  let trajectoryIds ← IntentVerifier.requireTexts det.trajectoryEventIds
  return {
    detected := detected
    severity := if detected then severity else none
    categories := sortedSet merged.categories
    confidence := merged.confidence
    evidenceIds := evidenceIds
    trajectoryEventIds := trajectoryIds
    explanation :=
      if merged.explanation ≠ "" then merged.explanation
      else if detected then "" else nothingDetected
    recommendedHandling := handlingOf severity }

/-- `_merge(det, llm)`; an empty answer counts as none. -/
def merge (py : AnalysisPython) (det : Scan) (llm : Option PyDict) :
    Except PyException ThreatAssessment :=
  match llm with
  | none => conclude det (unanswered det)
  | some answer =>
      if answer.isEmpty then conclude det (unanswered det)
      else (answered py det answer).bind (conclude det)

/-- The answer of the model, which is not asked after a severe scan. -/
def llmAnswer (provider : Option (Except PyException PyDict)) (det : Scan) :
    Option PyDict :=
  if Severity.severe det.severity then none
  else
    match provider with
    | some (.ok answer) => some answer
    | _ => none

/-- The detector with what its provider would answer, if it has one. -/
def analyze (py : AnalysisPython)
    (provider : Option (Except PyException PyDict))
    (trajectory evidence : List PyDict) :
    Except PyException ThreatAssessment := do
  let det ← deterministicScan py trajectory evidence
  merge py det (llmAnswer provider det)

end Threats
end Orvex
