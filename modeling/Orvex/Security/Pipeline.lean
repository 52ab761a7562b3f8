import Orvex.Security.Signals
import Orvex.Security.Threats

/-!
# The security pipeline

The four signals are taken one after the other, a score aggregates them and a
recommendation is made of the status of the intent, the severity of the threat
and the level of the risk.  The first two stages have a handler for what they
raise.
-/

namespace Orvex

/-! ## The risk engine -/

namespace Risk

open IntentVerifier (IntentVerificationResult Status)
open Threats (ThreatAssessment)
open Reputation (ReputationAssessment)
open Anomaly (AnomalyAssessment)

inductive Level where
  | low | medium | high | critical | insufficientEvidence
  deriving DecidableEq

structure RiskAssessment where
  score : ℚ
  level : Level
  dimensions : List (String × ℚ)
  drivers : List String
  confidence : ℚ
  evidenceIds : List String

def intentRisk : Status → ℚ
  | .fail => 19 / 20
  | .uncertain => 3 / 5
  | .insufficientEvidence => 3 / 5
  | .pass => 1 / 20

/-- `_SEVERITY_RISK`. -/
def severityRisk : Option Threats.Severity → ℚ
  | none => 0
  | some .low => 1 / 5
  | some .medium => 1 / 2
  | some .high => 17 / 20
  | some .critical => 1

/-- `_REP_RISK`. -/
def reputationRisk : Reputation.Level → ℚ
  | .low => 3 / 20
  | .medium => 2 / 5
  | .high => 9 / 10
  | .new => 1 / 2
  | .insufficientHistory => 1 / 2

/-- `_ANOMALY_RISK`. -/
def anomalyRisk : Anomaly.Level → ℚ
  | .low => 1 / 5
  | .medium => 1 / 2
  | .high => 17 / 20
  | .insufficientEvidence => 1 / 2

/-- The greatest of the dimensions blended with their mean. -/
def blend (intent threat recipient anomaly : ℚ) : ℚ :=
  round3 (7 / 10 * max (max (max intent threat) recipient) anomaly +
    3 / 10 * ((intent + threat + recipient + anomaly) / 4))

/-- The condition of the floor. -/
def blocking (status : Status) (severity : Option Threats.Severity) : Bool :=
  decide (status = .fail) || Threats.Severity.severe severity

/-- The score with its floor. -/
def scoreOf (status : Status) (severity : Option Threats.Severity)
    (reputation : Reputation.Level) (anomaly : Anomaly.Level) : ℚ :=
  let overall := blend (round3 (intentRisk status))
    (round3 (severityRisk severity)) (round3 (reputationRisk reputation))
    (round3 (anomalyRisk anomaly))
  if blocking status severity then max overall (17 / 20) else overall

def levelOfScore (score : ℚ) : Level :=
  if 4 / 5 ≤ score then
    if 9 / 10 ≤ score then .critical else .high
  else if 9 / 20 ≤ score then .medium
  else .low

/-- Nothing is known about the intent, the history and the recipient. -/
def unknown (status : Status) (quality : Reputation.DataQuality)
    (anomaly : Anomaly.Level) : Bool :=
  decide (status = .insufficientEvidence) &&
    decide (anomaly = .insufficientEvidence) &&
    decide (quality = .unavailable)

def mismatchDriver : String := "proposal does not match original intent"

def labelDriver : String := "recipient has a known risk label"

def newDriver : String := "recipient is new / lacks history"

def anomalyDriver : String := "behavioral anomaly detected"

def noDriver : String := "no significant risk drivers"

/-- The categories of a threat as one text. -/
def categoriesText (threat : ThreatAssessment) : String :=
  if threat.categories.isEmpty then "unspecified"
  else ", ".intercalate threat.categories

def driversOf (intentV : IntentVerificationResult)
    (threat : ThreatAssessment) (reputation : ReputationAssessment)
    (anomaly : AnomalyAssessment) : List String :=
  (if intentV.status = .fail then [mismatchDriver] else []) ++
    (if threat.detected && Threats.Severity.severe threat.severity then
      ["threat detected: " ++ categoriesText threat]
    else []) ++
    (if reputation.level = .high then [labelDriver]
    else if reputation.level = .new ∨
        reputation.level = .insufficientHistory then [newDriver]
    else []) ++
    if anomaly.level = .high then [anomalyDriver] else []

/-- `RiskEngine.aggregate(...)`. -/
def aggregate (intentV : IntentVerificationResult)
    (threat : ThreatAssessment) (reputation : ReputationAssessment)
    (anomaly : AnomalyAssessment) : RiskAssessment :=
  let overall := scoreOf intentV.status threat.severity reputation.level
    anomaly.level
  let drivers := driversOf intentV threat reputation anomaly
  { score := overall
    level :=
      if unknown intentV.status reputation.dataQuality anomaly.level then
        .insufficientEvidence
      else levelOfScore overall
    dimensions :=
      [("intent_risk", round3 (intentRisk intentV.status)),
        ("threat_risk", round3 (severityRisk threat.severity)),
        ("recipient_risk", round3 (reputationRisk reputation.level)),
        ("anomaly_risk", round3 (anomalyRisk anomaly.level))]
    drivers := if drivers.isEmpty then [noDriver] else drivers
    confidence := 4 / 5
    evidenceIds := (intentV.evidenceIds ++ threat.evidenceIds).eraseDups }

end Risk

/-! ## The overall assessment -/

namespace SecurityPipeline

open IntentVerifier (IntentVerificationResult Status)
open Threats (ThreatAssessment)
open Reputation (ReputationAssessment)
open Anomaly (AnomalyAssessment)
open Risk (RiskAssessment)

inductive OverallStatus where
  | lowRisk | mediumRisk | highRisk | insufficientEvidence
  deriving DecidableEq

inductive Handling where
  | proceedCandidate | monitor | review | denyRecommended
  deriving DecidableEq

structure OverallAssessment where
  status : OverallStatus
  confidence : PyFloat
  summary : String
  recommendedHandling : Handling

def statusText : Status → String
  | .pass => "PASS"
  | .fail => "FAIL"
  | .uncertain => "UNCERTAIN"
  | .insufficientEvidence => "INSUFFICIENT_EVIDENCE"

def severityText : Option Threats.Severity → String
  | none => "None"
  | some severity => severity.text

def overallStatus : Risk.Level → OverallStatus
  | .low => .lowRisk
  | .medium => .mediumRisk
  | .high => .highRisk
  | .critical => .highRisk
  | .insufficientEvidence => .insufficientEvidence

/-- Neither the reputation nor a baseline could be established. -/
def blind (quality : Reputation.DataQuality) (anomaly : Anomaly.Level) :
    Bool :=
  decide (quality = .unavailable) &&
    decide (anomaly = .insufficientEvidence)

/-- The recommendation, in the order of its checks. -/
def handlingOf (status : Status) (severity : Option Threats.Severity)
    (risk : Risk.Level) (isBlind : Bool) : Handling :=
  if status = .fail ∨ Threats.Severity.severe severity = true then
    .denyRecommended
  else if status = .uncertain ∨ status = .insufficientEvidence then .review
  else if risk = .high ∨ risk = .critical ∨ risk = .insufficientEvidence ∨
      risk = .medium then .review
  else if isBlind then .review
  else .proceedCandidate

/-- `text.capitalize()`. -/
def capitalize (py : Python) (text : String) : String :=
  py.upper (String.ofList (text.toList.take 1)) ++
    py.lower (String.ofList (text.toList.drop 1))

def noSignals : String := "no blocking security signals"

def summaryOf (py : Python) (intentV : IntentVerificationResult)
    (threat : ThreatAssessment) : String :=
  let bits :=
    (if intentV.status ≠ .pass then
        ["intent " ++ statusText intentV.status]
      else []) ++
      if threat.detected then
        ["threat " ++ severityText threat.severity]
      else []
  capitalize py (if bits.isEmpty then noSignals else "; ".intercalate bits)

/-- `_overall(...)`. -/
def overall (py : Python) (intentV : IntentVerificationResult)
    (threat : ThreatAssessment) (risk : RiskAssessment)
    (reputation : ReputationAssessment) (anomaly : AnomalyAssessment) :
    OverallAssessment where
  status := overallStatus risk.level
  confidence :=
    ((intentV.confidence.add threat.confidence).add
      (.finite risk.confidence)).onFinite (fun x => round3 (x / 3))
  summary := summaryOf py intentV threat
  recommendedHandling := handlingOf intentV.status threat.severity risk.level
    (blind reputation.dataQuality anomaly.level)

/-! ## The explanation -/

def riskText : Risk.Level → String
  | .low => "LOW"
  | .medium => "MEDIUM"
  | .high => "HIGH"
  | .critical => "CRITICAL"
  | .insufficientEvidence => "INSUFFICIENT_EVIDENCE"

def reputationText : Reputation.Level → Option String
  | .new => some
      "Recipient is new with no prior history (new is not the same as malicious)."
  | .insufficientHistory => some
      "Insufficient recipient history to assess reputation."
  | .high => some "Recipient carries a known risk label."
  | _ => none

def anomalyText : Anomaly.Level → Option String
  | .medium => some "MEDIUM"
  | .high => some "HIGH"
  | _ => none

/-- What the explanation numbers. -/
def details (py : Python) (intentV : IntentVerificationResult)
    (threat : ThreatAssessment) (reputation : ReputationAssessment)
    (anomaly : AnomalyAssessment) : List String :=
  (if intentV.status ≠ .pass then
      intentV.reasons.map (fun reason => "Intent: " ++ reason)
    else []) ++
    (if threat.detected then
      [py.strip ("Threat (" ++ severityText threat.severity ++ ", " ++
        Risk.categoriesText threat ++ "). " ++ py.strip threat.explanation)]
    else []) ++
    ((reputationText reputation.level).toList.map
      (fun text => "Reputation: " ++ text)) ++
    (anomalyText anomaly.level).toList.map (fun level =>
      "Anomaly (" ++ level ++ "): " ++
        "; ".intercalate (anomaly.signals.map Signal.description))

/-- `ExplanationEngine.explain(...)`. -/
def explain (py : Python) (intentV : IntentVerificationResult)
    (threat : ThreatAssessment) (reputation : ReputationAssessment)
    (anomaly : AnomalyAssessment) (risk : RiskAssessment) : String :=
  let numbered :=
    (details py intentV threat reputation anomaly).zipIdx.map
      (fun detail => toString (detail.2 + 1) ++ ". " ++ detail.1)
  "\n".intercalate
    (["Overall risk: " ++ riskText risk.level ++ "."] ++ numbered ++
      ["Risk drivers: " ++ "; ".intercalate risk.drivers ++ "."])

/-! ## The stages -/

/-- What the provider gives to its two callers. -/
structure Provider where
  alignment : Except PyException PyDict
  threats : Except PyException PyDict

structure AnalyzeRequest where
  intent : PyDict
  proposal : PyDict
  trajectory : List PyDict
  evidence : List PyDict
  recipientContext : Option PyDict
  historicalBehavior : Option PyDict

structure SecurityAssessment where
  proposalId : String
  intentVerification : IntentVerificationResult
  threatAssessment : ThreatAssessment
  reputationAssessment : ReputationAssessment
  anomalyAssessment : AnomalyAssessment
  riskAssessment : RiskAssessment
  overallAssessment : OverallAssessment
  explanation : String
  evidenceIds : List String

def intentUnavailable : String :=
  "Intent verification unavailable; treated as uncertain."

/-- What the handler makes of an intent verification that raised. -/
def degradedIntent : IntentVerificationResult where
  status := .uncertain
  intentMatch := false
  score := .finite 0
  dimensions := []
  violations := []
  reasons := [intentUnavailable]
  evidenceIds := []
  confidence := .finite (3 / 10)

def threatsUnavailable : String := "Threat analysis unavailable."

/-- What the handler makes of a threat analysis that raised. -/
def degradedThreat : ThreatAssessment where
  detected := false
  severity := none
  categories := []
  confidence := .finite 0
  evidenceIds := []
  trajectoryEventIds := []
  explanation := threatsUnavailable
  recommendedHandling := .review

/-- `_verify_intent`. -/
def verifyIntent (py : AnalysisPython) (provider : Option Provider)
    (req : AnalyzeRequest) : IntentVerificationResult :=
  match IntentVerifier.verify py.toPython (provider.map Provider.alignment)
      req.intent req.proposal req.trajectory with
  | .ok result => result
  | .error _ => degradedIntent

/-- `_threat_analysis`. -/
def threatAnalysis (py : AnalysisPython) (provider : Option Provider)
    (req : AnalyzeRequest) : ThreatAssessment :=
  match Threats.analyze py (provider.map Provider.threats) req.trajectory
      req.evidence with
  | .ok result => result
  | .error _ => degradedThreat

/-- `_reputation_node`. -/
def reputationNode (py : AnalysisPython) (req : AnalyzeRequest) :
    Except PyException ReputationAssessment :=
  Reputation.analyze py.toPython req.recipientContext
    ((req.proposal.get "recipient").orElse (.dict []))

/-- `_anomaly_node`. -/
def anomalyNode (py : AnalysisPython) (req : AnalyzeRequest) :
    Except PyException AnomalyAssessment :=
  Anomaly.analyze py req.proposal req.historicalBehavior

/-- `_assemble` of what the stages found. -/
def assemble (py : AnalysisPython) (proposal : PyDict)
    (intentV : IntentVerificationResult) (threat : ThreatAssessment)
    (reputation : ReputationAssessment) (anomaly : AnomalyAssessment) :
    Except PyException SecurityAssessment := do
  let risk := Risk.aggregate intentV threat reputation anomaly
  let proposalId ←
    (proposal.getD "proposal_id" (.str "unknown")).requireText
  return {
    proposalId := proposalId
    intentVerification := intentV
    threatAssessment := threat
    reputationAssessment := reputation
    anomalyAssessment := anomaly
    riskAssessment := risk
    overallAssessment := overall py.toPython intentV threat risk reputation
      anomaly
    explanation := explain py.toPython intentV threat reputation anomaly risk
    evidenceIds := (intentV.evidenceIds ++ threat.evidenceIds ++
      risk.evidenceIds).eraseDups }

/-- `SecurityPipeline.analyze`. -/
def analyze (py : AnalysisPython) (provider : Option Provider)
    (req : AnalyzeRequest) : Except PyException SecurityAssessment := do
  let intentV := verifyIntent py provider req
  let threat := threatAnalysis py provider req
  let reputation ← reputationNode py req
  let anomaly ← anomalyNode py req
  assemble py req.proposal intentV threat reputation anomaly

end SecurityPipeline
end Orvex
