import Orvex.Foundation.Action
import Orvex.Security.Pipeline
import Orvex.Security.Verdicts

/-!
# The overall recommendation

The recommendation is made of the severity of the threat and of the level of
the risk, not of the handling that the threat assessment recommends.  Where
the other signals are good, a threat below HIGH is averaged away, and so is a
threat analysis that failed.
-/

namespace Orvex
namespace SecurityPipeline


/-! ## When the pipeline proceeds -/

/-- The risk of an intent that passes is low. -/
def staysLow (reputation : Reputation.Level) (anomaly : Anomaly.Level) :
    Option Threats.Severity → Bool
  | none => reputation ≠ .high && anomaly ≠ .high
  | some .low => reputation ≠ .high && anomaly ≠ .high
  | some .medium =>
      (reputation = .low && anomaly ≠ .high) ||
        (reputation ≠ .high && anomaly = .low)
  | some .high => false
  | some .critical => false

theorem level_low_iff {score : ℚ} :
    Risk.levelOfScore score = .low ↔ score < 9 / 20 := by
  unfold Risk.levelOfScore
  split_ifs with hhigh hcritical hmedium
  · exact iff_of_false (by decide) (by linarith)
  · exact iff_of_false (by decide) (by linarith)
  · exact iff_of_false (by decide) (by linarith)
  · exact iff_of_true rfl (by linarith)

theorem le_round3 {x : ℚ} (h : 9 / 20 ≤ x) : 9 / 20 ≤ round3 x := by
  have hfloor : (450 : ℤ) ≤ ⌊x * 1000 + 1 / 2⌋ := by
    apply Int.le_floor.mpr
    push_cast
    linarith
  have hcast : (450 : ℚ) ≤ ⌊x * 1000 + 1 / 2⌋ := by
    exact_mod_cast hfloor
  unfold round3
  linarith

theorem round3_lt {x : ℚ} (h : x < 4495 / 10000) : round3 x < 9 / 20 := by
  have hfloor : ⌊x * 1000 + 1 / 2⌋ < (450 : ℤ) := by
    apply Int.floor_lt.mpr
    push_cast
    linarith
  have hcast : (⌊x * 1000 + 1 / 2⌋ : ℚ) < 450 := by
    exact_mod_cast hfloor
  unfold round3
  linarith

/-- Four dimensions that are small enough together give a low score. -/
theorem blend_lt {intent threat recipient anomaly : ℚ}
    (hintent : intent ≤ 1 / 2) (hthreat : threat ≤ 1 / 2)
    (hrecipient : recipient ≤ 1 / 2) (hanomaly : anomaly ≤ 1 / 2)
    (hsum : intent + threat + recipient + anomaly ≤ 5 / 4) :
    Risk.blend intent threat recipient anomaly < 9 / 20 := by
  have hmax : max (max (max intent threat) recipient) anomaly ≤ 1 / 2 :=
    max_le (max_le (max_le hintent hthreat) hrecipient) hanomaly
  apply round3_lt
  linarith

/-- A great dimension, or a sum that is great enough, gives a score that is
not low. -/
theorem le_blend {intent threat recipient anomaly greatest : ℚ}
    (hmax : greatest ≤ max (max (max intent threat) recipient) anomaly)
    (hsum : 9 / 20 ≤ 7 / 10 * greatest +
      3 / 10 * ((intent + threat + recipient + anomaly) / 4)) :
    9 / 20 ≤ Risk.blend intent threat recipient anomaly := by
  apply le_round3
  linarith

theorem round3_reputationRisk (reputation : Reputation.Level) :
    round3 (Risk.reputationRisk reputation) =
      Risk.reputationRisk reputation := by
  cases reputation <;> norm_num [round3, Risk.reputationRisk]

theorem round3_anomalyRisk (anomaly : Anomaly.Level) :
    round3 (Risk.anomalyRisk anomaly) = Risk.anomalyRisk anomaly := by
  cases anomaly <;> norm_num [round3, Risk.anomalyRisk]

theorem round3_severityRisk (severity : Option Threats.Severity) :
    round3 (Risk.severityRisk severity) = Risk.severityRisk severity := by
  cases severity with
  | none => norm_num [round3, Risk.severityRisk]
  | some severity => cases severity <;> norm_num [round3, Risk.severityRisk]

/-- With an intent that passes, the score of a threat that is not severe. -/
theorem score_pass {severity : Option Threats.Severity}
    (hsevere : Threats.Severity.severe severity = false)
    (reputation : Reputation.Level) (anomaly : Anomaly.Level) :
    Risk.scoreOf .pass severity reputation anomaly =
      Risk.blend (1 / 20) (Risk.severityRisk severity)
        (Risk.reputationRisk reputation) (Risk.anomalyRisk anomaly) := by
  have hblocking : Risk.blocking .pass severity = false := by
    rw [Risk.blocking, hsevere]
    rfl
  have hintent : round3 (Risk.intentRisk .pass) = 1 / 20 := by
    norm_num [round3, Risk.intentRisk]
  rw [Risk.scoreOf, hblocking, hintent, round3_severityRisk,
    round3_reputationRisk, round3_anomalyRisk]
  rfl

theorem score_severe {severity : Option Threats.Severity}
    (hsevere : Threats.Severity.severe severity = true)
    (status : IntentVerifier.Status)
    (reputation : Reputation.Level) (anomaly : Anomaly.Level) :
    17 / 20 ≤ Risk.scoreOf status severity reputation anomaly := by
  have hblocking : Risk.blocking status severity = true := by
    rw [Risk.blocking, hsevere, Bool.or_true]
  rw [Risk.scoreOf, hblocking]
  exact le_max_right _ _

theorem reputationRisk_nonneg (reputation : Reputation.Level) :
    0 ≤ Risk.reputationRisk reputation := by
  cases reputation <;> norm_num [Risk.reputationRisk]

theorem anomalyRisk_nonneg (anomaly : Anomaly.Level) :
    0 ≤ Risk.anomalyRisk anomaly := by
  cases anomaly <;> norm_num [Risk.anomalyRisk]

theorem reputationRisk_cases (reputation : Reputation.Level) :
    reputation = .high ∨ reputation = .low ∨
      reputation ≠ .high ∧ reputation ≠ .low ∧
        2 / 5 ≤ Risk.reputationRisk reputation ∧
          Risk.reputationRisk reputation ≤ 1 / 2 := by
  cases reputation <;> norm_num [Risk.reputationRisk] <;> decide

theorem anomalyRisk_cases (anomaly : Anomaly.Level) :
    anomaly = .high ∨ anomaly = .low ∨
      anomaly ≠ .high ∧ anomaly ≠ .low ∧
        Risk.anomalyRisk anomaly = 1 / 2 := by
  cases anomaly <;> norm_num [Risk.anomalyRisk] <;> decide

/-- A bad reputation or an anomaly keeps the score up. -/
theorem not_low_of_high {threat : ℚ} (hthreat : 0 ≤ threat)
    {reputation : Reputation.Level} {anomaly : Anomaly.Level}
    (h : reputation = .high ∨ anomaly = .high) :
    9 / 20 ≤ Risk.blend (1 / 20) threat (Risk.reputationRisk reputation)
      (Risk.anomalyRisk anomaly) := by
  have hreputation := reputationRisk_nonneg reputation
  have hanomaly := anomalyRisk_nonneg anomaly
  rcases h with hhigh | hhigh
  · apply @le_blend _ _ _ _ (Risk.reputationRisk reputation)
    · exact (le_max_right _ _).trans (le_max_left _ _)
    · rw [hhigh]
      norm_num [Risk.reputationRisk]
      linarith
  · apply @le_blend _ _ _ _ (Risk.anomalyRisk anomaly)
    · exact le_max_right _ _
    · rw [hhigh]
      norm_num [Risk.anomalyRisk]
      linarith

/-- A slight threat with no high signal. -/
theorem low_of_slight {threat : ℚ} (hthreat : threat ≤ 1 / 5)
    {reputation : Reputation.Level} {anomaly : Anomaly.Level}
    (hreputation : reputation ≠ .high) (hanomaly : anomaly ≠ .high) :
    Risk.blend (1 / 20) threat (Risk.reputationRisk reputation)
      (Risk.anomalyRisk anomaly) < 9 / 20 := by
  have hrecipient : Risk.reputationRisk reputation ≤ 1 / 2 := by
    rcases reputationRisk_cases reputation with hhigh | hlow | hother
    · exact absurd hhigh hreputation
    · rw [hlow]
      norm_num [Risk.reputationRisk]
    · exact hother.2.2.2
  have hbehavior : Risk.anomalyRisk anomaly ≤ 1 / 2 := by
    rcases anomalyRisk_cases anomaly with hhigh | hlow | hother
    · exact absurd hhigh hanomaly
    · rw [hlow]
      norm_num [Risk.anomalyRisk]
    · exact hother.2.2.le
  apply blend_lt
  · norm_num
  · linarith
  · exact hrecipient
  · exact hbehavior
  · linarith

/-- A medium threat with no high signal. -/
theorem medium_low_iff {reputation : Reputation.Level}
    {anomaly : Anomaly.Level} (hreputation : reputation ≠ .high)
    (hanomaly : anomaly ≠ .high) :
    Risk.blend (1 / 20) (1 / 2) (Risk.reputationRisk reputation)
        (Risk.anomalyRisk anomaly) < 9 / 20 ↔
      reputation = .low ∨ anomaly = .low := by
  rcases reputationRisk_cases reputation with hhigh | hlow | hother
  · exact absurd hhigh hreputation
  · refine iff_of_true ?_ (Or.inl hlow)
    rcases anomalyRisk_cases anomaly with hhigh' | hlow' | hother'
    · exact absurd hhigh' hanomaly
    · rw [hlow, hlow']
      apply blend_lt <;> norm_num [Risk.reputationRisk, Risk.anomalyRisk]
    · rw [hlow, hother'.2.2]
      apply blend_lt <;> norm_num [Risk.reputationRisk]
  · obtain ⟨-, hnot, hleast, hmost⟩ := hother
    rcases anomalyRisk_cases anomaly with hhigh' | hlow' | hother'
    · exact absurd hhigh' hanomaly
    · refine iff_of_true ?_ (Or.inr hlow')
      rw [hlow']
      apply blend_lt
      · norm_num
      · norm_num
      · exact hmost
      · norm_num [Risk.anomalyRisk]
      · norm_num [Risk.anomalyRisk]
        linarith
    · refine iff_of_false ?_ (not_or.mpr ⟨hnot, hother'.2.1⟩)
      apply not_lt.mpr
      apply @le_blend _ _ _ _ (1 / 2)
      · rw [hother'.2.2]
        exact le_max_right _ _
      · rw [hother'.2.2]
        linarith

theorem risk_low_iff (severity : Option Threats.Severity)
    (reputation : Reputation.Level) (anomaly : Anomaly.Level) :
    Risk.levelOfScore (Risk.scoreOf .pass severity reputation anomaly) =
        .low ↔
      staysLow reputation anomaly severity = true := by
  rw [level_low_iff]
  cases hsevere : Threats.Severity.severe severity with
  | true =>
      have hscore := score_severe hsevere .pass reputation anomaly
      have hnot : staysLow reputation anomaly severity = false := by
        cases severity with
        | none => cases hsevere
        | some severity =>
            cases severity with
            | low => cases hsevere
            | medium => cases hsevere
            | high => rfl
            | critical => rfl
      rw [hnot]
      exact iff_of_false (by linarith) Bool.false_ne_true
  | false =>
      rw [score_pass hsevere]
      by_cases hhigh : reputation = .high ∨ anomaly = .high
      · have hnot : staysLow reputation anomaly severity = false := by
          cases severity with
          | none => rcases hhigh with h | h <;> simp [staysLow, h]
          | some severity =>
              cases severity <;> rcases hhigh with h | h <;>
                simp [staysLow, h]
        rw [hnot]
        refine iff_of_false (not_lt.mpr (not_low_of_high ?_ hhigh))
          Bool.false_ne_true
        cases severity with
        | none => exact le_refl 0
        | some severity => cases severity <;> norm_num [Risk.severityRisk]
      · rw [not_or] at hhigh
        obtain ⟨hreputation, hanomaly⟩ := hhigh
        cases severity with
        | none =>
            refine iff_of_true (low_of_slight ?_ hreputation hanomaly) ?_
            · norm_num [Risk.severityRisk]
            · simp [staysLow, hreputation, hanomaly]
        | some severity =>
            cases severity with
            | low =>
                refine iff_of_true (low_of_slight ?_ hreputation hanomaly) ?_
                · norm_num [Risk.severityRisk]
                · simp [staysLow, hreputation, hanomaly]
            | medium =>
                have hiff := medium_low_iff hreputation hanomaly
                rw [Risk.severityRisk, hiff]
                simp [staysLow, hreputation, hanomaly]
            | high => cases hsevere
            | critical => cases hsevere

/-! ## The recommendation -/

theorem proceeds_iff {status : IntentVerifier.Status}
    {severity : Option Threats.Severity} {risk : Risk.Level} {isBlind : Bool} :
    handlingOf status severity risk isBlind = .proceedCandidate ↔
      status = .pass ∧ Threats.Severity.severe severity = false ∧ risk = .low ∧
        isBlind = false := by
  unfold handlingOf
  generalize Threats.Severity.severe severity = severe
  cases status <;> cases severe <;> cases risk <;> cases isBlind <;> decide

theorem denies_iff {status : IntentVerifier.Status}
    {severity : Option Threats.Severity} {risk : Risk.Level} {isBlind : Bool} :
    handlingOf status severity risk isBlind = .denyRecommended ↔
      status = .fail ∨ Threats.Severity.severe severity = true := by
  unfold handlingOf
  generalize Threats.Severity.severe severity = severe
  cases status <;> cases severe <;> cases risk <;> cases isBlind <;> decide

/-- The pipeline never recommends to monitor only. -/
theorem review_or_deny_iff {status : IntentVerifier.Status}
    {severity : Option Threats.Severity} {risk : Risk.Level} {isBlind : Bool} :
    handlingOf status severity risk isBlind = .review ∨
        handlingOf status severity risk isBlind = .denyRecommended ↔
      handlingOf status severity risk isBlind ≠ .proceedCandidate := by
  unfold handlingOf
  generalize Threats.Severity.severe severity = severe
  cases status <;> cases severe <;> cases risk <;> cases isBlind <;> decide

/-- The intent passes, and the other signals leave a threat of this severity
with a low risk. -/
def Cleared (py : AnalysisPython) (provider : Option Provider)
    (req : AnalyzeRequest) : Prop :=
  ∃ reputation anomaly,
    reputationNode py req = .ok reputation ∧
      anomalyNode py req = .ok anomaly ∧
      (verifyIntent py provider req).status = .pass ∧
      staysLow reputation.level anomaly.level
        (threatAnalysis py provider req).severity = true ∧
      blind reputation.dataQuality anomaly.level = false

theorem severe_of_staysLow {reputation : Reputation.Level}
    {anomaly : Anomaly.Level} {severity : Option Threats.Severity}
    (h : staysLow reputation anomaly severity = true) :
    Threats.Severity.severe severity = false := by
  cases severity with
  | none => rfl
  | some severity =>
      cases severity with
      | low => rfl
      | medium => rfl
      | high => cases h
      | critical => cases h

variable {py : AnalysisPython} {provider : Option Provider}
variable {req : AnalyzeRequest} {assessment : SecurityAssessment}

/-- The assessment is assembled of the stages. -/
theorem stages_of_analyze (h : analyze py provider req = .ok assessment) :
    ∃ reputation anomaly,
      reputationNode py req = .ok reputation ∧
        anomalyNode py req = .ok anomaly ∧
        assemble py req.proposal (verifyIntent py provider req)
          (threatAnalysis py provider req) reputation anomaly =
            .ok assessment := by
  obtain ⟨reputation, hreputation, h⟩ := Fallible.result_bind_eq_ok.mp h
  obtain ⟨anomaly, hanomaly, h⟩ := Fallible.result_bind_eq_ok.mp h
  exact ⟨reputation, anomaly, hreputation, hanomaly, h⟩

/-- The pipeline proceeds exactly when it is cleared. -/
theorem analyze_proceeds_iff (h : analyze py provider req = .ok assessment) :
    assessment.overallAssessment.recommendedHandling = .proceedCandidate ↔
      Cleared py provider req := by
  obtain ⟨reputation, anomaly, hreputation, hanomaly, h⟩ :=
    stages_of_analyze h
  obtain ⟨proposalId, -, h⟩ := Fallible.result_bind_eq_ok.mp h
  cases h
  change handlingOf _ _ _ _ = .proceedCandidate ↔ _
  rw [proceeds_iff]
  have hlevel : (verifyIntent py provider req).status = .pass →
      ((Risk.aggregate (verifyIntent py provider req)
          (threatAnalysis py provider req) reputation anomaly).level = .low ↔
        staysLow reputation.level anomaly.level
          (threatAnalysis py provider req).severity = true) := by
    intro hpass
    have hknown : Risk.unknown .pass reputation.dataQuality anomaly.level =
        false := rfl
    rw [← risk_low_iff]
    simp only [Risk.aggregate, hpass, hknown]
    rfl
  constructor
  · intro hproceeds
    obtain ⟨hpass, -, hlow, hblind⟩ := hproceeds
    exact ⟨reputation, anomaly, hreputation, hanomaly, hpass,
      (hlevel hpass).mp hlow, hblind⟩
  · intro hcleared
    obtain ⟨reputation', anomaly', hreputation', hanomaly', hpass, hlow,
      hblind⟩ := hcleared
    rw [hreputation, Except.ok.injEq] at hreputation'
    rw [hanomaly, Except.ok.injEq] at hanomaly'
    rw [← hreputation', ← hanomaly'] at hlow hblind
    exact ⟨hpass, severe_of_staysLow hlow, (hlevel hpass).mpr hlow, hblind⟩

theorem analyze_denies_iff (h : analyze py provider req = .ok assessment) :
    assessment.overallAssessment.recommendedHandling = .denyRecommended ↔
      (verifyIntent py provider req).status = .fail ∨
        Threats.Severity.severe
          (threatAnalysis py provider req).severity = true := by
  obtain ⟨reputation, anomaly, -, -, h⟩ := stages_of_analyze h
  obtain ⟨proposalId, -, h⟩ := Fallible.result_bind_eq_ok.mp h
  cases h
  exact denies_iff

theorem analyze_not_proceeds_iff
    (h : analyze py provider req = .ok assessment) :
    assessment.overallAssessment.recommendedHandling = .review ∨
        assessment.overallAssessment.recommendedHandling =
          .denyRecommended ↔
      ¬ Cleared py provider req := by
  rw [← analyze_proceeds_iff h]
  obtain ⟨reputation, anomaly, -, -, h⟩ := stages_of_analyze h
  obtain ⟨proposalId, -, h⟩ := Fallible.result_bind_eq_ok.mp h
  cases h
  exact review_or_deny_iff

theorem threat_of_analyze (h : analyze py provider req = .ok assessment) :
    assessment.threatAssessment = threatAnalysis py provider req := by
  obtain ⟨reputation, anomaly, -, -, h⟩ := stages_of_analyze h
  obtain ⟨proposalId, -, h⟩ := Fallible.result_bind_eq_ok.mp h
  cases h
  rfl

/-! ## Never weaker -/

/-- The model was asked for threats and gave this answer. -/
def Answered (py : AnalysisPython) (provider : Option Provider)
    (req : AnalyzeRequest) (answer : PyDict) : Prop :=
  ∃ det, Threats.deterministicScan py req.trajectory req.evidence = .ok det ∧
    Threats.llmAnswer (provider.map Provider.threats) det = some answer

/-- The answer reports a detection, or a severity of MEDIUM or above. -/
def Reports (answer : PyDict) : Prop :=
  answer.get "detected" = .bool true ∨
    2 ≤ Threats.Severity.order (Threats.Severity.named (answer.get "severity"))

/-- The overall recommendation is not weaker than what the threat assessment
recommends and what the model reported. -/
structure NeverWeaker (py : AnalysisPython) (provider : Option Provider)
    (req : AnalyzeRequest) (assessment : SecurityAssessment) : Prop where
  review : assessment.threatAssessment.recommendedHandling = .review →
    assessment.overallAssessment.recommendedHandling = .review ∨
      assessment.overallAssessment.recommendedHandling = .denyRecommended
  deny : assessment.threatAssessment.recommendedHandling =
      .denyRecommended →
    assessment.overallAssessment.recommendedHandling = .denyRecommended
  reported : ∀ answer, Answered py provider req answer → Reports answer →
    assessment.overallAssessment.recommendedHandling ≠ .proceedCandidate

/-- Threat analysis recommends a review, which it also does when it raises, or
the model reported something. -/
def Alarmed (py : AnalysisPython) (provider : Option Provider)
    (req : AnalyzeRequest) : Prop :=
  (threatAnalysis py provider req).recommendedHandling = .review ∨
    ∃ answer, Answered py provider req answer ∧ Reports answer

/-- The severity that recommends a denial is reported, or the intent fails. -/
def DenialKept (py : AnalysisPython) (provider : Option Provider)
    (req : AnalyzeRequest) : Prop :=
  (threatAnalysis py provider req).recommendedHandling = .denyRecommended →
    (verifyIntent py provider req).status = .fail ∨
      Threats.Severity.severe (threatAnalysis py provider req).severity = true

/-- The recommendation is never weaker exactly when what was alarmed is not
cleared by the other signals and a recommended denial keeps its severity. -/
theorem never_weaker_iff (h : analyze py provider req = .ok assessment) :
    NeverWeaker py provider req assessment ↔
      (Alarmed py provider req → ¬ Cleared py provider req) ∧
        DenialKept py provider req := by
  have hthreat := threat_of_analyze h
  constructor
  · intro hnever
    constructor
    · intro halarmed
      rcases halarmed with hreview | ⟨answer, hanswer, hreports⟩
      · rw [← hthreat] at hreview
        exact (analyze_not_proceeds_iff h).mp (hnever.review hreview)
      · have hnot := hnever.reported answer hanswer hreports
        rw [ne_eq, analyze_proceeds_iff h] at hnot
        exact hnot
    · intro hdeny
      rw [← hthreat] at hdeny
      exact (analyze_denies_iff h).mp (hnever.deny hdeny)
  · intro hkept
    obtain ⟨halarmed, hdenied⟩ := hkept
    constructor
    · intro hreview
      rw [hthreat] at hreview
      exact (analyze_not_proceeds_iff h).mpr (halarmed (Or.inl hreview))
    · intro hdeny
      rw [hthreat] at hdeny
      exact (analyze_denies_iff h).mpr (hdenied hdeny)
    · intro answer hanswer hreports
      rw [ne_eq, analyze_proceeds_iff h]
      exact halarmed (Or.inr ⟨answer, hanswer, hreports⟩)

/-! ## A threat analysis that failed -/

/-- The library on plain texts. -/
def samplePython : AnalysisPython where
  toPython := IntentVerifier.samplePython
  search := fun _ _ => false
  ratio := fun a b => some (.finite (a / b))
  fixed1 := fun _ => ""

/-- A recipient without history, and an amount without a baseline. -/
def sampleRequest : AnalyzeRequest where
  intent := IntentVerifier.sampleIntent
  proposal := IntentVerifier.sampleProposal
  trajectory := []
  evidence := []
  recipientContext := some [("prior_agent_interactions", .int 0)]
  historicalBehavior := some [("window", .str "30d")]

/-- The model reports a threat, with a confidence that is not a number. -/
def reportedThreat : PyDict :=
  [("detected", .bool true), ("severity", .str "MEDIUM"),
    ("categories", .list []), ("confidence", .str "high")]

def sampleProvider : Provider where
  alignment := .error .unavailable
  threats := .ok reportedThreat

theorem sample_cleared :
    Cleared samplePython (some sampleProvider) sampleRequest := by
  have hscore : Anomaly.levelOf (Anomaly.scoreOf []) = .low := by
    norm_num [Anomaly.scoreOf, Anomaly.levelOf]
  refine ⟨_, _, rfl, rfl, by decide, ?_, rfl⟩
  change staysLow .new (Anomaly.levelOf (Anomaly.scoreOf [])) none = true
  rw [hscore]
  rfl

/-- What the model reports is lost with its confidence. -/
theorem reported_threat_proceeds :
    ∃ assessment,
      analyze samplePython (some sampleProvider) sampleRequest =
        .ok assessment ∧
      assessment.threatAssessment.recommendedHandling = .review ∧
      Answered samplePython (some sampleProvider) sampleRequest
        reportedThreat ∧
      Reports reportedThreat ∧
      ¬ NeverWeaker samplePython (some sampleProvider) sampleRequest
        assessment := by
  obtain ⟨assessment, hassessment⟩ : ∃ assessment,
      analyze samplePython (some sampleProvider) sampleRequest =
        .ok assessment := ⟨_, rfl⟩
  have hthreat := threat_of_analyze hassessment
  have hreview : assessment.threatAssessment.recommendedHandling =
      .review := by
    rw [hthreat]
    rfl
  refine ⟨assessment, hassessment, hreview, ⟨_, rfl, rfl⟩, Or.inl rfl, ?_⟩
  intro hnever
  exact (analyze_not_proceeds_iff hassessment).mp (hnever.review hreview)
    sample_cleared

/-- The model reports a threat that the analysis can read. -/
def readThreat : PyDict :=
  [("detected", .bool true), ("severity", .str "HIGH"),
    ("categories", .list []), ("confidence", .float (.finite (9 / 10)))]

def heardProvider : Provider where
  alignment := .error .unavailable
  threats := .ok readThreat

theorem sample_severity :
    (threatAnalysis samplePython (some heardProvider)
      sampleRequest).severity = some .high := rfl

/-- The reported threat is severe: its denial is kept. -/
theorem sample_never_weaker :
    ∃ assessment,
      analyze samplePython (some heardProvider) sampleRequest =
        .ok assessment ∧
      Alarmed samplePython (some heardProvider) sampleRequest ∧
      assessment.threatAssessment.recommendedHandling = .denyRecommended ∧
      NeverWeaker samplePython (some heardProvider) sampleRequest
        assessment := by
  obtain ⟨assessment, hassessment⟩ : ∃ assessment,
      analyze samplePython (some heardProvider) sampleRequest =
        .ok assessment := ⟨_, rfl⟩
  have hthreat := threat_of_analyze hassessment
  refine ⟨assessment, hassessment,
    Or.inr ⟨readThreat, ⟨_, rfl, rfl⟩, Or.inl rfl⟩, ?_,
    (never_weaker_iff hassessment).mpr ⟨fun _ => ?_, fun _ => ?_⟩⟩
  · rw [hthreat]
    rfl
  · rintro ⟨reputation, anomaly, -, -, -, hlow, -⟩
    rw [sample_severity] at hlow
    cases hlow
  · rw [sample_severity]
    exact Or.inr rfl

end SecurityPipeline
end Orvex
