import Orvex.Memory.Insights
import Orvex.Security.Recommendation

/-!
# Payment redirection

When the first change of the recipient comes after untrusted content and the
recipient does not occur in the intent, no model is asked and every stage
reports it.
-/

namespace Orvex
namespace SecurityPipeline

open IntentVerifier (AllTexts allTexts_map containsText intentText)
open Retrieval (ChangedAfter FlagsExact Masked OrdersIntegers Readable
  Sequenced amountChange analyzeTrajectory recipientChange untrusted)

/-! ## Valid inputs -/

def IsText (value : PyValue) : Prop := ∃ s, value = .str s

def OptionalText (value : PyValue) : Prop := value = .none ∨ IsText value

def TextList (value : PyValue) : Prop :=
  ∃ texts : List String, value = .list (texts.map .str)

/-- The fields of the intent schema that the pipeline reads. -/
structure ValidIntent (intent : PyDict) : Prop where
  userGoal : IsText (intent.get "user_goal")
  purpose : IsText (intent.get "purpose")
  desiredOutcome : IsText (intent.get "desired_outcome")
  constraints : TextList (intent.getD "constraints" (.list []))
  budget : intent.get "budget" = .none ∨
    ∃ fields, intent.get "budget" = .dict fields ∧
      IsText (PyDict.get fields "maximum") ∧
        IsText (PyDict.get fields "currency")

/-- The fields of the proposal schema that the pipeline reads. -/
structure ValidProposal (proposal : PyDict) : Prop where
  proposalId : IsText (proposal.get "proposal_id")
  recipient : proposal.get "recipient" = .none ∨
    ∃ fields, proposal.get "recipient" = .dict fields ∧
      OptionalText (PyDict.get fields "identifier") ∧
        OptionalText (PyDict.get fields "address")
  amount : proposal.get "amount" = .none ∨
    ∃ fields, proposal.get "amount" = .dict fields ∧
      IsText (PyDict.get fields "value") ∧
        IsText (PyDict.get fields "currency")
  evidenceIds : TextList (proposal.getD "evidence_ids" (.list []))

/-- A text of the recipient occurs in the text of the intent. -/
def recipientInIntent (py : Python) (intent proposal : PyDict) :
    Except PyException Bool := do
  let recipient ← proposal.getDict "recipient"
  let address := py.lower (← recipient.getText "address")
  let identifier := py.lower (← recipient.getText "identifier")
  let text ← intentText py intent
  return (decide (identifier ≠ "") && containsText text identifier) ||
    (decide (address ≠ "") && containsText text address)

/-! ## Reading valid inputs -/

theorem getText_ok {fields : PyDict} {key : String}
    (h : OptionalText (fields.get key)) :
    ∃ s, fields.getText key = .ok s := by
  unfold PyDict.getText
  rcases h with hnone | ⟨s, hs⟩
  · rw [hnone]
    exact ⟨"", rfl⟩
  · rw [hs]
    by_cases hempty : s = ""
    · rw [hempty]
      exact ⟨"", rfl⟩
    · refine ⟨s, ?_⟩
      rw [PyValue.orElse, if_pos]
      · rfl
      · exact decide_eq_true hempty

/-- A dictionary or nothing is read as a dictionary. -/
theorem getDict_ok {fields : PyDict} {key : String} {p : PyDict → Prop}
    (h : fields.get key = .none ∨
      ∃ inner, fields.get key = .dict inner ∧ p inner) :
    ∃ inner, fields.getDict key = .ok inner ∧ (inner = [] ∨ p inner) := by
  unfold PyDict.getDict
  rcases h with hnone | ⟨inner, hinner, hp⟩
  · rw [hnone]
    exact ⟨[], rfl, Or.inl rfl⟩
  · rw [hinner]
    cases inner with
    | nil => exact ⟨[], rfl, Or.inl rfl⟩
    | cons field rest => exact ⟨field :: rest, rfl, Or.inr hp⟩

theorem members_ok {fields : PyDict} {key : String}
    (h : TextList (fields.getD key (.list []))) :
    ∃ texts : List String,
      ((fields.getD key (.list [])).orElse (.list [])).members =
        .ok (texts.map .str) := by
  obtain ⟨texts, htexts⟩ := h
  rw [htexts]
  cases texts with
  | nil => exact ⟨[], rfl⟩
  | cons text rest => exact ⟨text :: rest, rfl⟩

theorem mapM_texts {f : PyValue → Except PyException String}
    (hf : ∀ s, f (.str s) = .ok s) (texts : List String) :
    (texts.map PyValue.str).mapM f = .ok texts := by
  induction texts with
  | nil => rfl
  | cons text rest ih =>
      rw [List.map_cons, List.mapM_cons, ih, hf]
      rfl

theorem join_ok (separator : String) (texts : List String) :
    PyValue.join separator (texts.map .str) =
      .ok (separator.intercalate texts) := by
  unfold PyValue.join
  rw [mapM_texts (fun _ => rfl)]
  rfl

theorem intentText_ok {intent : PyDict} (h : ValidIntent intent)
    (py : Python) : ∃ text, intentText py intent = .ok text := by
  obtain ⟨texts, htexts⟩ := members_ok h.constraints
  cases htext : intentText py intent with
  | ok text => exact ⟨text, rfl⟩
  | error e =>
      rw [intentText, htexts, Fallible.result_ok_bind, join_ok,
        Fallible.result_ok_bind] at htext
      cases htext

/-! ## The intent verification -/

section

variable {intent proposal : PyDict} {trajectory : List PyDict}

/-- The checks of valid inputs complete, and a redirection is a hard
failure. -/
theorem checks_ok (py : Python) (hintent : ValidIntent intent)
    (hproposal : ValidProposal proposal)
    {insights : Retrieval.TrajectoryInsights}
    (hinsights : analyzeTrajectory py trajectory = .ok insights) :
    ∃ checks inIntent,
      IntentVerifier.deterministicChecks py intent proposal trajectory =
        .ok checks ∧
      recipientInIntent py intent proposal = .ok inIntent ∧
      (insights.recipientChangeAfterUntrusted = true → inIntent = false →
        checks.hardFail = true) ∧
      ∃ texts : List String, checks.evidenceIds = texts.map .str := by
  obtain ⟨budget, hbudget, hbudgetFields⟩ := getDict_ok hintent.budget
  obtain ⟨amount, hamount, hamountFields⟩ := getDict_ok hproposal.amount
  obtain ⟨recipient, hrecipient, hrecipientFields⟩ :=
    getDict_ok hproposal.recipient
  obtain ⟨budgetCurrency, hbudgetCurrency⟩ :
      ∃ s, budget.getText "currency" = .ok s := by
    rcases hbudgetFields with hnil | hfields
    · rw [hnil]
      exact ⟨"", rfl⟩
    · exact getText_ok (Or.inr hfields.2)
  obtain ⟨amountCurrency, hamountCurrency⟩ :
      ∃ s, amount.getText "currency" = .ok s := by
    rcases hamountFields with hnil | hfields
    · rw [hnil]
      exact ⟨"", rfl⟩
    · exact getText_ok (Or.inr hfields.2)
  obtain ⟨address, haddress⟩ : ∃ s, recipient.getText "address" = .ok s := by
    rcases hrecipientFields with hnil | hfields
    · rw [hnil]
      exact ⟨"", rfl⟩
    · exact getText_ok hfields.2
  obtain ⟨identifier, hidentifier⟩ :
      ∃ s, recipient.getText "identifier" = .ok s := by
    rcases hrecipientFields with hnil | hfields
    · rw [hnil]
      exact ⟨"", rfl⟩
    · exact getText_ok hfields.1
  obtain ⟨text, htext⟩ := intentText_ok hintent py
  obtain ⟨texts, htexts⟩ := members_ok hproposal.evidenceIds
  have hinIntent : recipientInIntent py intent proposal =
      .ok ((decide (py.lower identifier ≠ "") &&
          containsText text (py.lower identifier)) ||
        (decide (py.lower address ≠ "") &&
          containsText text (py.lower address))) := by
    simp only [recipientInIntent, hrecipient, haddress, hidentifier, htext,
      Fallible.result_ok_bind]
    rfl
  cases hchecks : IntentVerifier.deterministicChecks py intent proposal
      trajectory with
  | error e =>
      simp only [IntentVerifier.deterministicChecks, hbudget, hamount,
        hbudgetCurrency, hamountCurrency, hinsights, hrecipient, haddress,
        hidentifier, htext, htexts, Fallible.result_ok_bind] at hchecks
      cases hchecks
  | ok checks =>
      simp only [IntentVerifier.deterministicChecks, hbudget, hamount,
        hbudgetCurrency, hamountCurrency, hinsights, hrecipient, haddress,
        hidentifier, htext, htexts, Fallible.result_ok_bind] at hchecks
      cases hchecks
      refine ⟨_, _, rfl, hinIntent, ?_, texts, rfl⟩
      intro hflag hnot
      simp only [hflag, hnot, Bool.not_false, Bool.and_self, Bool.or_true]

end

variable {py : AnalysisPython} {provider : Option Provider}
variable {req : AnalyzeRequest} {insights : Retrieval.TrajectoryInsights}

/-- The flag is set and the recipient is absent from the intent. -/
structure Redirected (py : AnalysisPython) (req : AnalyzeRequest)
    (insights : Retrieval.TrajectoryInsights) : Prop where
  found : analyzeTrajectory py.toPython req.trajectory = .ok insights
  flag : insights.recipientChangeAfterUntrusted = true
  absent : recipientInIntent py.toPython req.intent req.proposal = .ok false

theorem Redirected.fails (h : Redirected py req insights)
    (hintent : ValidIntent req.intent)
    (hproposal : ValidProposal req.proposal) :
    (verifyIntent py provider req).status = .fail := by
  obtain ⟨checks, inIntent, hchecks, hinIntent, hfail, texts, htexts⟩ :=
    checks_ok py.toPython hintent hproposal h.found
  rw [h.absent, Except.ok.injEq] at hinIntent
  have hhard := hfail h.flag hinIntent.symm
  have hids : AllTexts checks.evidenceIds := by
    rw [htexts]
    exact allTexts_map texts
  obtain ⟨verdict, hverdict, hstatus⟩ :=
    (@IntentVerifier.checked_returns_iff checks .fail (19 / 20)).mpr hids
  have hverify := @IntentVerifier.verify_of_checks _ _
    (provider.map Provider.alignment) _ _ _ hchecks
  rw [if_pos hhard, hverdict] at hverify
  unfold verifyIntent
  rw [hverify]
  exact hstatus

/-! ## The threat analysis -/

/-- A value that is reported is a text. -/
def TextId (value : PyValue) : Prop := value.truthy = true → value.isStr = true

theorem allTexts_filter {values : List PyValue} :
    AllTexts (values.filter PyValue.truthy) ↔
      ∀ value ∈ values, TextId value := by
  unfold AllTexts TextId
  simp only [List.mem_filter, and_imp]

/-- The ids of the untrusted events and of the evidence that matches a pattern
are texts. -/
structure TextIds (py : AnalysisPython) (req : AnalyzeRequest) : Prop where
  evidence : ∀ item ∈ req.evidence, Threats.matched py item ≠ [] →
    TextId (item.get "evidence_id")
  events : ∀ event ∈ req.trajectory, untrusted event = true →
    TextId (event.get "event_id")

theorem matched_ids {ids : PyDict → PyValue} {p : PyValue → Prop}
    {evidence : List PyDict} :
    (∀ value ∈ evidence.flatMap (fun item =>
        (Threats.matched py item).map (fun _ => ids item)), p value) ↔
      ∀ item ∈ evidence, Threats.matched py item ≠ [] → p (ids item) := by
  constructor
  · intro h item hitem hmatched
    obtain ⟨pattern, hpattern⟩ := List.exists_mem_of_ne_nil _ hmatched
    apply h
    exact List.mem_flatMap.mpr ⟨item, hitem,
      List.mem_map.mpr ⟨pattern, hpattern, rfl⟩⟩
  · intro h value hvalue
    obtain ⟨item, hitem, hvalue⟩ := List.mem_flatMap.mp hvalue
    obtain ⟨pattern, hpattern, hvalue⟩ := List.mem_map.mp hvalue
    rw [← hvalue]
    exact h item hitem (List.ne_nil_of_mem hpattern)

theorem conclude_ok_iff {det : Threats.Scan} {merged : Threats.Merged} :
    (∃ threat, Threats.conclude det merged = .ok threat) ↔
      AllTexts det.evidenceIds ∧ AllTexts det.trajectoryEventIds := by
  rw [← IntentVerifier.requireTexts_ok_iff,
    ← IntentVerifier.requireTexts_ok_iff]
  unfold Threats.conclude
  constructor
  · intro h
    obtain ⟨threat, h⟩ := h
    obtain ⟨ids, hids, h⟩ := Fallible.result_bind_eq_ok.mp h
    obtain ⟨eventIds, heventIds, -⟩ := Fallible.result_bind_eq_ok.mp h
    exact ⟨⟨ids, hids⟩, eventIds, heventIds⟩
  · intro h
    obtain ⟨⟨ids, hids⟩, eventIds, heventIds⟩ := h
    rw [hids, Fallible.result_ok_bind, heventIds, Fallible.result_ok_bind]
    exact ⟨_, rfl⟩

/-- A severe category makes a severe threat. -/
theorem conclude_severe {det : Threats.Scan} {threat : Threats.ThreatAssessment}
    (hseverity : det.severity = some .high)
    (hcategory : Threats.paymentRedirection ∈ det.categories)
    (h : Threats.conclude det (Threats.unanswered det) = .ok threat) :
    Threats.Severity.severe threat.severity = true := by
  obtain ⟨ids, -, h⟩ := Fallible.result_bind_eq_ok.mp h
  obtain ⟨eventIds, -, h⟩ := Fallible.result_bind_eq_ok.mp h
  cases h
  have hsevere : Threats.severeCategory det.categories = true := by
    rw [Threats.severeCategory, decide_eq_true hcategory, Bool.true_or]
  have hsome : det.categories.isEmpty = false := by
    cases hempty : det.categories with
    | nil =>
        rw [hempty] at hcategory
        exact absurd hcategory List.not_mem_nil
    | cons category rest => rfl
  simp only [Threats.unanswered, hsevere, hsome, hseverity, if_true,
    Bool.not_false, Bool.true_or]
  rfl

/-- What the scan finds of a redirection. -/
structure Finds (det : Threats.Scan) (py : AnalysisPython)
    (req : AnalyzeRequest) : Prop where
  severity : det.severity = some .high
  category : Threats.paymentRedirection ∈ det.categories
  ids : AllTexts det.evidenceIds ∧ AllTexts det.trajectoryEventIds ↔
    TextIds py req

theorem found_severity {categories : List String}
    (h : Threats.paymentRedirection ∈ categories) :
    Threats.scannedSeverity categories = some .high := by
  unfold Threats.scannedSeverity
  cases categories with
  | nil => exact absurd h List.not_mem_nil
  | cons category rest =>
      rw [Threats.severeCategory, decide_eq_true h]
      rfl

theorem Redirected.scan (h : Redirected py req insights)
    (hshows : Retrieval.Shows insights req.trajectory) :
    ∃ det, Threats.deterministicScan py req.trajectory req.evidence =
      .ok det ∧ Finds det py req := by
  have hfound : Threats.paymentRedirection ∈
      Threats.foundCategories py insights req.evidence := by
    unfold Threats.foundCategories
    rw [if_pos h.flag]
    exact List.mem_cons_self
  cases hscan : Threats.deterministicScan py req.trajectory req.evidence with
  | error e =>
      rw [Threats.deterministicScan, h.found,
        Fallible.result_ok_bind] at hscan
      cases hscan
  | ok det =>
      refine ⟨det, rfl, ?_⟩
      rw [Threats.deterministicScan, h.found,
        Fallible.result_ok_bind] at hscan
      rw [← Except.ok.inj hscan]
      constructor
      · exact found_severity hfound
      · apply (List.perm_insertionSort _ _).mem_iff.mpr
        exact List.mem_dedup.mpr hfound
      · simp only [h.flag, if_true, allTexts_filter, hshows.untrustedIds,
          matched_ids]
        constructor
        · intro htexts
          refine ⟨htexts.1, ?_⟩
          intro event hevent huntrusted
          apply htexts.2
          apply List.mem_map_of_mem
          exact List.mem_filter.mpr ⟨hevent, huntrusted⟩
        · intro htexts
          refine ⟨htexts.evidence, ?_⟩
          intro value hvalue
          obtain ⟨event, hevent, hvalue⟩ := List.mem_map.mp hvalue
          obtain ⟨hevent, huntrusted⟩ := List.mem_filter.mp hevent
          rw [← hvalue]
          exact htexts.events event hevent huntrusted

/-- After a severe scan the model is not asked. -/
theorem analyze_of_finds {det : Threats.Scan}
    (hscan : Threats.deterministicScan py req.trajectory req.evidence =
      .ok det) (hfinds : Finds det py req) :
    Threats.analyze py (provider.map Provider.threats) req.trajectory
        req.evidence = Threats.conclude det (Threats.unanswered det) := by
  have hunasked : Threats.llmAnswer (provider.map Provider.threats) det =
      none := by
    unfold Threats.llmAnswer
    rw [hfinds.severity]
    exact if_pos rfl
  rw [Threats.analyze, hscan, Fallible.result_ok_bind, hunasked]
  rfl

/-- A redirection is a severe threat exactly when the ids that it reports are
texts. -/
theorem Redirected.severe_iff (h : Redirected py req insights)
    (hshows : Retrieval.Shows insights req.trajectory) :
    Threats.Severity.severe (threatAnalysis py provider req).severity = true ↔
      TextIds py req := by
  obtain ⟨det, hscan, hfinds⟩ := h.scan hshows
  rw [← hfinds.ids, ← @conclude_ok_iff det (Threats.unanswered det)]
  unfold threatAnalysis
  rw [analyze_of_finds hscan hfinds]
  cases hconclude : Threats.conclude det (Threats.unanswered det) with
  | ok threat =>
      refine iff_of_true ?_ ⟨threat, rfl⟩
      exact conclude_severe hfinds.severity hfinds.category hconclude
  | error e =>
      refine iff_of_false Bool.false_ne_true ?_
      intro hok
      obtain ⟨threat, hok⟩ := hok
      cases hok

/-! ## The signals -/

/-- The recipient context has what its checks read. -/
def ContextReadable (fields : PyDict) : Prop :=
  fields = [] ∨
    ((fields.getD "risk_labels" (.list [])).orElse (.list [])).truthy = true ∨
    ((fields.get "address_age_days").truthy = true →
        (fields.get "address_age_days").number.isSome = true) ∧
      (fields.getD "prior_agent_interactions" (.int 0)).number.isSome = true

theorem exceeds_ok_iff {value : PyValue} {bound : ℚ} :
    (∃ b, value.exceeds bound = .ok b) ↔ value.number.isSome = true := by
  unfold PyValue.exceeds
  cases value.number with
  | none => simp
  | some x => simp

theorem longLived_ok_iff {value : PyValue} :
    (∃ b, Reputation.longLived value = .ok b) ↔
      (value.truthy = true → value.number.isSome = true) := by
  unfold Reputation.longLived
  cases value.truthy with
  | false => simp
  | true =>
      rw [if_pos rfl, exceeds_ok_iff]
      simp

theorem assessment_ok (fields : PyDict) {score : Option ℚ}
    {level : Reputation.Level} {signals : List Signal}
    {quality : Reputation.DataQuality} {confidence : ℚ} :
    ∃ assessment, Reputation.assessment (.dict fields) score level signals
      quality confidence = .ok assessment :=
  ⟨_, rfl⟩

/-- A dictionary, or its default, is a dictionary. -/
theorem orElse_dict {value : PyValue} {p : PyDict → Prop}
    (h : value = .none ∨ ∃ inner, value = .dict inner ∧ p inner) :
    ∃ fields, (value.orElse (.dict [])).orElse (.dict []) =
      .dict fields := by
  rcases h with hnone | ⟨inner, hinner, -⟩
  · rw [hnone]
    exact ⟨[], rfl⟩
  · rw [hinner]
    cases inner with
    | nil => exact ⟨[], rfl⟩
    | cons field rest => exact ⟨field :: rest, rfl⟩

theorem number_of_isZero {value : PyValue} (h : value.isZero = true) :
    value.number.isSome = true := by
  have hnumber : value.number = some (.finite 0) := of_decide_eq_true h
  rw [hnumber]
  rfl

theorem truthy_of_isNone {value : PyValue} (h : value.isNone = true) :
    value.truthy = false := by
  cases value with
  | none => rfl
  | _ => cases h

theorem reputation_ok_iff {context : Option PyDict} {entity : PyValue}
    (hentity : ∃ fields, entity.orElse (.dict []) = .dict fields) :
    (∃ reputation, Reputation.analyze py.toPython context entity =
        .ok reputation) ↔ ContextReadable (context.getD []) := by
  obtain ⟨entityFields, hentity⟩ := hentity
  unfold Reputation.analyze ContextReadable
  simp only [hentity]
  generalize context.getD [] = fields
  by_cases hempty : fields = []
  · rw [hempty]
    exact iff_of_true (assessment_ok entityFields) (Or.inl rfl)
  · have hsome : ¬ fields.isEmpty = true := by
      rw [List.isEmpty_iff]
      exact hempty
    rw [if_neg hsome, or_iff_right hempty]
    by_cases hlabels : ((fields.getD "risk_labels" (.list [])).orElse
        (.list [])).truthy = true
    · rw [if_pos hlabels]
      exact iff_of_true (assessment_ok entityFields) (Or.inl hlabels)
    · rw [if_neg hlabels, or_iff_right hlabels, ← longLived_ok_iff,
        ← @exceeds_ok_iff _ 0]
      split
      next hnew =>
        simp only [Bool.and_eq_true, Bool.or_eq_true] at hnew
        obtain ⟨⟨⟨hage, -⟩, -⟩, hprior⟩ := hnew
        refine iff_of_true (assessment_ok entityFields) ⟨?_, ?_⟩
        · rw [longLived_ok_iff]
          intro htruthy
          rcases hage with hnone | hzero
          · rw [truthy_of_isNone hnone] at htruthy
            cases htruthy
          · exact number_of_isZero hzero
        · rw [exceeds_ok_iff]
          exact number_of_isZero hprior
      next hknown =>
        constructor
        · intro h
          obtain ⟨reputation, h⟩ := h
          obtain ⟨old, hold, h⟩ := Fallible.result_bind_eq_ok.mp h
          obtain ⟨met, hmet, -⟩ := Fallible.result_bind_eq_ok.mp h
          exact ⟨⟨old, hold⟩, met, hmet⟩
        · intro h
          obtain ⟨⟨old, hold⟩, met, hmet⟩ := h
          rw [hold, Fallible.result_ok_bind, hmet, Fallible.result_ok_bind]
          exact assessment_ok entityFields

/-- The historical behaviour has what its checks read. -/
structure HistoryReadable (py : AnalysisPython) (proposal history : PyDict) :
    Prop where
  known : ∃ members,
    ((history.getD "known_recipients" (.list [])).orElse (.list [])).members =
      .ok members ∧ members.all PyValue.hashable = true
  ratio : ∀ amount, proposal.getDict "amount" = .ok amount →
    ∀ value, IntentVerifier.toDecimal py.toPython (amount.get "value") =
      some value →
    ∀ middle, IntentVerifier.toDecimal py.toPython
        (history.get "median_amount") = some middle →
      0 < middle.1 → (py.ratio value.1 middle.1).isSome = true

theorem amountFinding_ok_iff {amount median : Option (ℚ × String)} :
    (∃ finding, Anomaly.amountFinding py amount median = .ok finding) ↔
      ∀ value, amount = some value → ∀ middle, median = some middle →
        0 < middle.1 → (py.ratio value.1 middle.1).isSome = true := by
  cases amount with
  | none =>
      refine iff_of_true ⟨none, rfl⟩ ?_
      intro value hvalue
      cases hvalue
  | some value =>
      cases median with
      | none =>
          refine iff_of_true ⟨none, rfl⟩ ?_
          intro value _ middle hmiddle
          cases hmiddle
      | some middle =>
          simp only [Option.some.injEq, forall_eq']
          rw [Anomaly.amountFinding]
          by_cases hpositive : 0 < middle.1
          · rw [if_pos hpositive]
            cases py.ratio value.1 middle.1 with
            | none => exact iff_of_false (by simp) (by simp [hpositive])
            | some ratio => exact iff_of_true ⟨_, rfl⟩ (fun _ => rfl)
          · rw [if_neg hpositive]
            exact iff_of_true ⟨none, rfl⟩
              (fun h => absurd h hpositive)

theorem hashableMembers_ok_iff {values : PyValue} :
    (∃ members, Anomaly.hashableMembers values = .ok members) ↔
      ∃ members, values.members = .ok members ∧
        members.all PyValue.hashable = true := by
  unfold Anomaly.hashableMembers
  cases values.members with
  | error e => simp
  | ok members =>
      rw [Fallible.result_ok_bind]
      by_cases hall : members.all PyValue.hashable = true
      · rw [if_pos hall]
        exact iff_of_true ⟨members, rfl⟩ ⟨members, rfl, hall⟩
      · rw [if_neg hall]
        refine iff_of_false ?_ ?_
        · intro h
          obtain ⟨found, h⟩ := h
          cases h
        · intro h
          obtain ⟨found, hfound, hhashable⟩ := h
          rw [Except.ok.injEq] at hfound
          rw [hfound] at hall
          exact hall hhashable

theorem hashable_of_optionalText {value : PyValue} (h : OptionalText value) :
    value.hashable = true := by
  rcases h with hnone | ⟨s, hs⟩
  · rw [hnone]
    rfl
  · rw [hs]
    rfl

theorem recipientFinding_ok {recipient : PyDict} (known : List PyValue)
    (hidentifier : OptionalText (recipient.get "identifier"))
    (haddress : OptionalText (recipient.get "address")) :
    ∃ finding, Anomaly.recipientFinding recipient known = .ok finding := by
  have hhashable : ((recipient.get "identifier").orElse
      (recipient.get "address")).hashable = true := by
    unfold PyValue.orElse
    split
    · exact hashable_of_optionalText hidentifier
    · exact hashable_of_optionalText haddress
  unfold Anomaly.recipientFinding
  simp only [hhashable, if_true]
  split
  · exact ⟨_, rfl⟩
  · exact ⟨_, rfl⟩

theorem anomaly_ok_iff {proposal : PyDict} {historicalBehavior : Option PyDict}
    (hproposal : ValidProposal proposal) :
    (∃ anomaly, Anomaly.analyze py proposal historicalBehavior =
        .ok anomaly) ↔
      historicalBehavior.getD [] = [] ∨
        HistoryReadable py proposal (historicalBehavior.getD []) := by
  obtain ⟨amount, hamount, -⟩ := getDict_ok hproposal.amount
  obtain ⟨recipient, hrecipient, hfields⟩ := getDict_ok hproposal.recipient
  have hnovelty : ∀ known, ∃ finding,
      Anomaly.recipientFinding recipient known = .ok finding := by
    intro known
    rcases hfields with hnil | hfields
    · rw [hnil]
      exact recipientFinding_ok known (Or.inl rfl) (Or.inl rfl)
    · exact recipientFinding_ok known hfields.1 hfields.2
  unfold Anomaly.analyze
  simp only [hamount, hrecipient, Fallible.result_ok_bind]
  generalize historicalBehavior.getD [] = history
  by_cases hempty : history = []
  · rw [hempty]
    exact iff_of_true ⟨_, rfl⟩ (Or.inl rfl)
  · have hsome : ¬ history.isEmpty = true := by
      rw [List.isEmpty_iff]
      exact hempty
    rw [if_neg hsome, or_iff_right hempty]
    constructor
    · intro h
      obtain ⟨anomaly, h⟩ := h
      obtain ⟨deviation, hdeviation, h⟩ := Fallible.result_bind_eq_ok.mp h
      obtain ⟨known, hknown, -⟩ := Fallible.result_bind_eq_ok.mp h
      constructor
      · exact hashableMembers_ok_iff.mp ⟨known, hknown⟩
      · intro fields hfields
        rw [hamount, Except.ok.injEq] at hfields
        rw [← hfields]
        exact amountFinding_ok_iff.mp ⟨deviation, hdeviation⟩
    · intro h
      obtain ⟨known, hknown⟩ := hashableMembers_ok_iff.mpr h.known
      obtain ⟨deviation, hdeviation⟩ :=
        amountFinding_ok_iff.mpr (h.ratio amount hamount)
      obtain ⟨novelty, hnovelty⟩ := hnovelty known
      rw [hdeviation, Fallible.result_ok_bind, hknown,
        Fallible.result_ok_bind, hnovelty, Fallible.result_ok_bind]
      exact ⟨_, rfl⟩

/-! ## Redirections are caught -/

/-- The assessment reports a redirection in every stage. -/
structure Reported (assessment : SecurityAssessment) : Prop where
  intent : assessment.intentVerification.status = .fail
  threat : Threats.Severity.severe assessment.threatAssessment.severity = true
  risk : assessment.riskAssessment.level = .high ∨
    assessment.riskAssessment.level = .critical
  handling : assessment.overallAssessment.recommendedHandling =
    .denyRecommended

/-- The inputs that the intent and the proposal do not fix are readable. -/
structure StagesReadable (py : AnalysisPython) (req : AnalyzeRequest) :
    Prop where
  ids : TextIds py req
  context : ContextReadable (req.recipientContext.getD [])
  history : req.historicalBehavior.getD [] = [] ∨
    HistoryReadable py req.proposal (req.historicalBehavior.getD [])

theorem failed_level {intentV : IntentVerifier.IntentVerificationResult}
    {threat : Threats.ThreatAssessment}
    {reputation : Reputation.ReputationAssessment}
    {anomaly : Anomaly.AnomalyAssessment} (h : intentV.status = .fail) :
    (Risk.aggregate intentV threat reputation anomaly).level = .high ∨
      (Risk.aggregate intentV threat reputation anomaly).level =
        .critical := by
  have hblocking : Risk.blocking intentV.status threat.severity = true := by
    rw [h]
    rfl
  have hscore : 4 / 5 ≤ Risk.scoreOf intentV.status threat.severity
      reputation.level anomaly.level := by
    unfold Risk.scoreOf
    rw [if_pos hblocking]
    have hfloor : (4 / 5 : ℚ) ≤ 17 / 20 := by norm_num
    exact hfloor.trans (le_max_right _ _)
  have hknown : Risk.unknown intentV.status reputation.dataQuality
      anomaly.level = false := by
    rw [h]
    rfl
  simp only [Risk.aggregate, hknown, Bool.false_eq_true, if_false,
    Risk.levelOfScore, if_pos hscore]
  split
  · exact Or.inr rfl
  · exact Or.inl rfl

theorem getD_of_get {fields : PyDict} {key text : String} {default : PyValue}
    (h : fields.get key = .str text) :
    fields.getD key default = .str text := by
  unfold PyDict.get PyDict.getD at *
  cases hfield : fields.lookup key with
  | none =>
      rw [hfield] at h
      cases h
  | some value =>
      rw [hfield] at h
      exact h

theorem Redirected.reported_iff (h : Redirected py req insights)
    (hshows : Retrieval.Shows insights req.trajectory)
    (hintent : ValidIntent req.intent)
    (hproposal : ValidProposal req.proposal) :
    (∃ assessment, analyze py provider req = .ok assessment ∧
        Reported assessment) ↔ StagesReadable py req := by
  have hfail := @Redirected.fails py provider req insights h hintent hproposal
  have hsevere := @Redirected.severe_iff py provider req insights h hshows
  have hreputation := @reputation_ok_iff py req.recipientContext
    ((req.proposal.get "recipient").orElse (.dict []))
    (orElse_dict hproposal.recipient)
  have hanomaly := @anomaly_ok_iff py req.proposal req.historicalBehavior
    hproposal
  constructor
  · intro hreported
    obtain ⟨assessment, hassessment, hreported⟩ := hreported
    obtain ⟨reputation, anomaly, hfound, hmeasured, -⟩ :=
      stages_of_analyze hassessment
    have hthreat := hreported.threat
    rw [threat_of_analyze hassessment] at hthreat
    exact ⟨hsevere.mp hthreat, hreputation.mp ⟨reputation, hfound⟩,
      hanomaly.mp ⟨anomaly, hmeasured⟩⟩
  · intro hreadable
    obtain ⟨reputation, hfound⟩ := hreputation.mpr hreadable.context
    obtain ⟨anomaly, hmeasured⟩ := hanomaly.mpr hreadable.history
    obtain ⟨proposalId, hproposalId⟩ := hproposal.proposalId
    have hproposalId' := @getD_of_get _ _ _ (.str "unknown") hproposalId
    cases hassessment : analyze py provider req with
    | error e =>
        rw [analyze, reputationNode, hfound, Fallible.result_ok_bind,
          anomalyNode, hmeasured, Fallible.result_ok_bind, assemble,
          hproposalId'] at hassessment
        cases hassessment
    | ok assessment =>
        refine ⟨assessment, rfl, ?_⟩
        have hdenies := (analyze_denies_iff hassessment).mpr (Or.inl hfail)
        have hthreat := hsevere.mpr hreadable.ids
        rw [← threat_of_analyze hassessment] at hthreat
        obtain ⟨reputation, anomaly, -, -, hassembled⟩ :=
          stages_of_analyze hassessment
        obtain ⟨proposalId, -, hassembled⟩ :=
          Fallible.result_bind_eq_ok.mp hassembled
        cases hassembled
        exact ⟨hfail, hthreat, failed_level hfail, hdenies⟩

/-- The flags are exact, and what they show is reported whatever the model
answers. -/
structure CatchesRedirection (py : AnalysisPython) (req : AnalyzeRequest) :
    Prop where
  flags : FlagsExact py.toPython req.trajectory
  reported : ∀ insights, Redirected py req insights →
    ∀ provider, ∃ assessment, analyze py provider req = .ok assessment ∧
      Reported assessment

/-- Redirections are caught exactly when no earlier change masks a change
after untrusted content and the inputs of a redirection are readable. -/
theorem catches_redirection_iff (hpy : OrdersIntegers py.toPython)
    (hintent : ValidIntent req.intent)
    (hproposal : ValidProposal req.proposal)
    (hsequenced : Sequenced req.trajectory) :
    CatchesRedirection py req ↔
      (∀ event ∈ req.trajectory, Readable event) ∧
        ¬ Masked recipientChange req.trajectory ∧
        ¬ Masked amountChange req.trajectory ∧
        (ChangedAfter recipientChange req.trajectory →
          recipientInIntent py.toPython req.intent req.proposal = .ok false →
            StagesReadable py req) := by
  have hflags := Retrieval.flagsExact_iff hpy hsequenced
  constructor
  · intro hcatches
    obtain ⟨hreadable, hrecipient, hamount⟩ := hflags.mp hcatches.flags
    refine ⟨hreadable, hrecipient, hamount, ?_⟩
    intro hchanged habsent
    obtain ⟨insights, hinsights, hflag, -⟩ := hcatches.flags
    have hredirected : Redirected py req insights :=
      ⟨hinsights, hflag.mpr hchanged, habsent⟩
    have hshows := Retrieval.shows_of_analyze hpy hsequenced hinsights
    apply (hredirected.reported_iff hshows hintent hproposal).mp
    exact hcatches.reported insights hredirected none
  · intro h
    obtain ⟨hreadable, hrecipient, hamount, hstages⟩ := h
    have hexact := hflags.mpr ⟨hreadable, hrecipient, hamount⟩
    refine ⟨hexact, ?_⟩
    intro insights hredirected provider
    have hshows := Retrieval.shows_of_analyze hpy hsequenced
      hredirected.found
    have hflag := hredirected.flag
    rw [hshows.recipient] at hflag
    apply (hredirected.reported_iff hshows hintent hproposal).mpr
    exact hstages (Retrieval.changedAfter_of_first hflag) hredirected.absent

/-! ## A masked change -/

/-- `a >= b` of two integers. -/
def compareInts : PyValue → PyValue → Option Bool
  | .int a, .int b => some (decide (b ≤ a))
  | _, _ => none

/-- The library on plain texts, with the order of the integers. -/
def orderingPython : AnalysisPython :=
  { samplePython with
    toPython := { IntentVerifier.samplePython with ge := compareInts } }

theorem ordersIntegers_ordering : OrdersIntegers orderingPython.toPython :=
  fun _ _ => rfl

/-- An intent to buy market data. -/
def dataIntent : PyDict :=
  [("user_goal", .str "buy market data"), ("purpose", .str "market data"),
    ("desired_outcome", .str "a report")]

/-- A payment to someone else. -/
def casinoProposal : PyDict :=
  [("proposal_id", .str "p1"),
    ("recipient", .dict [("identifier", .str "casino")])]

def trustedChange (n : ℤ) : PyDict :=
  [("event_id", .str "change"), ("event_type", .str "RECIPIENT_CHANGE"),
    ("sequence", .int n)]

def untrustedContent (n : ℤ) : PyDict :=
  [("event_id", .str "page"), ("event_type", .str "CONTENT"),
    ("sequence", .int n),
    ("trust_context", .dict [("trust_level", .str "UNTRUSTED")])]

def requestWith (trajectory : List PyDict) : AnalyzeRequest where
  intent := dataIntent
  proposal := casinoProposal
  trajectory := trajectory
  evidence := []
  recipientContext := none
  historicalBehavior := none

theorem validIntent_data : ValidIntent dataIntent where
  userGoal := ⟨_, rfl⟩
  purpose := ⟨_, rfl⟩
  desiredOutcome := ⟨_, rfl⟩
  constraints := ⟨[], rfl⟩
  budget := Or.inl rfl

theorem validProposal_casino : ValidProposal casinoProposal where
  proposalId := ⟨_, rfl⟩
  recipient := Or.inr ⟨_, rfl, Or.inr ⟨_, rfl⟩, Or.inl rfl⟩
  amount := Or.inl rfl
  evidenceIds := ⟨[], rfl⟩

/-- The recipient changes, untrusted content is read and it changes again. -/
def maskedTrajectory : List PyDict :=
  [trustedChange 0, untrustedContent 1, trustedChange 2]

theorem sequenced_masked : Sequenced maskedTrajectory := by
  constructor
  · intro event hevent
    simp only [maskedTrajectory, List.mem_cons, List.not_mem_nil,
      or_false] at hevent
    rcases hevent with rfl | rfl | rfl <;> rfl
  · decide

theorem masked_redirection_missed :
    OrdersIntegers orderingPython.toPython ∧
      ValidIntent dataIntent ∧ ValidProposal casinoProposal ∧
      Sequenced maskedTrajectory ∧
      ChangedAfter recipientChange maskedTrajectory ∧
      ¬ CatchesRedirection orderingPython (requestWith maskedTrajectory) := by
  have hafter : ChangedAfter recipientChange maskedTrajectory := by
    refine ⟨untrustedContent 1, ?_, trustedChange 2, ?_, rfl, rfl, ?_⟩
    · exact List.mem_cons_of_mem _ List.mem_cons_self
    · exact List.mem_cons_of_mem _ (List.mem_cons_of_mem _
        List.mem_cons_self)
    · decide
  refine ⟨ordersIntegers_ordering, validIntent_data, validProposal_casino,
    sequenced_masked, hafter, ?_⟩
  intro hcatches
  obtain ⟨insights, hinsights, hflag, -⟩ := hcatches.flags
  have hset := hflag.mpr hafter
  cases hinsights
  cases hset

/-- Untrusted content is read and the recipient changes. -/
def redirectedTrajectory : List PyDict := [untrustedContent 0, trustedChange 1]

theorem sequenced_redirected : Sequenced redirectedTrajectory := by
  constructor
  · intro event hevent
    simp only [redirectedTrajectory, List.mem_cons, List.not_mem_nil,
      or_false] at hevent
    rcases hevent with rfl | rfl <;> rfl
  · decide

theorem sample_redirection_caught :
    (∃ insights, Redirected orderingPython (requestWith redirectedTrajectory)
        insights) ∧
      CatchesRedirection orderingPython
        (requestWith redirectedTrajectory) := by
  refine ⟨⟨_, rfl, rfl, ?_⟩, (catches_redirection_iff
    ordersIntegers_ordering validIntent_data validProposal_casino
    sequenced_redirected).mpr ⟨?_, ?_, ?_, ?_⟩⟩
  · decide
  · intro event hevent
    simp only [requestWith, redirectedTrajectory, List.mem_cons,
      List.not_mem_nil, or_false] at hevent
    rcases hevent with rfl | rfl
    · exact ⟨_, rfl⟩
    · exact ⟨_, rfl⟩
  · apply (sequenced_redirected.changedFirst_iff _).mp
    exact iff_of_true rfl (Retrieval.changedAfter_of_first rfl)
  · intro hmasked
    obtain ⟨-, change, hmem, htype, -⟩ := hmasked
    simp only [requestWith, redirectedTrajectory, List.mem_cons,
      List.not_mem_nil, or_false] at hmem
    rcases hmem with rfl | rfl
    · cases htype
    · cases htype
  · intro _ _
    refine ⟨⟨?_, ?_⟩, Or.inl rfl, Or.inl rfl⟩
    · intro item hitem
      exact absurd hitem List.not_mem_nil
    · intro event hevent _ _
      simp only [requestWith, redirectedTrajectory, List.mem_cons,
        List.not_mem_nil, or_false] at hevent
      rcases hevent with rfl | rfl
      · rfl
      · rfl

end SecurityPipeline
end Orvex
