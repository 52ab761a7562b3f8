import Orvex.Core.Reference
import Orvex.Foundation.Action
import Orvex.Security.IntentVerifier

/-!
# A reported mismatch

A hard violation fails, a proposal without an amount or a recipient does not
pass, and a mismatch that the model reports does not pass, unless the handler
of the answer or the validation of the result gets in between.
-/

namespace Orvex
namespace IntentVerifier

/-- All members are texts. -/
def AllTexts (values : List PyValue) : Prop :=
  ∀ value ∈ values, value.isStr = true

theorem allTexts_map (texts : List String) :
    AllTexts (texts.map PyValue.str) := by
  intro value hmem
  obtain ⟨text, -, htext⟩ := List.mem_map.mp hmem
  rw [← htext]
  rfl

theorem allTexts_append {values values' : List PyValue} :
    AllTexts (values ++ values') ↔ AllTexts values ∧ AllTexts values' := by
  simp [AllTexts, or_imp, forall_and]

/-! ## The validation of a result -/

theorem requireTexts_ok_iff {values : List PyValue} :
    (∃ texts, requireTexts values = .ok texts) ↔ AllTexts values := by
  induction values with
  | nil => simp [requireTexts, AllTexts]
  | cons value rest ih =>
      have hsplit : AllTexts (value :: rest) ↔
          value.isStr = true ∧ AllTexts rest := List.forall_mem_cons
      rw [hsplit, ← ih]
      cases value with
      | str s =>
          rw [requireTexts]
          cases requireTexts rest with
          | error e => simp [Except.map, PyValue.isStr]
          | ok texts => simp [Except.map, PyValue.isStr]
      | _ => simp [requireTexts, PyValue.isStr]

theorem result_status {status : Status} {intentMatch : Bool}
    {score confidence : PyFloat} {dimensions : List (String × ℚ)}
    {violations : List String} {reasons evidenceIds : List PyValue}
    {verdict : IntentVerificationResult}
    (h : result status intentMatch score dimensions violations reasons
      evidenceIds confidence = .ok verdict) : verdict.status = status := by
  unfold result at h
  obtain ⟨texts, -, h⟩ := Fallible.result_bind_eq_ok.mp h
  obtain ⟨ids, -, h⟩ := Fallible.result_bind_eq_ok.mp h
  rw [← Except.ok.inj h]

/-- A result is made exactly when its reasons and evidence ids are texts. -/
theorem result_ok_iff {status : Status} {intentMatch : Bool}
    {score confidence : PyFloat} {dimensions : List (String × ℚ)}
    {violations : List String} {reasons evidenceIds : List PyValue} :
    (∃ verdict, result status intentMatch score dimensions violations reasons
      evidenceIds confidence = .ok verdict) ↔
        AllTexts reasons ∧ AllTexts evidenceIds := by
  rw [← requireTexts_ok_iff, ← requireTexts_ok_iff]
  unfold result
  constructor
  · intro h
    obtain ⟨verdict, h⟩ := h
    obtain ⟨texts, htexts, h⟩ := Fallible.result_bind_eq_ok.mp h
    obtain ⟨ids, hids, -⟩ := Fallible.result_bind_eq_ok.mp h
    exact ⟨⟨texts, htexts⟩, ids, hids⟩
  · intro h
    obtain ⟨⟨texts, htexts⟩, ids, hids⟩ := h
    rw [htexts, Fallible.result_ok_bind, hids, Fallible.result_ok_bind]
    exact ⟨_, rfl⟩

variable {py : Python} {checks : Checks}

/-- What the checks conclude is returned when the evidence ids are texts. -/
theorem checked_returns_iff {status : Status} {confidence : ℚ} :
    (∃ verdict, checked checks status confidence = .ok verdict ∧
      verdict.status = status) ↔ AllTexts checks.evidenceIds := by
  have hmade := @result_ok_iff status false (.finite checks.score)
    (.finite confidence) checks.dimensions checks.violations
    (checks.reasons.map .str) checks.evidenceIds
  unfold checked
  constructor
  · intro h
    obtain ⟨verdict, hverdict, -⟩ := h
    exact (hmade.mp ⟨verdict, hverdict⟩).2
  · intro htexts
    obtain ⟨verdict, hverdict⟩ := hmade.mpr ⟨allTexts_map _, htexts⟩
    exact ⟨verdict, hverdict, result_status hverdict⟩

theorem checked_status {status : Status} {confidence : ℚ}
    {verdict : IntentVerificationResult}
    (h : checked checks status confidence = .ok verdict) :
    verdict.status = status :=
  result_status h

theorem unavailable_returns_iff {score : PyFloat} {reasons : List PyValue} :
    (∃ verdict, unavailable checks score reasons = .ok verdict) ↔
      AllTexts reasons ∧ AllTexts checks.evidenceIds := by
  unfold unavailable
  rw [result_ok_iff, allTexts_append]
  have hreason : AllTexts [PyValue.str unavailableReason] :=
    allTexts_map [unavailableReason]
  simp [hreason]

/-! ## The answer of the model -/

/-- The score and the confidence of the answer, where it gives them, convert
to floats. -/
def Convertible (py : Python) (answer : PyDict) : Prop :=
  (∃ score, (answer.getD "score" (.float (.finite (7 / 10)))).toFloat py =
      .ok score) ∧
    ∃ confidence,
      (answer.getD "confidence" (.float (.finite (3 / 5)))).toFloat py =
        .ok confidence

/-- The mismatch field of the answer is truthy. -/
def ReportsMismatch (answer : PyDict) : Prop :=
  (answer.getD "mismatch" (.bool false)).truthy = true

theorem semanticAlignment_ok_iff {answer : PyDict} :
    (∃ semantic, semanticAlignment py answer = .ok semantic) ↔
      Convertible py answer := by
  unfold semanticAlignment
  constructor
  · intro h
    obtain ⟨semantic, h⟩ := h
    obtain ⟨score, hscore, h⟩ := Fallible.result_bind_eq_ok.mp h
    obtain ⟨confidence, hconfidence, -⟩ := Fallible.result_bind_eq_ok.mp h
    exact ⟨⟨score, hscore⟩, confidence, hconfidence⟩
  · intro h
    obtain ⟨⟨score, hscore⟩, confidence, hconfidence⟩ := h
    rw [hscore, Fallible.result_ok_bind, hconfidence, Fallible.result_ok_bind]
    exact ⟨_, rfl⟩

theorem mismatch_of_semantic {answer : PyDict} {semantic : Semantic}
    (h : semanticAlignment py answer = .ok semantic) :
    semantic.mismatch = (answer.getD "mismatch" (.bool false)).truthy := by
  unfold semanticAlignment at h
  obtain ⟨score, -, h⟩ := Fallible.result_bind_eq_ok.mp h
  obtain ⟨confidence, -, h⟩ := Fallible.result_bind_eq_ok.mp h
  rw [← Except.ok.inj h]

/-- A reported mismatch passes exactly when the answer cannot be converted
and the result of the handler validates. -/
theorem refined_passes_iff {answer : PyDict} (hreports : ReportsMismatch answer) :
    (∃ verdict, refined py checks (.ok answer) = .ok verdict ∧
      verdict.status = .pass) ↔
        ¬ Convertible py answer ∧ AllTexts checks.evidenceIds := by
  rw [← semanticAlignment_ok_iff]
  have hbind : Except.bind (.ok answer) (semanticAlignment py) =
      semanticAlignment py answer := rfl
  unfold refined
  simp only [hbind]
  cases hsemantic : semanticAlignment py answer with
  | error e =>
      have hmade := @unavailable_returns_iff checks (.finite checks.score)
        (checks.reasons.map .str)
      constructor
      · intro h
        obtain ⟨verdict, hverdict, -⟩ := h
        refine ⟨?_, (hmade.mp ⟨verdict, hverdict⟩).2⟩
        intro hconverted
        obtain ⟨semantic, hconverted⟩ := hconverted
        cases hconverted
      · intro h
        obtain ⟨verdict, hverdict⟩ := hmade.mpr ⟨allTexts_map _, h.2⟩
        exact ⟨verdict, hverdict, result_status hverdict⟩
  | ok semantic =>
      have hmismatch : semantic.mismatch = true := by
        rw [mismatch_of_semantic hsemantic]
        exact hreports
      simp only [hmismatch, if_true]
      constructor
      · intro h
        obtain ⟨verdict, hverdict, hpass⟩ := h
        exfalso
        split at hverdict
        next made hmade =>
          rw [← Except.ok.inj hverdict, result_status hmade] at hpass
          cases hpass
        next failure hmade =>
          -- What the constructor rejects the handler cannot build either.
          have htexts := unavailable_returns_iff.mp ⟨verdict, hverdict⟩
          obtain ⟨made, hmade'⟩ := result_ok_iff.mpr htexts
          rw [hmade] at hmade'
          cases hmade'
      · intro h
        exact absurd ⟨semantic, rfl⟩ h.1

/-! ## What is missing from a proposal -/

/-- The proposal has no amount that is a finite decimal. -/
def MissingAmount (py : Python) (proposal : PyDict) : Prop :=
  ∃ amount, proposal.getDict "amount" = .ok amount ∧
    toDecimal py (amount.get "value") = none

/-- The recipient of the proposal has neither an address nor an
identifier. -/
def MissingRecipient (py : Python) (proposal : PyDict) : Prop :=
  ∃ recipient address identifier,
    proposal.getDict "recipient" = .ok recipient ∧
      recipient.getText "address" = .ok address ∧
      recipient.getText "identifier" = .ok identifier ∧
      py.lower address = "" ∧ py.lower identifier = ""

theorem incomplete_iff {intent proposal : PyDict} {trajectory : List PyDict}
    (h : deterministicChecks py intent proposal trajectory = .ok checks) :
    checks.incomplete = true ↔
      MissingAmount py proposal ∨ MissingRecipient py proposal := by
  unfold deterministicChecks at h
  obtain ⟨budget, -, h⟩ := Fallible.result_bind_eq_ok.mp h
  obtain ⟨amount, hamount, h⟩ := Fallible.result_bind_eq_ok.mp h
  obtain ⟨budgetCurrency, -, h⟩ := Fallible.result_bind_eq_ok.mp h
  obtain ⟨amountCurrency, -, h⟩ := Fallible.result_bind_eq_ok.mp h
  obtain ⟨insights, -, h⟩ := Fallible.result_bind_eq_ok.mp h
  obtain ⟨recipient, hrecipient, h⟩ := Fallible.result_bind_eq_ok.mp h
  obtain ⟨address, haddress, h⟩ := Fallible.result_bind_eq_ok.mp h
  obtain ⟨identifier, hidentifier, h⟩ := Fallible.result_bind_eq_ok.mp h
  obtain ⟨text, -, h⟩ := Fallible.result_bind_eq_ok.mp h
  obtain ⟨evidenceIds, -, h⟩ := Fallible.result_bind_eq_ok.mp h
  have hincomplete : checks.incomplete =
      !((toDecimal py (amount.get "value")).isSome &&
        (decide (py.lower identifier ≠ "") ||
          decide (py.lower address ≠ ""))) := by
    rw [← Except.ok.inj h]
  rw [hincomplete]
  have hmissingAmount : MissingAmount py proposal ↔
      toDecimal py (amount.get "value") = none := by
    unfold MissingAmount
    rw [hamount]
    simp
  have hmissingRecipient : MissingRecipient py proposal ↔
      py.lower address = "" ∧ py.lower identifier = "" := by
    unfold MissingRecipient
    rw [hrecipient]
    simp [haddress, hidentifier]
  rw [hmissingAmount, hmissingRecipient]
  cases toDecimal py (amount.get "value") with
  | none => simp
  | some value => simp [and_comm]

/-! ## Reports are respected -/

variable {provider : Option (Except PyException PyDict)}
variable {intent proposal : PyDict} {trajectory : List PyDict}

/-- A hard violation fails, a proposal without an amount or a recipient fails
or is uncertain, and a reported mismatch does not pass. -/
structure RespectsReports (py : Python)
    (provider : Option (Except PyException PyDict))
    (intent proposal : PyDict) (trajectory : List PyDict) : Prop where
  hard : ∀ checks,
    deterministicChecks py intent proposal trajectory = .ok checks →
      checks.hardFail = true →
        ∃ verdict, verify py provider intent proposal trajectory =
          .ok verdict ∧ verdict.status = .fail
  missing : MissingAmount py proposal ∨ MissingRecipient py proposal →
    ∃ verdict, verify py provider intent proposal trajectory = .ok verdict ∧
      (verdict.status = .fail ∨ verdict.status = .uncertain)
  mismatch : ∀ answer, provider = some (.ok answer) →
    ReportsMismatch answer →
      ∀ verdict, verify py provider intent proposal trajectory =
        .ok verdict → verdict.status ≠ .pass

/-- When reports are respected: a proposal that lacks something can be
checked, the evidence ids are texts when the checks conclude, and the answer
with a mismatch converts when they do not. -/
def ReportsReadable (py : Python)
    (provider : Option (Except PyException PyDict))
    (intent proposal : PyDict) (trajectory : List PyDict) : Prop :=
  match deterministicChecks py intent proposal trajectory with
  | .error _ => ¬ (MissingAmount py proposal ∨ MissingRecipient py proposal)
  | .ok checks =>
      if checks.hardFail ∨ checks.incomplete then AllTexts checks.evidenceIds
      else ∀ answer, provider = some (.ok answer) → ReportsMismatch answer →
        Convertible py answer ∨ ¬ AllTexts checks.evidenceIds

theorem verify_of_checks
    (h : deterministicChecks py intent proposal trajectory = .ok checks) :
    verify py provider intent proposal trajectory =
      if checks.hardFail then checked checks .fail (19 / 20)
      else if checks.incomplete then checked checks .uncertain (1 / 2)
      else
        provider.elim
          (passed checks (.finite checks.score)
            (checks.reasons.map PyValue.str))
          (refined py checks) := by
  unfold verify
  rw [h, Fallible.result_ok_bind]

theorem verify_of_raise {e : PyException}
    (h : deterministicChecks py intent proposal trajectory = .error e) :
    verify py provider intent proposal trajectory = .error e := by
  unfold verify
  rw [h, Fallible.result_error_bind]

/-- The verifier respects what is reported to it exactly when the reports are
readable. -/
theorem respects_reports_iff :
    RespectsReports py provider intent proposal trajectory ↔
      ReportsReadable py provider intent proposal trajectory := by
  unfold ReportsReadable
  cases hchecks : deterministicChecks py intent proposal trajectory with
  | error e =>
      have hverify := @verify_of_raise py provider intent proposal trajectory e
        hchecks
      simp only
      constructor
      · intro hrespects hmissing
        obtain ⟨verdict, hverdict, -⟩ := hrespects.missing hmissing
        rw [hverify] at hverdict
        cases hverdict
      · intro hnothing
        refine ⟨?_, fun hmissing => absurd hmissing hnothing, ?_⟩
        · intro checks hchecked
          rw [hchecks] at hchecked
          cases hchecked
        · intro answer _ _ verdict hverdict
          rw [hverify] at hverdict
          cases hverdict
  | ok checks =>
      have hverify := @verify_of_checks py checks provider intent proposal
        trajectory hchecks
      have hincomplete := incomplete_iff hchecks
      simp only
      by_cases hhard : checks.hardFail = true
      · rw [if_pos (Or.inl hhard)]
        rw [if_pos hhard] at hverify
        have hreturns := @checked_returns_iff checks .fail (19 / 20)
        constructor
        · intro hrespects
          obtain ⟨verdict, hverdict, hstatus⟩ := hrespects.hard checks hchecks
            hhard
          rw [hverify] at hverdict
          exact hreturns.mp ⟨verdict, hverdict, hstatus⟩
        · intro htexts
          obtain ⟨verdict, hverdict, hstatus⟩ := hreturns.mpr htexts
          refine ⟨fun _ _ _ => ⟨verdict, hverify.trans hverdict, hstatus⟩,
            fun _ => ⟨verdict, hverify.trans hverdict, Or.inl hstatus⟩, ?_⟩
          intro answer _ _ other hother
          rw [hverify] at hother
          rw [checked_status hother]
          decide
      · by_cases hmissing : checks.incomplete = true
        · rw [if_pos (Or.inr hmissing)]
          rw [if_neg hhard, if_pos hmissing] at hverify
          have hreturns := @checked_returns_iff checks .uncertain (1 / 2)
          constructor
          · intro hrespects
            obtain ⟨verdict, hverdict, -⟩ := hrespects.missing
              (hincomplete.mp hmissing)
            rw [hverify] at hverdict
            exact hreturns.mp ⟨verdict, hverdict, checked_status hverdict⟩
          · intro htexts
            obtain ⟨verdict, hverdict, hstatus⟩ := hreturns.mpr htexts
            refine ⟨?_,
              fun _ => ⟨verdict, hverify.trans hverdict, Or.inr hstatus⟩, ?_⟩
            · intro other hother hfail
              rw [hchecks, Except.ok.injEq] at hother
              rw [← hother] at hfail
              exact absurd hfail hhard
            · intro answer _ _ other hother
              rw [hverify] at hother
              rw [checked_status hother]
              decide
        · rw [if_neg (not_or.mpr ⟨hhard, hmissing⟩)]
          rw [if_neg hhard, if_neg hmissing] at hverify
          constructor
          · intro hrespects answer hanswer hreports
            by_contra hnot
            push Not at hnot
            obtain ⟨verdict, hverdict, hpass⟩ :=
              (@refined_passes_iff py checks answer hreports).mpr hnot
            rw [hanswer] at hverify
            subst hanswer
            exact hrespects.mismatch answer rfl hreports verdict
              (hverify.trans hverdict) hpass
          · intro hreadable
            refine ⟨?_, fun h => absurd (hincomplete.mpr h) hmissing, ?_⟩
            · intro other hother hfail
              rw [hchecks, Except.ok.injEq] at hother
              rw [← hother] at hfail
              exact absurd hfail hhard
            · intro answer hanswer hreports verdict hverdict hpass
              subst hanswer
              rw [hverify] at hverdict
              obtain ⟨hnot, htexts⟩ :=
                (refined_passes_iff hreports).mp ⟨verdict, hverdict, hpass⟩
              rcases hreadable answer rfl hreports with hconverts | hids
              · exact hnot hconverts
              · exact hids htexts

/-! ## A mismatch that passes -/

/-- The library on plain texts and small numbers. -/
def samplePython : Python where
  str := fun value =>
    match value with
    | .str s => s
    | _ => "None"
  upper := fun s => String.ofList (s.toList.map Char.toUpper)
  lower := fun s => String.ofList (s.toList.map Char.toLower)
  strip := fun s => s
  decimal := fun s =>
    (Reference.decimal? s).map (fun x => ⟨.finite x, s⟩)
  floatOfInt := fun n => some (.finite n)
  floatOfStr := fun s => (Reference.decimal? s).map .finite
  int := fun _ => none
  ge := fun _ _ => none

def sampleIntent : PyDict :=
  [("user_goal", .str "buy market data"), ("purpose", .str "market data"),
    ("budget", .dict [("maximum", .str "10"), ("currency", .str "USDC")])]

def sampleProposal : PyDict :=
  [("amount", .dict [("value", .str "9"), ("currency", .str "USDC")]),
    ("recipient", .dict [("identifier", .str "casino")]),
    ("evidence_ids", .list [])]

/-- The model reports a mismatch, with a score that is not a number. -/
def mismatchAnswer : PyDict :=
  [("score", .str "low"), ("mismatch", .bool true),
    ("reason", .str "gambling"), ("confidence", .float (.finite (9 / 10)))]

theorem reported_mismatch_passes :
    ReportsMismatch mismatchAnswer ∧
      (verify samplePython (some (.ok mismatchAnswer)) sampleIntent
          sampleProposal []).toOption.map
        IntentVerificationResult.status = some .pass := by
  constructor
  · rfl
  · decide

end IntentVerifier
end Orvex
