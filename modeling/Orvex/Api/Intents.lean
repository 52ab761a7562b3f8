import Orvex.Api.Bindings

/-!
# Expired and unconfirmed intents

Final revalidation reads the status of the intent, and its `valid_until`
where that is a date.  Recording a decision reads neither.
-/

namespace Orvex
namespace Api

open Revalidation (RevalidateInput RevalidationOutcome MintIds revalidate
  intentValid intentValid_eq_true)

/-- The intent is VALID, and its `valid_until` is an instant after `now`. -/
def IntentCurrent (rt : Runtime) (intent : Intent) (now : ℤ) : Prop :=
  intent.status = .valid ∧
    ∃ validUntil, rt.parseDate intent.validUntil = some validUntil ∧
      now < validUntil

theorem intentCurrent_iff {rt : Runtime} {intent : Intent} {now : ℤ} :
    IntentCurrent rt intent now ↔
      intentValid rt intent now = true ∧
        (rt.parseDate intent.validUntil).isSome = true := by
  unfold IntentCurrent
  rw [intentValid_eq_true]
  constructor
  · rintro ⟨hstatus, validUntil, hparse, hahead⟩
    refine ⟨⟨hstatus, ?_⟩, ?_⟩
    · intro other hother
      have hsame : validUntil = other :=
        Option.some.inj (hparse.symm.trans hother)
      rwa [← hsame]
    · rw [hparse]
      rfl
  · rintro ⟨⟨hstatus, hahead⟩, hsome⟩
    obtain ⟨validUntil, hparse⟩ := Option.isSome_iff_exists.mp hsome
    exact ⟨hstatus, validUntil, hparse, hahead validUntil hparse⟩

/-! ## Decisions do not read the status -/

/-- The intent with another status and another end. -/
def withStatus (intent : Intent) (status : IntentStatus)
    (validUntil : String) : Intent :=
  { intent with status := status, validUntil := validUntil }

def withIntent (body : DecisionBody) (intent : Intent) : DecisionBody :=
  { body with intent := intent }

/-- A context with another intent. -/
def contextWith (intent : Intent) (context : Orchestrator.DecisionContext) :
    Orchestrator.DecisionContext :=
  { context with intent := intent }

theorem orchestrate_withStatus (rt : Runtime)
    (input : Orchestrator.OrchestrateInput) (status : IntentStatus)
    (validUntil : String) (now : ℤ) (db : Database) :
    Orchestrator.orchestrate rt providers
        { input with intent := withStatus input.intent status validUntil }
        now db =
      (Orchestrator.orchestrate rt providers input now db).map
        (contextWith (withStatus input.intent status validUntil)) := by
  unfold Orchestrator.orchestrate
  simp only [Fallible.result_bind_map]
  rfl

/-- The answer and the effect of a decision call do not depend on the status
and the end of the intent. -/
theorem postDecisions_withStatus (rt : Runtime) (auth : AuthContext)
    (body : DecisionBody) (status : IntentStatus) (validUntil : String)
    (now : ℤ) (ids : DecisionIds) (db : Database) :
    postDecisions rt auth
        (withIntent body (withStatus body.intent status validUntil)) now ids
        db = postDecisions rt auth body now ids db := by
  have hcontext := orchestrate_withStatus rt (orchestrateInput auth body)
    status validUntil now db
  have hinput : orchestrateInput auth
      (withIntent body (withStatus body.intent status validUntil)) =
        { orchestrateInput auth body with
          intent := withStatus (orchestrateInput auth body).intent status
            validUntil } := rfl
  unfold postDecisions
  rw [hinput]
  cases hread : Orchestrator.orchestrate rt providers
      (orchestrateInput auth body) now db with
  | error failure =>
      rw [hread] at hcontext
      rw [Fallible.bind_of_error (reading_of_error hcontext),
        Fallible.bind_of_error (reading_of_error hread)]
  | ok context =>
      rw [hread] at hcontext
      rw [Fallible.bind_of_ok (reading_eq_ok.mpr ⟨hcontext, rfl⟩),
        Fallible.bind_of_ok (reading_eq_ok.mpr ⟨hread, rfl⟩)]
      rfl

/-- The intent of a decision call after it has expired. -/
def withExpired (body : DecisionBody) : DecisionBody :=
  withIntent body (withStatus body.intent .expired body.intent.validUntil)

/-- The answer of a decision call is the same for every status and end of its
intent, so that the intents of the decisions allowed in a state are all
current only where none is allowed.  The intent of an ALLOW of final
revalidation is current exactly when its end is a date. -/
theorem intent_current_iff (rt : Runtime) :
    (∀ (auth : AuthContext) (body : DecisionBody) (status : IntentStatus)
      (validUntil : String) (now : ℤ) (ids : DecisionIds) (db : Database),
      postDecisions rt auth
          (withIntent body (withStatus body.intent status validUntil)) now
          ids db =
        postDecisions rt auth body now ids db) ∧
    (∀ (auth : AuthContext) (now : ℤ) (ids : DecisionIds) (db : Database),
      (∀ (body : DecisionBody) (response : DecisionResponse)
        (db' : Database),
        postDecisions rt auth body now ids db = (.ok response, db') →
        response.result = .allow → IntentCurrent rt body.intent now) ↔
      ∀ (body : DecisionBody) (response : DecisionResponse)
        (db' : Database),
        postDecisions rt auth body now ids db = (.ok response, db') →
        response.result ≠ .allow) ∧
    (∀ (input : RevalidateInput) (now : ℤ) (ids : MintIds)
      (db db' : Database) (outcome : RevalidationOutcome),
      revalidate rt input now ids db = (.ok outcome, db') →
      outcome.result = .allow →
      (IntentCurrent rt input.intent now ↔
        (rt.parseDate input.intent.validUntil).isSome = true)) := by
  refine ⟨?_, ?_, ?_⟩
  · exact postDecisions_withStatus rt
  · intro auth now ids db
    constructor
    · intro hlaw body response db' hrun hallow
      rw [← postDecisions_withStatus rt auth body .expired
        body.intent.validUntil] at hrun
      have hcurrent := hlaw (withExpired body) response db' hrun hallow
      exact absurd hcurrent.1 (by simp [withExpired, withIntent, withStatus])
    · intro hnone body response db' hrun hallow
      exact absurd hallow (hnone body response db' hrun)
  · intro input now ids db db' outcome hrun hallow
    obtain ⟨state, _, hcleared, _⟩ := Revalidation.mint_of_allow hrun hallow
    have hvalid : intentValid rt input.intent now = true := hcleared.intent
    rw [intentCurrent_iff]
    constructor
    · exact fun h => h.2
    · exact fun h => ⟨hvalid, h⟩

theorem sample_intent_current :
    (∃ body response db',
      postDecisions .reference sampleAuth body Revalidation.sampleNow
        sampleDecisionIds (Revalidation.sampleDatabase []) =
          (.ok response, db') ∧
      response.result = .allow ∧
      ¬ IntentCurrent .reference body.intent Revalidation.sampleNow) ∧
    ∃ outcome db',
      revalidate .reference Revalidation.samplePayment Revalidation.sampleNow
        Revalidation.sampleIds (Revalidation.sampleDatabase []) =
          (.ok outcome, db') ∧
      IntentCurrent .reference Revalidation.samplePayment.intent
        Revalidation.sampleNow := by
  obtain ⟨_, hdecisions, hrevalidations⟩ := intent_current_iff .reference
  constructor
  · obtain ⟨response, db', hrun, hallow⟩ := sample_decision_allowed
    by_contra hnone
    refine (hdecisions _ _ _ _).mp ?_ _ _ _ hrun hallow
    intro body other db'' hother hallowed
    by_contra hstale
    exact hnone ⟨body, other, db'', hother, hallowed, hstale⟩
  · obtain ⟨outcome, db', hrun, hallow⟩ := sample_payment_allowed
    exact ⟨outcome, db', hrun, (hrevalidations _ _ _ _ _ _ hrun hallow).mpr
      (by decide)⟩

/-- The sample with an intent that has expired, for a decision, and with one
whose end is no date, for a payment. -/
def expiredDecision : DecisionBody :=
  withIntent sampleDecision (withStatus Revalidation.sampleIntent .expired
    "2025-01-01T00:00:00.000Z")

def endlessPayment : RevalidateInput :=
  Revalidation.simulated .reference
    { Revalidation.sampleInput with
      intent := withStatus Revalidation.sampleIntent .valid "whenever" }

theorem expired_intent_authorized :
    (∃ response db',
      postDecisions .reference sampleAuth expiredDecision
        Revalidation.sampleNow sampleDecisionIds
        (Revalidation.sampleDatabase []) = (.ok response, db') ∧
      response.result = .allow ∧
        ¬ IntentCurrent .reference expiredDecision.intent
          Revalidation.sampleNow) ∧
    ∃ outcome db',
      revalidate .reference endlessPayment Revalidation.sampleNow
        Revalidation.sampleIds (Revalidation.sampleDatabase []) =
          (.ok outcome, db') ∧
      outcome.result = .allow ∧
        ¬ IntentCurrent .reference endlessPayment.intent
          Revalidation.sampleNow := by
  constructor
  · have hvalue : (Fallible.value? (postDecisions .reference sampleAuth
        expiredDecision Revalidation.sampleNow sampleDecisionIds)
        (Revalidation.sampleDatabase [])).map DecisionResponse.result =
          some .allow := by
      decide
    obtain ⟨response, db', hrun, hallow⟩ := Fallible.exists_ok_of_value hvalue
    refine ⟨response, db', hrun, hallow, ?_⟩
    rintro ⟨hstatus, _⟩
    exact absurd hstatus (by decide)
  · have hplain : Revalidation.Plain .reference endlessPayment
        Revalidation.sampleNow :=
      ⟨by decide, by decide, ⟨rfl, rfl⟩, rfl, rfl, rfl, rfl,
        rfl⟩
    have hready : (Revalidation.resolve .reference endlessPayment
        Revalidation.sampleNow (Revalidation.sampleDatabase
          [])).toOption.map Revalidation.Resolved.ready = some true := by
      decide
    have hamount : Reference.decimal? endlessPayment.amount = some 10 := by
      decide
    obtain ⟨state, db', _, _, hrun⟩ :=
      Revalidation.minted_of_plain hplain hready
        (Revalidation.sample_mint ⟨rfl, rfl, rfl, rfl, rfl⟩ ⟨rfl, rfl, rfl⟩
          hamount (by norm_num))
    refine ⟨_, db', hrun, rfl, ?_⟩
    rintro ⟨_, validUntil, hparse, _⟩
    have hnone : Runtime.reference.parseDate "whenever" = none := by
      decide
    have hsome : Runtime.reference.parseDate "whenever" =
        some validUntil := hparse
    rw [hnone] at hsome
    exact absurd hsome (by simp)

end Api
end Orvex
