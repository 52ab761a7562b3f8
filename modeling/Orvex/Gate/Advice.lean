import Orvex.Financial.Repeats
import Orvex.Gate.Holds

/-!
# Advice and authority

A run whose generated ids are new follows every run of the same call: where
one mints, so does the other, with a request that differs in its id.  The
advice decides between that and a REVIEW, which writes nothing.
-/

namespace Orvex
namespace Revalidation

open Financial (lookupAccount lookupReservation)

/-! ## The same call with new ids -/

/-- No row has one of the ids. -/
structure MintIds.New (ids : MintIds) (db : Database) : Prop where
  idempotency : idempotencyTable.lookup ids.idempotency db = none
  account : lookupAccount ids.account db = none
  reservation : lookupReservation ids.reservation db = none
  executionRequest :
    executionRequestTable.lookup ids.executionRequest db = none

/-- Both outcomes carry a request, and the requests differ at most in their
ids. -/
def SameRequest (a b : RevalidationOutcome) : Prop :=
  ∃ request id, a.executionRequest = some request ∧
    b.executionRequest = some { request with id := id }

theorem authorize_of_new {rt : Runtime} {input : RevalidateInput}
    {policy : PolicyReading} {now : ℤ} {uuid reservationId : String}
    {db : Database} {res : FinancialReservation}
    (hnew : executionRequestTable.lookup uuid db = none)
    (hallowed : requestAllowed (newRequest rt input policy now uuid) db =
      true)
    (hres : reservationTable.lookup reservationId db = some res) :
    ∃ db', authorize rt input policy now uuid reservationId db =
      (.ok (minted (newRequest rt input policy now uuid) reservationId),
        db') := by
  let request := newRequest rt input policy now uuid
  have hcreate : executionRequestTable.create Failure.constraint
      (requestAllowed request) request db =
        (.ok request, executionRequestTable.insert request db) :=
    Table.create_eq_ok.mpr ⟨hnew, hallowed, rfl, rfl⟩
  have hbind : reservationTable.update Failure.recordNotFound reservationId
      (bindTo request.id) (executionRequestTable.insert request db) =
        (.ok (bindTo request.id res), reservationTable.modify reservationId
          (bindTo request.id) (executionRequestTable.insert request db)) :=
    Table.update_eq_ok.mpr ⟨res, hres, rfl, rfl⟩
  refine ⟨reservationTable.modify reservationId (bindTo request.id)
    (executionRequestTable.insert request db), ?_⟩
  unfold authorize
  rw [Fallible.bind_of_ok hcreate]
  exact Fallible.bind_of_ok hbind

theorem findExisting_of_registered {rt : Runtime} {input : RevalidateInput}
    {db mid : Database} (h : Registered db mid) :
    findExisting rt input mid = findExisting rt input db := by
  obtain ⟨records, hmid⟩ := h
  rw [hmid]
  rfl

/-- Minting goes through again with ids that are new. -/
theorem mint_again {rt : Runtime} {input : RevalidateInput}
    {policy : PolicyReading} {now : ℤ} {ids ids' : MintIds}
    {db db' : Database} {outcome : RevalidationOutcome}
    (h : mint rt input policy now ids db = (.ok outcome, db'))
    (hallow : outcome.result = .allow) (hnew : ids'.New db) :
    ∃ outcome' db'', mint rt input policy now ids' db = (.ok outcome', db'') ∧
      outcome'.result = .allow ∧ SameRequest outcome outcome' := by
  obtain ⟨mid, hmid, hend⟩ := mint_eq_ok h
  have hrecords : ∀ record,
      Idempotency.findRecord (registration rt input) db = some record →
      record.requestHash = Idempotency.requestHash rt
        (registration rt input).request := by
    unfold mint at h
    obtain ⟨answer, state, hregister, _⟩ := Fallible.bind_eq_ok.mp h
    exact Idempotency.register_eq_ok hregister
  obtain ⟨answer, mid', hregister⟩ :=
    Idempotency.register_of_new hrecords hnew.idempotency
  have hmid' : Registered db mid' := by
    have hkeeps := @registered_of_register rt (registration rt input)
      ids'.idempotency db
    rwa [hregister] at hkeeps
  have hexisting' : findExisting rt input mid' =
      findExisting rt input mid := by
    rw [findExisting_of_registered hmid', findExisting_of_registered hmid]
  rcases hend with ⟨existing, hexisting, houtcome, _⟩ | houtcome |
    ⟨hnone, res, held, hreserve, hauthorize⟩
  · refine ⟨reused existing, mid', ?_, rfl, existing, existing.id, ?_, rfl⟩
    · unfold mint
      rw [Fallible.bind_of_ok hregister, Fallible.query_bind]
      simp only [hexisting', hexisting, Fallible.pure_apply]
    · rw [houtcome]
      rfl
  · rw [houtcome] at hallow
    exact absurd hallow (by simp [budgetExceeded])
  · obtain ⟨records, rfl⟩ := hmid
    obtain ⟨records', rfl⟩ := hmid'
    obtain ⟨hnewRequest, hallowed, houtcome, _⟩ := authorize_eq_ok hauthorize
    obtain ⟨account, ensured, hensure, row, amount, stored, change,
      hreserved⟩ := Financial.reserve_eq_ok hreserve
    have hheldRequests : held.executionRequests = db.executionRequests := by
      rw [hreserved.state_eq]
      rcases Financial.ensureAccount_eq_ok hensure with ⟨_, rfl⟩ |
        ⟨_, _, _, rfl⟩
      · rfl
      · rfl
    have hheldCompanies : held.companies = db.companies := by
      rw [hreserved.state_eq]
      rcases Financial.ensureAccount_eq_ok hensure with ⟨_, rfl⟩ |
        ⟨_, _, _, rfl⟩
      · rfl
      · rfl
    obtain ⟨res', held', hreserve', hres', hrequests', hcompanies'⟩ :=
      @Financial.reserve_again rt (reserveInput input) ids.account
        ids.reservation ids'.account ids'.reservation _ held
        { db with idempotencyRecords := records' } res hreserve rfl rfl
        hnew.account hnew.reservation
    have hnew' : executionRequestTable.lookup ids'.executionRequest held' =
        none := by
      change KeyedTable.lookup _ _ held'.executionRequests = none
      rw [hrequests']
      exact hnew.executionRequest
    have hallowed' : requestAllowed (newRequest rt input policy now
        ids'.executionRequest) held' = true := by
      unfold requestAllowed companyExists at hallowed ⊢
      rw [hheldRequests, hheldCompanies] at hallowed
      rw [hrequests', hcompanies']
      exact hallowed
    obtain ⟨db'', hauthorize'⟩ := authorize_of_new hnew' hallowed' hres'
    refine ⟨minted (newRequest rt input policy now ids'.executionRequest)
      res'.id, db'', ?_, rfl, newRequest rt input policy now
        ids.executionRequest, ids'.executionRequest, ?_, rfl⟩
    · unfold mint
      rw [Fallible.bind_of_ok hregister, Fallible.query_bind]
      simp only [hexisting', hnone, Fallible.attempt_bind, hreserve']
      exact hauthorize'
    · rw [houtcome]
      rfl

/-! ## Advice that objects -/

/-- Where every check is cleared, advice that objects asks for a review. -/
theorem decide_objected {input : DecisionInput}
    {handling : RecommendedHandling}
    (hcleared : DecisionEngine.Cleared input)
    (hobjects : handling = .denyRecommended ∨ handling = .review) :
    DecisionEngine.decide
        { input with aiRecommendedHandling := some handling } =
      DecisionEngine.review "AI advisory recommends elevated review."
        "ai_advisory_review" := by
  have hclear := DecisionEngine.decide_allow_iff.mp
    (DecisionEngine.decide_allow_iff_cleared.mpr hcleared)
  -- the checks before the advice are those of the cleared input
  have hbefore : (DecisionEngine.authorityChecks input ++
      DecisionEngine.transactionChecks input ++
      DecisionEngine.freshnessChecks input ++
      DecisionEngine.approvalChecks input.approval).find? Prod.fst =
        none := by
    rw [List.find?_eq_none]
    intro check hcheck
    rw [hclear check (List.mem_append_left _ hcheck)]
    simp
  have hpolicy : (input.policyEvaluation.status == .review) = false := by
    rw [hcleared.policy]
    rfl
  have hadvice : (some handling == some RecommendedHandling.denyRecommended ||
      some handling == some .review) = true := by
    rcases hobjects with h | h <;> rw [h] <;> rfl
  have hchecks : DecisionEngine.checks
      { input with aiRecommendedHandling := some handling } =
        (DecisionEngine.authorityChecks input ++
          DecisionEngine.transactionChecks input ++
          DecisionEngine.freshnessChecks input ++
          DecisionEngine.approvalChecks input.approval) ++
        DecisionEngine.reviewChecks
          { input with aiRecommendedHandling := some handling } := rfl
  unfold DecisionEngine.decide
  rw [hchecks, List.find?_append, hbefore, Option.none_or]
  unfold DecisionEngine.reviewChecks
  rw [List.find?_cons_of_neg (by rw [hpolicy]; simp),
    List.find?_cons_of_pos (by exact hadvice)]
  rfl

/-! ## The same call with other advice -/

/-- The call with another assessment. -/
def advised (input : RevalidateInput) (assessment : SecurityAssessment) :
    RevalidateInput :=
  { input with securityAssessment := assessment }

def advice (assessment : SecurityAssessment) : RecommendedHandling :=
  assessment.overallAssessment.recommendedHandling

/-- The advice raises no objection. -/
def Proceeds (assessment : SecurityAssessment) : Prop :=
  advice assessment = .proceedCandidate ∨ advice assessment = .monitor

section

variable {rt : Runtime} {input : RevalidateInput}
  {assessment : SecurityAssessment} {now : ℤ}

theorem resolve_advised (db : Database) :
    resolve rt (advised input assessment) now db =
      resolve rt input now db := rfl

theorem freshHash_advised
    (hid : assessment.assessmentId = input.securityAssessment.assessmentId)
    (policy : PolicyReading) :
    freshHash rt (advised input assessment) policy =
      freshHash rt input policy := by
  unfold freshHash hashContext
  rw [show (advised input assessment).securityAssessment.assessmentId =
    input.securityAssessment.assessmentId from hid]
  rfl

theorem mint_advised
    (hid : assessment.assessmentId = input.securityAssessment.assessmentId)
    (policy : PolicyReading) (ids : MintIds) :
    mint rt (advised input assessment) policy now ids =
      mint rt input policy now ids := by
  have hrequest : ∀ uuid, newRequest rt (advised input assessment) policy now
      uuid = newRequest rt input policy now uuid := by
    intro uuid
    unfold newRequest
    rw [freshHash_advised hid]
    rfl
  have hauthorize : ∀ uuid id, authorize rt (advised input assessment) policy
      now uuid id = authorize rt input policy now uuid id := by
    intro uuid id
    unfold authorize
    rw [hrequest]
  unfold mint
  simp only [hauthorize]
  rfl

theorem decisionInput_advised
    (hid : assessment.assessmentId = input.securityAssessment.assessmentId)
    (hcreated : assessment.createdAt = input.securityAssessment.createdAt)
    (state : Resolved) (db : Database) :
    decisionInput rt (advised input assessment) state now db =
      { decisionInput rt input state now db with
        aiRecommendedHandling := some (advice assessment) } := by
  have hstale : assessmentStale rt (advised input assessment) now =
      assessmentStale rt input now := by
    unfold assessmentStale
    rw [show (advised input assessment).securityAssessment.createdAt =
      input.securityAssessment.createdAt from hcreated]
    rfl
  have hdrift : contextDrift rt (advised input assessment) state.policy =
      contextDrift rt input state.policy := by
    unfold contextDrift
    rw [freshHash_advised hid]
    rfl
  unfold decisionInput
  rw [hstale, hdrift]
  rfl

/-- With advice that proceeds the checks are cleared as before. -/
theorem cleared_advised
    (hid : assessment.assessmentId = input.securityAssessment.assessmentId)
    (hcreated : assessment.createdAt = input.securityAssessment.createdAt)
    {state : Resolved} {db : Database}
    (hcleared : DecisionEngine.Cleared
      (decisionInput rt input state now db))
    (hproceeds : Proceeds assessment) :
    DecisionEngine.Cleared
      (decisionInput rt (advised input assessment) state now db) := by
  rw [decisionInput_advised hid hcreated]
  have hadvisory : some (advice assessment) ≠ some .denyRecommended ∧
      some (advice assessment) ≠ some RecommendedHandling.review := by
    rcases hproceeds with h | h <;> rw [h] <;> simp
  exact
    { platform := hcleared.platform
      agent := hcleared.agent
      intent := hcleared.intent
      constitution := hcleared.constitution
      capability := hcleared.capability
      policy := hcleared.policy
      gate := hcleared.gate
      binding := hcleared.binding
      outcome := hcleared.outcome
      simulation := hcleared.simulation
      fresh := hcleared.fresh
      approval := hcleared.approval
      advisory := hadvisory }

/-- Advice that objects turns an ALLOW into a REVIEW that writes nothing. -/
theorem review_of_objection
    (hid : assessment.assessmentId = input.securityAssessment.assessmentId)
    (hcreated : assessment.createdAt = input.securityAssessment.createdAt)
    (hobjects : advice assessment = .denyRecommended ∨
      advice assessment = .review)
    {state : Resolved} {db : Database} (ids : MintIds)
    (hresolve : resolve rt input now db = .ok state)
    (hcleared : DecisionEngine.Cleared
      (decisionInput rt input state now db)) :
    revalidate rt (advised input assessment) now ids db =
      (.ok (refused (DecisionEngine.review
        "AI advisory recommends elevated review." "ai_advisory_review")),
        db) := by
  have hdecide := decide_objected hcleared hobjects
  rw [← decisionInput_advised hid hcreated] at hdecide
  refine revalidate_eq_ok.mpr ⟨state, ?_, Or.inl ⟨?_, ?_, rfl⟩⟩
  · rw [resolve_advised]
    exact hresolve
  · rw [hdecide]
    simp [DecisionEngine.review]
  · rw [hdecide]

/-- Advice that proceeds keeps an ALLOW, with the same request. -/
theorem allow_of_proceeds
    (hid : assessment.assessmentId = input.securityAssessment.assessmentId)
    (hcreated : assessment.createdAt = input.securityAssessment.createdAt)
    (hproceeds : Proceeds assessment) {ids ids' : MintIds}
    {db db' : Database} {outcome : RevalidationOutcome}
    (hnew : ids'.New db)
    (hrun : revalidate rt input now ids db = (.ok outcome, db'))
    (hallow : outcome.result = .allow) :
    ∃ outcome' db'',
      revalidate rt (advised input assessment) now ids' db =
        (.ok outcome', db'') ∧
      outcome'.result = .allow ∧ SameRequest outcome outcome' := by
  obtain ⟨state, hresolve, hcleared, hmint⟩ := mint_of_allow hrun hallow
  obtain ⟨outcome', db'', hmint', hallow', hsame⟩ :=
    mint_again hmint hallow hnew
  have hcleared' := cleared_advised hid hcreated hcleared hproceeds
  refine ⟨outcome', db'', revalidate_eq_ok.mpr ⟨state, ?_, Or.inr
    ⟨hcleared', ?_⟩⟩, hallow', hsame⟩
  · rw [resolve_advised]
    exact hresolve
  · rw [mint_advised hid]
    exact hmint'

theorem determinant_of_mint {policy : PolicyReading} {ids : MintIds}
    {db db' : Database} {outcome : RevalidationOutcome}
    (h : mint rt input policy now ids db = (.ok outcome, db')) :
    outcome.determinant ≠ "ai_advisory_review" := by
  obtain ⟨mid, _, hend⟩ := mint_eq_ok h
  rcases hend with ⟨existing, _, houtcome, _⟩ | houtcome |
    ⟨_, res, held, _, hauthorize⟩
  · rw [houtcome]
    simp [reused]
  · rw [houtcome]
    simp [budgetExceeded]
  · obtain ⟨_, _, houtcome, _⟩ := authorize_eq_ok hauthorize
    rw [houtcome]
    simp [minted]

end

/-- Advice is never authority.  Two runs from one state that differ only in
the content of the assessment agree on ALLOW unless the advice objects, and
then the answer is a REVIEW; advice makes no refused call an ALLOW; and a
refusal for the advice writes nothing. -/
theorem advice_never_authority {rt : Runtime} {input : RevalidateInput}
    {assessment : SecurityAssessment} {now : ℤ} {ids ids' : MintIds}
    {db : Database}
    (hid : assessment.assessmentId = input.securityAssessment.assessmentId)
    (hcreated : assessment.createdAt = input.securityAssessment.createdAt)
    (hnew : ids.New db) (hnew' : ids'.New db) :
    (∀ outcome db', revalidate rt input now ids db = (.ok outcome, db') →
      outcome.result = .allow →
      ∃ outcome' db'',
        revalidate rt (advised input assessment) now ids' db =
          (.ok outcome', db'') ∧
        (Proceeds assessment →
          outcome'.result = .allow ∧ SameRequest outcome outcome') ∧
        (¬ Proceeds assessment → outcome'.result = .review)) ∧
    (Proceeds input.securityAssessment →
      (¬ ∃ outcome db', revalidate rt input now ids db =
        (.ok outcome, db') ∧ outcome.result = .allow) →
      ¬ ∃ outcome db', revalidate rt (advised input assessment) now ids' db =
        (.ok outcome, db') ∧ outcome.result = .allow) ∧
    (∀ outcome db', revalidate rt input now ids db = (.ok outcome, db') →
      outcome.determinant = "ai_advisory_review" → db' = db) := by
  refine ⟨?_, ?_, ?_⟩
  · intro outcome db' hrun hallow
    by_cases hproceeds : Proceeds assessment
    · obtain ⟨outcome', db'', hrun', hallow', hsame⟩ :=
        allow_of_proceeds hid hcreated hproceeds hnew' hrun hallow
      exact ⟨outcome', db'', hrun', fun _ => ⟨hallow', hsame⟩,
        fun hobjects => absurd hproceeds hobjects⟩
    · obtain ⟨state, hresolve, hcleared, _⟩ := mint_of_allow hrun hallow
      have hobjects : advice assessment = .denyRecommended ∨
          advice assessment = .review := by
        unfold Proceeds at hproceeds
        cases hadvice : advice assessment <;> simp [hadvice] at hproceeds ⊢
      have hreview :=
        review_of_objection hid hcreated hobjects ids' hresolve hcleared
      exact ⟨_, db, hreview, fun h => absurd h hproceeds, fun _ => rfl⟩
  · rintro hproceeds hrefused ⟨outcome, db', hrun, hallow⟩
    apply hrefused
    obtain ⟨outcome', db'', hrun', hallow', _⟩ :=
      allow_of_proceeds hid.symm hcreated.symm hproceeds hnew hrun hallow
    exact ⟨outcome', db'', hrun', hallow'⟩
  · intro outcome db' hrun hdeterminant
    obtain ⟨state, _, hend⟩ := revalidate_eq_ok.mp hrun
    rcases hend with ⟨_, _, hstate⟩ | ⟨_, hmint⟩
    · exact hstate
    · exact absurd hdeterminant (determinant_of_mint hmint)

def wary : SecurityAssessment :=
  { sampleAssessment with
    overallAssessment := ⟨.highRisk, .denyRecommended⟩ }

theorem wary_advice_reviews :
    (∃ outcome db', revalidate .reference samplePayment sampleNow sampleIds
      (sampleDatabase []) = (.ok outcome, db') ∧ outcome.result = .allow) ∧
    ∃ outcome db', revalidate .reference (advised samplePayment wary)
      sampleNow sampleIds (sampleDatabase []) = (.ok outcome, db') ∧
        outcome.result = .review := by
  have hnew : sampleIds.New (sampleDatabase []) := ⟨rfl, rfl, rfl, rfl⟩
  obtain ⟨hallowed, _, _⟩ :=
    @advice_never_authority .reference samplePayment wary sampleNow sampleIds
      sampleIds _ rfl rfl hnew hnew
  have hamount : Reference.decimal? samplePayment.amount = some 10 := by
    decide
  obtain ⟨state, db', _, _, hrun⟩ :=
    minted_of_plain sample_plain sample_ready
      (sample_mint ⟨rfl, rfl, rfl, rfl, rfl⟩ ⟨rfl, rfl, rfl⟩ hamount
        (by norm_num))
  obtain ⟨outcome', db'', hrun', _, hreview⟩ := hallowed _ _ hrun rfl
  have hobjects : ¬ Proceeds wary := by
    rintro (h | h) <;> exact absurd h (by decide)
  exact ⟨⟨_, db', hrun, rfl⟩, outcome', db'', hrun', hreview hobjects⟩

end Revalidation
end Orvex
