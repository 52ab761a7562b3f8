import Orvex.Api.Bindings
import Orvex.Policy.Requirements

/-!
# What becomes of a review that was approved

A policy that asks for a human makes a decision a REVIEW.  Final
revalidation evaluates the policy again, and an approval changes nothing
about the rule that asked.
-/

namespace Orvex
namespace Api

open Revalidation (RevalidateInput RevalidationOutcome MintIds revalidate
  resolve)

/-- The reads behind the policy of the agent give the same rows. -/
structure SamePolicy (companyId agentId : String) (db db' : Database) :
    Prop where
  agent : Agents.getAgent companyId agentId db' =
    Agents.getAgent companyId agentId db
  version : ∀ policyId, Policies.getActiveVersion companyId policyId db' =
    Policies.getActiveVersion companyId policyId db
  rules : ∀ versionId, Policies.loadRules companyId versionId db' =
    Policies.loadRules companyId versionId db

/-- The input is for the agent and the proposal of the decision. -/
structure ForDecision (auth : AuthContext) (body : DecisionBody)
    (input : RevalidateInput) : Prop where
  company : input.companyId = auth.companyId
  agent : input.agentId = body.agentId
  proposal : input.proposal = body.proposal

theorem review_of_determinant {rt : Runtime} {auth : AuthContext}
    {body : DecisionBody} {now : ℤ} {ids : DecisionIds} {db mid : Database}
    {context : Orchestrator.DecisionContext} {decision : Decision}
    (h : Recorded rt auth body now ids db mid context decision)
    (hreview : decision.determinant = "policy_review") :
    context.policyEvaluation.status = .review := by
  rw [h.decision_eq] at hreview
  exact DecisionEngine.status_of_policy_review hreview

/-- The policy behind the review does not pass when it is read again. -/
theorem policy_asks_again {rt : Runtime} {auth : AuthContext}
    {body : DecisionBody} {now₀ : ℤ} {ids₀ : DecisionIds}
    {db₀ db₁ : Database} {response : DecisionResponse}
    (hdecision : postDecisions rt auth body now₀ ids₀ db₀ =
      (.ok response, db₁))
    (hreview : response.decision.determinant = "policy_review")
    {input : RevalidateInput} (hinput : ForDecision auth body input)
    {db : Database} (hrows : SamePolicy auth.companyId body.agentId db₀ db)
    {now : ℤ} {state : Revalidation.Resolved}
    (hresolve : resolve rt input now db = .ok state) :
    state.policy.status ≠ .pass := by
  intro hpass
  obtain ⟨context, mid, hrecorded, _⟩ := postDecisions_eq_ok hdecision
  have hstatus := review_of_determinant hrecorded hreview
  obtain ⟨agent, capability, policyId, version, rules, events, hassembled⟩ :=
    Orchestrator.assembled_of_orchestrate hrecorded.context_read
  have hrow : Agents.getAgent auth.companyId body.agentId db₀ =
      some agent := hassembled.agent_row
  have hversion : Policies.getActiveVersion auth.companyId policyId db₀ =
      some version := hassembled.version_row
  have hrules : Policies.loadRules auth.companyId version.id db₀ =
      .ok rules := hassembled.rules_loaded
  obtain ⟨hagent, _, _, hpolicy⟩ := Revalidation.resolve_eq_ok hresolve
  rw [hinput.company, hinput.agent, hrows.agent, hrow] at hagent
  obtain ⟨id, version', rules', evaluation, hid, _, hversion', hrules',
    hevaluated, hreading⟩ :=
    Revalidation.readPolicy_eq_ok hpolicy (by simp [hpass])
  rw [hagent, Option.bind_some, hassembled.policy_active.1,
    Option.some.injEq] at hid
  rw [hinput.company, hrows.version, ← hid, hversion,
    Option.some.injEq] at hversion'
  rw [hinput.company, hrows.rules, ← hversion', hrules,
    Except.ok.injEq] at hrules'
  rw [hreading] at hpass
  rw [← hid, ← hversion', ← hrules', hinput.proposal] at hevaluated
  have hrecipient : (Revalidation.evaluationContext rt body.proposal
      state.capability now).transaction.recipient =
        (Orchestrator.evaluationContext rt body.proposal events capability
          now₀).transaction.recipient := rfl
  have hknown : (Revalidation.evaluationContext rt body.proposal
      state.capability now).knownRecipients =
        (Orchestrator.evaluationContext rt body.proposal events capability
          now₀).knownRecipients := rfl
  exact PolicyEngine.review_never_passes hrecipient hknown
    hassembled.evaluated hstatus hevaluated hpass

/-- A decision that is a REVIEW because its policy asks for a human is never
executed, whatever the input says of an approval, while the policy of the
agent stays as it was. -/
theorem approved_review_never_allowed {rt : Runtime} {auth : AuthContext}
    {body : DecisionBody} {now₀ : ℤ} {ids₀ : DecisionIds}
    {db₀ db₁ : Database} {response : DecisionResponse}
    (hdecision : postDecisions rt auth body now₀ ids₀ db₀ =
      (.ok response, db₁))
    (hreview : response.decision.determinant = "policy_review")
    {input : RevalidateInput} (hinput : ForDecision auth body input)
    {db : Database} (hrows : SamePolicy auth.companyId body.agentId db₀ db)
    {now : ℤ} {ids : MintIds} {outcome : RevalidationOutcome}
    {db' : Database}
    (hrun : revalidate rt input now ids db = (.ok outcome, db')) :
    outcome.result ≠ .allow := by
  intro hallow
  obtain ⟨state, hresolve, hcleared, _⟩ :=
    Revalidation.mint_of_allow hrun hallow
  exact policy_asks_again hdecision hreview hinput hrows hresolve
    hcleared.policy

/-! ## A review that is approved -/

def humanRule : CompiledRule where
  ruleId := "human"
  type := .humanApproval
  priority := none
  enabled := none
  config := some (.object [])
  extra := []

def reviewDatabase : Database := Revalidation.sampleDatabase [humanRule]

/-- The payment of the sample under an approval. -/
def approvedPayment (response : DecisionResponse) : RevalidateInput :=
  { Revalidation.samplePayment with
    approvalId := response.approvalId
    decisionContextHash := response.contextHash }

theorem requestApproval_of_review {auth : AuthContext} {body : DecisionBody}
    {decision : Decision} {output : DecisionOutput} {contextHash uuid : String}
    {now : ℤ} {db db' : Database} {approvalId : Option String}
    (hreview : output.result = .review)
    (h : requestApproval auth body decision output contextHash now uuid db =
      (.ok approvalId, db')) :
    approvalId = some uuid ∧
      db' = approvalRequestTable.insert (Approvals.requestOf
        (approvalInput auth body decision output contextHash now) uuid)
        db := by
  unfold requestApproval at h
  rw [if_pos hreview] at h
  obtain ⟨request, mid, hcreate, hrest⟩ := Fallible.bind_eq_ok.mp h
  obtain ⟨_, _, _, hrequest, hmid⟩ :=
    Approvals.createRequest_eq_ok.mp hcreate
  rw [Fallible.pure_apply, Prod.mk.injEq, Except.ok.injEq] at hrest
  rw [← hrest.1, ← hrest.2, hmid, hrequest]
  exact ⟨rfl, rfl⟩

/-- The review of the sample, with the request that waits for a human. -/
structure Reviewed (response : DecisionResponse) (request : ApprovalRequest)
    (db : Database) : Prop where
  recorded : postDecisions .reference sampleAuth sampleDecision
    Revalidation.sampleNow sampleDecisionIds reviewDatabase =
      (.ok response, db)
  review : response.result = .review
  determinant : response.decision.determinant = "policy_review"
  approval : response.approvalId = some "approval-1"
  requests : db.approvalRequests = [request]
  request_eq : ∃ decision output, request = Approvals.requestOf
    (approvalInput sampleAuth sampleDecision decision output
      response.contextHash Revalidation.sampleNow) "approval-1"
  others : db = { reviewDatabase with
    decisions := db.decisions
    approvalRequests := db.approvalRequests }

theorem sample_review : ∃ response request db,
    Reviewed response request db := by
  have hvalue : (Fallible.value? (postDecisions .reference sampleAuth
      sampleDecision Revalidation.sampleNow sampleDecisionIds)
      reviewDatabase).map (fun response =>
        (response.result, response.decision.determinant)) =
          some (.review, "policy_review") := by
    decide
  obtain ⟨response, db, hrun, hresponse⟩ := Fallible.exists_ok_of_value hvalue
  rw [Prod.mk.injEq] at hresponse
  obtain ⟨context, mid, hrecorded, hresult, hhash, happroval⟩ :=
    postDecisions_eq_ok hrun
  have hreview : (decisionOutput sampleDecision
      context.policyEvaluation).result = .review :=
    hresult.symm.trans hresponse.1
  obtain ⟨hid, hstate⟩ := requestApproval_of_review hreview happroval
  rw [hrecorded.written] at hstate
  rw [← hhash] at hstate
  refine ⟨response, Approvals.requestOf
    (approvalInput sampleAuth sampleDecision response.decision
      (decisionOutput sampleDecision context.policyEvaluation)
      response.contextHash Revalidation.sampleNow) "approval-1", db, ?_⟩
  exact
    { recorded := hrun
      review := hresponse.1
      determinant := hresponse.2
      approval := hid
      requests := by
        rw [hstate]
        rfl
      request_eq := ⟨_, _, rfl⟩
      others := by
        rw [hstate]
        rfl }

/-- The payment is refused in every state that reads like the one of the
review. -/
theorem sample_refused {response : DecisionResponse}
    {request : ApprovalRequest} {db₁ db : Database}
    (h : Reviewed response request db₁)
    (hrows : SamePolicy sampleAuth.companyId sampleDecision.agentId
      reviewDatabase db)
    (hsame : resolve .reference (approvedPayment response)
      Revalidation.sampleNow db =
        resolve .reference Revalidation.samplePayment
          Revalidation.sampleNow reviewDatabase) :
    ∃ outcome,
      revalidate .reference (approvedPayment response)
        Revalidation.sampleNow Revalidation.sampleIds db =
          (.ok outcome, db) ∧
      outcome.result ≠ .allow := by
  have hready : (resolve .reference Revalidation.samplePayment
      Revalidation.sampleNow reviewDatabase).toOption.isSome = true := by
    decide
  cases hresolve : resolve .reference Revalidation.samplePayment
      Revalidation.sampleNow reviewDatabase with
  | error failure =>
      rw [hresolve] at hready
      exact absurd hready (by simp [Except.toOption])
  | ok state =>
      rw [hresolve] at hsame
      have hfor : ForDecision sampleAuth sampleDecision
          (approvedPayment response) := ⟨rfl, rfl, rfl⟩
      have hasks := policy_asks_again h.recorded h.determinant hfor hrows
        hsame
      have hrefused : (DecisionEngine.decide (Revalidation.decisionInput
          .reference (approvedPayment response) state
          Revalidation.sampleNow db)).result ≠ .allow := by
        intro hallow
        exact hasks (DecisionEngine.decide_allow_iff_cleared.mp hallow).policy
      exact ⟨_, Revalidation.revalidate_eq_ok.mpr
        ⟨state, hsame, Or.inl ⟨hrefused, rfl, rfl⟩⟩, hrefused⟩

theorem sample_review_never_allowed :
    ∃ response db outcome,
      postDecisions .reference sampleAuth sampleDecision
        Revalidation.sampleNow sampleDecisionIds reviewDatabase =
          (.ok response, db) ∧
      revalidate .reference (approvedPayment response)
        Revalidation.sampleNow Revalidation.sampleIds db =
          (.ok outcome, db) ∧
      outcome.result ≠ .allow := by
  obtain ⟨response, request, db, h⟩ := sample_review
  have hrows : SamePolicy sampleAuth.companyId sampleDecision.agentId
      reviewDatabase db := by
    rw [h.others]
    exact ⟨rfl, fun _ => rfl, fun _ => rfl⟩
  obtain ⟨outcome, hrun, _⟩ := sample_refused h hrows (by
    rw [h.others]
    rfl)
  exact ⟨response, db, outcome, h.recorded, hrun,
    approved_review_never_allowed h.recorded h.determinant ⟨rfl, rfl, rfl⟩
      hrows hrun⟩

/-- The review of the sample is approved with its own context hash, and the
payment it was approved for is refused all the same. -/
theorem review_approved_but_refused :
    ∃ response request db₁ approval db₂ outcome,
      postDecisions .reference sampleAuth sampleDecision
        Revalidation.sampleNow sampleDecisionIds reviewDatabase =
          (.ok response, db₁) ∧
      response.result = .review ∧
      response.decision.determinant = "policy_review" ∧
      response.approvalId = some "approval-1" ∧
      postApprove sampleAuth "approval-1" response.contextHash
        Revalidation.sampleNow "result-1" db₁ =
          (.ok (request, approval), db₂) ∧
      request.status = .approved ∧
      revalidate .reference (approvedPayment response)
        Revalidation.sampleNow Revalidation.sampleIds db₂ =
          (.ok outcome, db₂) ∧
      outcome.result ≠ .allow := by
  obtain ⟨response, request, db₁, h⟩ := sample_review
  obtain ⟨decision, output, hrequest⟩ := h.request_eq
  have hfound : Approvals.getRequest sampleAuth.companyId "approval-1" db₁ =
      some request := by
    change db₁.approvalRequests.find? _ = some request
    rw [h.requests, hrequest]
    rfl
  have hrow : approvalRequestTable.lookup request.id db₁ =
      some request := by
    change KeyedTable.lookup _ request.id db₁.approvalRequests = some request
    rw [h.requests, hrequest]
    rfl
  have hnew : approvalResultTable.lookup "result-1" db₁ = none := by
    rw [h.others]
    rfl
  have hahead : Revalidation.sampleNow < request.expiresAt := by
    rw [hrequest]
    change Revalidation.sampleNow < Revalidation.sampleNow + 15 * 60000
    decide
  have hpending : request.status = .pending := by
    rw [hrequest]
    rfl
  have hrole : Approvals.approverRefusal request (approver sampleAuth) =
      none := by
    rw [hrequest]
    rfl
  obtain ⟨approval, db₂, happrove, _, hothers⟩ :=
    Approvals.approve_of_pending hfound hrow hpending hahead hrole hnew
  have hhash : request.contextHash = response.contextHash := by
    rw [hrequest]
    rfl
  rw [hhash] at happrove
  have hsame : resolve .reference (approvedPayment response)
      Revalidation.sampleNow db₂ =
        resolve .reference Revalidation.samplePayment
          Revalidation.sampleNow reviewDatabase := by
    rw [hothers, h.others]
    rfl
  have hrows : SamePolicy sampleAuth.companyId sampleDecision.agentId
      reviewDatabase db₂ := by
    rw [hothers, h.others]
    exact ⟨rfl, fun _ => rfl, fun _ => rfl⟩
  obtain ⟨outcome, hrun, hrefused⟩ := sample_refused h hrows hsame
  exact ⟨response, _, db₁, approval, db₂, outcome, h.recorded, h.review,
    h.determinant, h.approval, happrove, rfl, hrun, hrefused⟩

end Api
end Orvex
