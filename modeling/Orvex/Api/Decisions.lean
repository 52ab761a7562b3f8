import Orvex.Api.V1
import Orvex.Gate.Soundness

/-!
# What a recorded decision rests on

A decision is recorded once the orchestrator assembled its context.  An
ALLOW rests on the policy evaluation and on the advice alone; the other
inputs of the engine are constants on this route.
-/

namespace Orvex
namespace Api

/-- The engine's answer on the assembled context. -/
def decisionOutput (body : DecisionBody) (evaluation : PolicyEvaluation) :
    DecisionOutput :=
  DecisionEngine.decide (decisionInput body evaluation)

def decisionHash (rt : Runtime) (body : DecisionBody)
    (evaluation : PolicyEvaluation) : String :=
  DecisionEngine.contextHash rt (decisionHashContext body evaluation)

/-- What a decision call read and wrote. -/
structure Recorded (rt : Runtime) (auth : AuthContext) (body : DecisionBody)
    (now : ℤ) (ids : DecisionIds) (db mid : Database)
    (context : Orchestrator.DecisionContext) (decision : Decision) : Prop
    where
  context_read : Orchestrator.orchestrate rt providers
    (orchestrateInput auth body) now db = .ok context
  decision_eq : decision = Decisions.decisionOf
    (persistInput auth body context
      (decisionOutput body context.policyEvaluation)
      (decisionHash rt body context.policyEvaluation)) ids.decision
  decision_new : decisionTable.lookup ids.decision db = none
  company_exists : companyExists auth.companyId db = true
  written : mid = decisionTable.insert decision db

theorem postDecisions_eq_ok {rt : Runtime} {auth : AuthContext}
    {body : DecisionBody} {now : ℤ} {ids : DecisionIds} {db db' : Database}
    {response : DecisionResponse}
    (h : postDecisions rt auth body now ids db = (.ok response, db')) :
    ∃ context mid,
      Recorded rt auth body now ids db mid context response.decision ∧
      response.result =
        (decisionOutput body context.policyEvaluation).result ∧
      response.contextHash =
        decisionHash rt body context.policyEvaluation ∧
      requestApproval auth body response.decision
        (decisionOutput body context.policyEvaluation)
        (decisionHash rt body context.policyEvaluation) now ids.approval
        mid = (.ok response.approvalId, db') := by
  unfold postDecisions at h
  obtain ⟨context, mid, hcontext, hrest⟩ := Fallible.bind_eq_ok.mp h
  obtain ⟨hread, hmid⟩ := reading_eq_ok.mp hcontext
  rw [hmid] at hrest
  obtain ⟨decision, written, hrecord, hrest⟩ := Fallible.bind_eq_ok.mp hrest
  obtain ⟨approvalId, final, happroval, hrest⟩ :=
    Fallible.bind_eq_ok.mp hrest
  rw [Fallible.pure_apply, Prod.mk.injEq, Except.ok.injEq] at hrest
  obtain ⟨hresponse, hfinal⟩ := hrest
  subst hresponse hfinal
  unfold Decisions.record at hrecord
  obtain ⟨hnew, hcompany, hdecision, hwritten⟩ :=
    Table.create_eq_ok.mp hrecord
  refine ⟨context, written, ?_, rfl, rfl, happroval⟩
  exact
    { context_read := hread
      decision_eq := hdecision
      decision_new := hnew
      company_exists := hcompany
      written := hdecision ▸ hwritten }

/-- On this route an ALLOW is a policy that passes and advice that does not
object. -/
theorem decisionOutput_allow_iff {body : DecisionBody}
    {evaluation : PolicyEvaluation} :
    (decisionOutput body evaluation).result = .allow ↔
      evaluation.status = .pass ∧
        body.securityAssessment.overallAssessment.recommendedHandling ≠
            .denyRecommended ∧
          body.securityAssessment.overallAssessment.recommendedHandling ≠
            .review := by
  unfold decisionOutput
  rw [DecisionEngine.decide_allow_iff_cleared]
  constructor
  · intro h
    obtain ⟨hdeny, hreview⟩ := h.advisory
    refine ⟨h.policy, ?_, ?_⟩
    · exact fun heq => hdeny (congrArg some heq)
    · exact fun heq => hreview (congrArg some heq)
  · rintro ⟨hpolicy, hdeny, hreview⟩
    exact
      { platform := rfl
        agent := rfl
        intent := rfl
        constitution := rfl
        capability := rfl
        policy := hpolicy
        gate := fun _ hgate => absurd hgate (by simp [decisionInput])
        binding := fun _ hbinding => absurd hbinding (by simp [decisionInput])
        outcome := by simp [decisionInput]
        simulation := by simp [decisionInput]
        fresh := rfl
        approval := Or.inl rfl
        advisory := by simp [decisionInput, hdeny, hreview] }

end Api
end Orvex
