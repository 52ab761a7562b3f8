import Orvex.Application.Intake
import Orvex.Decision.Engine
import Orvex.Domain.Agents
import Orvex.Domain.Capabilities
import Orvex.Domain.Constitutions
import Orvex.Policy.Service
import Orvex.Trajectory.Service

/-!
# The security orchestrator

The orchestrator assembles the context of a decision: it checks how its
inputs are bound to each other, loads the state of the agent, and evaluates
the active policy.  It refuses where something is missing, and decides
nothing.
-/

namespace Orvex
namespace Orchestrator

structure OrchestrateInput where
  companyId : String
  agentId : String
  intent : Intent
  proposal : ActionProposal
  securityAssessment : SecurityAssessment
  traceId : Option String
  assessmentMaxAgeMs : Option ℚ
  requireSimulation : Bool

structure AnalyzeTransactionRequest where
  transactionId : String
  network : String
  recipient : String
  amount : String
  asset : String
  deriving DecidableEq

structure SimulateRequest where
  transactionId : String
  network : String
  deriving DecidableEq

/-- The services behind the execution boundary, where they are configured. -/
structure Providers where
  transactionAnalysis :
    Option (AnalyzeTransactionRequest → Except Failure TransactionAnalysis)
  simulation : Option (SimulateRequest → Except Failure SimulationResult)

structure DecisionContext where
  companyId : String
  agentId : String
  intent : Intent
  proposal : ActionProposal
  securityAssessment : SecurityAssessment
  /-- Advisory only. -/
  securityAdvisory : OverallAssessment
  policyEvaluation : PolicyEvaluation
  capabilityId : String
  policyVersionId : String
  transactionAnalysis : Option TransactionAnalysis
  simulationResult : Option SimulationResult
  trajectoryEventCount : ℕ
  assembledAt : String

def agentStatusText : AgentStatus → String
  | .created => "CREATED"
  | .configured => "CONFIGURED"
  | .active => "ACTIVE"
  | .paused => "PAUSED"
  | .suspended => "SUSPENDED"
  | .disabled => "DISABLED"

/-! ## The steps -/

def validateBindings (input : OrchestrateInput) : Except Failure Unit := do
  let () ← Intake.validateProposalIntake input.proposal
    ⟨input.intent.intentId, input.agentId⟩
  if input.intent.agentId ≠ input.agentId then
    .error (.of .intentInvalid
      "Intent agent does not match the request agent." [])
  else .ok ()

def requireActiveAgent (companyId agentId : String) (db : Database) :
    Except Failure Agent := do
  let agent ← Agents.requireAgent companyId agentId db
  if agent.status ≠ .active then
    .error (.of .agentInactive "Agent is not ACTIVE."
      [("agentId", agent.id), ("status", agentStatusText agent.status)])
  else .ok agent

def requireConstitution (companyId agentId : String) (db : Database) :
    Except Failure Constitution :=
  match Constitutions.getActiveConstitution companyId agentId db with
  | some constitution => .ok constitution
  | none =>
      .error (.of .authorizationError "No active constitution for agent."
        [("agentId", agentId)])

def requireCapability (companyId agentId : String) (now : ℤ)
    (db : Database) : Except Failure Capability :=
  match (Capabilities.getActiveCapabilities companyId agentId now db).head?
    with
  | some capability => .ok capability
  | none =>
      .error (.of .capabilityExpired
        "No active capability available for agent." [("agentId", agentId)])

/-- The id of the active policy, which must not be empty. -/
def requirePolicyId (agent : Agent) (agentId : String) :
    Except Failure String :=
  match agent.activePolicyId with
  | none =>
      .error (.of .policyInvalid "Agent has no active policy."
        [("agentId", agentId)])
  | some policyId =>
      if policyId = "" then
        .error (.of .policyInvalid "Agent has no active policy."
          [("agentId", agentId)])
      else .ok policyId

def requireActiveVersion (companyId policyId : String) (db : Database) :
    Except Failure PolicyVersion :=
  match Policies.getActiveVersion companyId policyId db with
  | some version => .ok version
  | none =>
      .error (.of .policyInvalid "No active policy version."
        [("policyId", policyId)])

/-- The event types of the trace, none without a trace. -/
def loadTrajectory (companyId : String) (traceId : Option String)
    (db : Database) : Except Failure (List String) :=
  match traceId with
  | none => .ok []
  | some traceId =>
      if traceId = "" then .ok []
      else
        match traceTable.find (fun trace =>
            trace.id = traceId ∧ trace.companyId = companyId) db with
        | none =>
            .error (.of .notFound
              "Trajectory trace not found for this company."
              [("traceId", traceId)])
        | some _ =>
            .ok ((Trajectory.getEvents companyId traceId db).map
              TrajectoryEvent.eventType)

/-- The transaction of a context, as the proposal describes it. -/
def transactionContext (proposal : ActionProposal)
    (network : Option String) : TransactionContext where
  action := proposal.actionType.text
  amount := proposal.amount.map Money.value
  currency := proposal.amount.map Money.currency
  asset := proposal.amount.map Money.currency
  network := network
  category := none
  recipient := proposalRecipient proposal

def evaluationContext (rt : Runtime) (proposal : ActionProposal)
    (events : List String) (capability : Capability) (now : ℤ) :
    EvaluationContext where
  transaction := transactionContext proposal (proposalNetwork proposal)
  cumulativeSpent := none
  cumulativeByKey := none
  knownRecipients := none
  trajectoryEventTypes := some events
  recentTransactions := none
  capabilityExpiresAt := capability.expiresAt.map rt.toISOString
  now := rt.toISOString now

def analyze (providers : Providers) (proposal : ActionProposal)
    (tx : TransactionContext) :
    Except Failure (Option TransactionAnalysis) :=
  match providers.transactionAnalysis, tx.recipient, tx.amount, tx.asset,
    tx.network with
  | some provider, some recipient, some amount, some asset, some network =>
      if recipient ≠ "" ∧ amount ≠ "" ∧ asset ≠ "" ∧ network ≠ "" then
        some <$> provider
          ⟨proposal.proposalId, network, recipient, amount, asset⟩
      else .ok none
  | _, _, _, _, _ => .ok none

def simulate (providers : Providers) (input : OrchestrateInput)
    (tx : TransactionContext) : Except Failure (Option SimulationResult) :=
  match providers.simulation, truthy tx.network with
  | some provider, true =>
      some <$> provider ⟨input.proposal.proposalId, tx.network.getD ""⟩
  | _, _ =>
      if input.requireSimulation then
        .error (.of .simulationFailed
          "Simulation is required but no provider is configured." [])
      else .ok none

def orchestrate (rt : Runtime) (providers : Providers)
    (input : OrchestrateInput) (now : ℤ) (db : Database) :
    Except Failure DecisionContext := do
  let () ← validateBindings input
  let agent ← requireActiveAgent input.companyId input.agentId db
  let _ ← requireConstitution input.companyId input.agentId db
  let capability ← requireCapability input.companyId input.agentId now db
  let policyId ← requirePolicyId agent input.agentId
  let version ← requireActiveVersion input.companyId policyId db
  let rules ← Policies.loadRules input.companyId version.id db
  let events ← loadTrajectory input.companyId input.traceId db
  let () ← Intake.validateAssessmentBinding rt input.securityAssessment
    ⟨input.proposal.proposalId, input.assessmentMaxAgeMs⟩ now
  let ctx := evaluationContext rt input.proposal events capability now
  let evaluation ←
    PolicyEngine.evaluate rt policyId version.version rules ctx
  let analysis ← analyze providers input.proposal ctx.transaction
  let simulation ← simulate providers input ctx.transaction
  pure
    { companyId := input.companyId
      agentId := input.agentId
      intent := input.intent
      proposal := input.proposal
      securityAssessment := input.securityAssessment
      securityAdvisory := input.securityAssessment.overallAssessment
      policyEvaluation := evaluation
      capabilityId := capability.id
      policyVersionId := version.id
      transactionAnalysis := analysis
      simulationResult := simulation
      trajectoryEventCount := events.length
      assembledAt := rt.toISOString now }

/-! ## What an assembled context rests on -/

theorem validateBindings_eq_ok {input : OrchestrateInput} :
    validateBindings input = .ok () ↔
      input.proposal.intentId = input.intent.intentId ∧
        input.proposal.agentId = input.agentId ∧
          input.intent.agentId = input.agentId := by
  unfold validateBindings
  rw [Fallible.result_bind_eq_ok]
  constructor
  · rintro ⟨_, hproposal, hrest⟩
    obtain ⟨hintent, hagent⟩ :=
      Intake.validateProposalIntake_eq_ok.mp hproposal
    refine ⟨hintent, hagent, ?_⟩
    by_contra hne
    simp [hne] at hrest
  · rintro ⟨hintent, hagent, hbound⟩
    refine ⟨(), Intake.validateProposalIntake_eq_ok.mpr ⟨hintent, hagent⟩,
      ?_⟩
    simp [hbound]

theorem requireActiveAgent_eq_ok {companyId agentId : String}
    {db : Database} {agent : Agent}
    (h : requireActiveAgent companyId agentId db = .ok agent) :
    Agents.getAgent companyId agentId db = some agent ∧
      agent.status = .active := by
  unfold requireActiveAgent Agents.requireAgent at h
  rw [Fallible.result_bind_eq_ok] at h
  obtain ⟨found, hfound, hrest⟩ := h
  cases hagent : Agents.getAgent companyId agentId db with
  | none => simp [hagent] at hfound
  | some row =>
      rw [hagent, Except.ok.injEq] at hfound
      subst hfound
      split at hrest
      next => simp at hrest
      next hactive =>
        rw [Except.ok.injEq] at hrest
        subst hrest
        exact ⟨rfl, not_not.mp hactive⟩

theorem requireConstitution_eq_ok {companyId agentId : String}
    {db : Database} {constitution : Constitution} :
    requireConstitution companyId agentId db = .ok constitution ↔
      Constitutions.getActiveConstitution companyId agentId db =
        some constitution := by
  unfold requireConstitution
  cases Constitutions.getActiveConstitution companyId agentId db with
  | none => simp
  | some found => simp

theorem requireCapability_eq_ok {companyId agentId : String} {now : ℤ}
    {db : Database} {capability : Capability} :
    requireCapability companyId agentId now db = .ok capability ↔
      (Capabilities.getActiveCapabilities companyId agentId now db).head? =
        some capability := by
  unfold requireCapability
  cases (Capabilities.getActiveCapabilities companyId agentId now db).head?
    with
  | none => simp
  | some found => simp

theorem requirePolicyId_eq_ok {agent : Agent} {agentId policyId : String} :
    requirePolicyId agent agentId = .ok policyId ↔
      agent.activePolicyId = some policyId ∧ policyId ≠ "" := by
  unfold requirePolicyId
  cases hpolicy : agent.activePolicyId with
  | none => simp
  | some id =>
      by_cases hempty : id = ""
      · simp only [hempty, if_true, reduceCtorEq, Option.some.injEq,
          false_iff, not_and]
        rintro rfl
        simp
      · simp only [hempty, if_false, Except.ok.injEq, Option.some.injEq]
        constructor
        · rintro rfl
          exact ⟨rfl, hempty⟩
        · exact fun h => h.1

theorem requireActiveVersion_eq_ok {companyId policyId : String}
    {db : Database} {version : PolicyVersion} :
    requireActiveVersion companyId policyId db = .ok version ↔
      Policies.getActiveVersion companyId policyId db = some version := by
  unfold requireActiveVersion
  cases Policies.getActiveVersion companyId policyId db with
  | none => simp
  | some found => simp

/-- The rows and values behind an assembled context. -/
structure Assembled (rt : Runtime) (input : OrchestrateInput) (now : ℤ)
    (db : Database) (agent : Agent) (capability : Capability)
    (policyId : String) (version : PolicyVersion)
    (rules : List CompiledRule) (events : List String)
    (context : DecisionContext) : Prop where
  bindings : validateBindings input = .ok ()
  agent_row : Agents.getAgent input.companyId input.agentId db = some agent
  agent_active : agent.status = .active
  constitution : ∃ constitution, Constitutions.getActiveConstitution
    input.companyId input.agentId db = some constitution
  capability_first : (Capabilities.getActiveCapabilities input.companyId
    input.agentId now db).head? = some capability
  policy_active : agent.activePolicyId = some policyId ∧ policyId ≠ ""
  version_row : Policies.getActiveVersion input.companyId policyId db =
    some version
  rules_loaded : Policies.loadRules input.companyId version.id db = .ok rules
  events_loaded : loadTrajectory input.companyId input.traceId db =
    .ok events
  assessment : Intake.validateAssessmentBinding rt input.securityAssessment
    ⟨input.proposal.proposalId, input.assessmentMaxAgeMs⟩ now = .ok ()
  evaluated : PolicyEngine.evaluate rt policyId version.version rules
    (evaluationContext rt input.proposal events capability now) =
      .ok context.policyEvaluation
  version_named : context.policyVersionId = version.id

theorem assembled_of_orchestrate {rt : Runtime} {providers : Providers}
    {input : OrchestrateInput} {now : ℤ} {db : Database}
    {context : DecisionContext}
    (h : orchestrate rt providers input now db = .ok context) :
    ∃ agent capability policyId version rules events,
      Assembled rt input now db agent capability policyId version rules
        events context := by
  unfold orchestrate at h
  simp only [Fallible.result_bind_eq_ok, Fallible.result_pure,
    Except.ok.injEq] at h
  obtain ⟨_, hbindings, agent, hagent, _, hconstitution, capability,
    hcapability, policyId, hpolicy, version, hversion, rules, hrules, events,
    hevents, _, hassessment, evaluation, hevaluation, _, _, _, _, rfl⟩ := h
  obtain ⟨hrow, hactive⟩ := requireActiveAgent_eq_ok hagent
  refine ⟨agent, capability, policyId, version, rules, events, ?_⟩
  exact
    { bindings := hbindings
      agent_row := hrow
      agent_active := hactive
      constitution := ⟨_, requireConstitution_eq_ok.mp hconstitution⟩
      capability_first := requireCapability_eq_ok.mp hcapability
      policy_active := requirePolicyId_eq_ok.mp hpolicy
      version_row := requireActiveVersion_eq_ok.mp hversion
      rules_loaded := hrules
      events_loaded := hevents
      assessment := hassessment
      evaluated := hevaluation
      version_named := rfl }

end Orchestrator
end Orvex
