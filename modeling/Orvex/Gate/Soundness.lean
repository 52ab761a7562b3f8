import Orvex.Gate.Minting

/-!
# What an ALLOW of final revalidation rests on

`revalidate_eq_ok` tells the ways apart in which a call ends.  When the
result is ALLOW, every check held in the state that the call read.
-/

namespace Orvex
namespace Revalidation

/-! ## How a call ends -/

theorem revalidate_eq_ok {rt : Runtime} {input : RevalidateInput} {now : ℤ}
    {ids : MintIds} {db db' : Database} {outcome : RevalidationOutcome} :
    revalidate rt input now ids db = (.ok outcome, db') ↔
      ∃ state, resolve rt input now db = .ok state ∧
        (((DecisionEngine.decide
              (decisionInput rt input state now db)).result ≠ .allow ∧
            outcome = refused (DecisionEngine.decide
              (decisionInput rt input state now db)) ∧ db' = db) ∨
          (DecisionEngine.Cleared (decisionInput rt input state now db) ∧
            mint rt input state.policy now ids db = (.ok outcome, db'))) := by
  unfold revalidate
  rw [Fallible.bind_eq_ok]
  simp only [reading_eq_ok, ← DecisionEngine.decide_allow_iff_cleared]
  constructor
  · rintro ⟨state, mid, ⟨hresolve, rfl⟩, hrest⟩
    refine ⟨state, hresolve, ?_⟩
    rw [Fallible.query_bind] at hrest
    split at hrest
    next hrefused =>
      rw [Fallible.pure_apply, Prod.mk.injEq, Except.ok.injEq] at hrest
      exact Or.inl ⟨hrefused, hrest.1.symm, hrest.2.symm⟩
    next hallow => exact Or.inr ⟨not_not.mp hallow, hrest⟩
  · rintro ⟨state, hresolve, hend⟩
    refine ⟨state, db, ⟨hresolve, rfl⟩, ?_⟩
    rw [Fallible.query_bind]
    rcases hend with ⟨hrefused, rfl, rfl⟩ | ⟨hallow, hmint⟩
    · rw [if_pos hrefused, Fallible.pure_apply]
    · rw [if_neg (not_not.mpr hallow), hmint]

/-- An ALLOW comes out of minting, after every check was cleared. -/
theorem mint_of_allow {rt : Runtime} {input : RevalidateInput} {now : ℤ}
    {ids : MintIds} {db db' : Database} {outcome : RevalidationOutcome}
    (hrun : revalidate rt input now ids db = (.ok outcome, db'))
    (hallow : outcome.result = .allow) :
    ∃ state, resolve rt input now db = .ok state ∧
      DecisionEngine.Cleared (decisionInput rt input state now db) ∧
        mint rt input state.policy now ids db = (.ok outcome, db') := by
  obtain ⟨state, hresolve, hend⟩ := revalidate_eq_ok.mp hrun
  rcases hend with ⟨hrefused, houtcome, _⟩ | ⟨hcleared, hmint⟩
  · rw [houtcome] at hallow
    exact absurd hallow hrefused
  · exact ⟨state, hresolve, hcleared, hmint⟩

/-! ## The state that was read -/

theorem resolve_eq_ok {rt : Runtime} {input : RevalidateInput} {now : ℤ}
    {db : Database} {state : Resolved}
    (h : resolve rt input now db = .ok state) :
    state.agent = Agents.getAgent input.companyId input.agentId db ∧
      state.constitution =
        Constitutions.getActiveConstitution input.companyId input.agentId
          db ∧
      state.capability =
        (if state.agent.isSome then
          (Capabilities.getActiveCapabilities input.companyId input.agentId
            now db).head?
        else none) ∧
      readPolicy rt input state.agent state.capability now db =
        .ok state.policy := by
  unfold resolve at h
  rw [Fallible.result_bind_eq_ok] at h
  obtain ⟨policy, hpolicy, hstate⟩ := h
  rw [Fallible.result_pure, Except.ok.injEq] at hstate
  subst hstate
  exact ⟨rfl, rfl, rfl, hpolicy⟩

/-- A reading that does not fail comes from an evaluation of the active
version. -/
theorem readPolicy_eq_ok {rt : Runtime} {input : RevalidateInput}
    {agent : Option Agent} {capability : Option Capability} {now : ℤ}
    {db : Database} {policy : PolicyReading}
    (h : readPolicy rt input agent capability now db = .ok policy)
    (hstatus : policy.status ≠ .fail) :
    ∃ id version rules evaluation,
      agent.bind Agent.activePolicyId = some id ∧ id ≠ "" ∧
        Policies.getActiveVersion input.companyId id db = some version ∧
        Policies.loadRules input.companyId version.id db = .ok rules ∧
        PolicyEngine.evaluate rt id version.version rules
          (evaluationContext rt input.proposal capability now) =
            .ok evaluation ∧
        policy = ⟨some id, version.version, some version.id,
          evaluation.evaluationHash, evaluation.status⟩ := by
  unfold readPolicy at h
  split at h
  next =>
    rw [Except.ok.injEq] at h
    rw [← h] at hstatus
    exact absurd rfl hstatus
  next id hid =>
    split at h
    next =>
      rw [Except.ok.injEq] at h
      rw [← h] at hstatus
      exact absurd rfl hstatus
    next hempty =>
      split at h
      next =>
        rw [Except.ok.injEq] at h
        rw [← h] at hstatus
        exact absurd rfl hstatus
      next version hversion =>
        simp only [Fallible.result_bind_eq_ok, Fallible.result_pure,
          Except.ok.injEq] at h
        obtain ⟨rules, hrules, evaluation, hevaluation, hpolicy⟩ := h
        exact ⟨id, version, rules, evaluation, hid, hempty, hversion,
          hrules, hevaluation, hpolicy.symm⟩

theorem eq_of_version_id {db : Database}
    (hkeys : KeyedTable.UniqueKeys PolicyVersion.id db.policyVersions)
    {v w : PolicyVersion} (hv : v ∈ db.policyVersions)
    (hw : w ∈ db.policyVersions) (hid : v.id = w.id) : v = w := by
  have hlookup := KeyedTable.lookup_of_mem hkeys hv
  rw [hid, KeyedTable.lookup_of_mem hkeys hw] at hlookup
  exact (Option.some.inj hlookup).symm

/-- The rules that are loaded are those of the active version. -/
theorem loadRules_of_active {db : Database}
    (hkeys : KeyedTable.UniqueKeys PolicyVersion.id db.policyVersions)
    {companyId policyId : String} {version : PolicyVersion}
    {rules : List CompiledRule}
    (hversion : Policies.getActiveVersion companyId policyId db =
      some version)
    (hrules : Policies.loadRules companyId version.id db = .ok rules) :
    rules = version.compiledPolicyJson.rules.getD [] := by
  unfold Policies.loadRules Policies.requireVersion at hrules
  cases hfound : Policies.getVersion companyId version.id db with
  | none =>
      rw [hfound] at hrules
      exact absurd hrules (by simp)
  | some found =>
      rw [hfound, Fallible.result_ok_bind, Fallible.result_pure,
        Except.ok.injEq] at hrules
      obtain ⟨hmem, hid, _⟩ := Policies.getVersion_eq_some hfound
      obtain ⟨hactive, _⟩ := Policies.getActiveVersion_eq_some hversion
      rw [← hrules, eq_of_version_id hkeys hmem hactive hid]

/-- The rows behind a state in which no check objects. -/
structure Rows (rt : Runtime) (input : RevalidateInput) (now : ℤ)
    (db : Database) (state : Resolved) (agent : Agent)
    (constitution : Constitution) (capability : Capability)
    (policy : Policy) (version : PolicyVersion)
    (evaluation : PolicyEvaluation) : Prop where
  agent_row : Agents.getAgent input.companyId input.agentId db = some agent
  constitution_row : Constitutions.getActiveConstitution input.companyId
    input.agentId db = some constitution
  capability_row : capability ∈ Capabilities.getActiveCapabilities
    input.companyId input.agentId now db
  policy_active : agent.activePolicyId = some policy.id
  policy_row : policy ∈ db.policies ∧ policy.companyId = input.companyId
  version_row : Policies.getActiveVersion input.companyId policy.id db =
    some version
  evaluated : PolicyEngine.evaluate rt policy.id version.version
      (version.compiledPolicyJson.rules.getD [])
      (evaluationContext rt input.proposal (some capability) now) =
    .ok evaluation
  state_eq : state = ⟨some agent, some constitution, some capability,
    ⟨some policy.id, version.version, some version.id,
      evaluation.evaluationHash, evaluation.status⟩⟩

theorem rows_of_cleared {rt : Runtime} {input : RevalidateInput} {now : ℤ}
    {db : Database} {state : Resolved}
    (hkeys : KeyedTable.UniqueKeys PolicyVersion.id db.policyVersions)
    (hresolve : resolve rt input now db = .ok state)
    (hcleared : DecisionEngine.Cleared
      (decisionInput rt input state now db)) :
    ∃ agent constitution capability policy version evaluation,
      Rows rt input now db state agent constitution capability policy version
        evaluation := by
  obtain ⟨hagent, hconstitution, hcapability, hpolicy⟩ :=
    resolve_eq_ok hresolve
  obtain ⟨agent, hfound, _⟩ := (Option.any_eq_true _ _).mp hcleared.agent
  obtain ⟨constitution, hconst⟩ :=
    Option.isSome_iff_exists.mp hcleared.constitution
  obtain ⟨capability, hcap⟩ :=
    Option.isSome_iff_exists.mp hcleared.capability
  have hpass : state.policy.status = .pass := hcleared.policy
  obtain ⟨id, version, rules, evaluation, hid, _, hversion, hrules,
    hevaluation, hreading⟩ := readPolicy_eq_ok hpolicy (by simp [hpass])
  rw [hfound] at hagent hid hcapability
  rw [hcap] at hcapability hevaluation
  rw [hconst] at hconstitution
  obtain ⟨_, hversionPolicy, _, howned⟩ :=
    Policies.getActiveVersion_eq_some hversion
  obtain ⟨policy, hlookup, hcompany⟩ := (Option.any_eq_true _ _).mp howned
  have hpolicyId : policy.id = id :=
    (KeyedTable.key_of_lookup hlookup).trans hversionPolicy
  have hrulesEq := loadRules_of_active hkeys hversion hrules
  subst hpolicyId hrulesEq
  refine ⟨agent, constitution, capability, policy, version, evaluation, ?_⟩
  exact
    { agent_row := hagent.symm
      constitution_row := hconstitution.symm
      capability_row := List.mem_of_mem_head? (Option.mem_def.mpr
        (hcapability.trans (if_pos rfl)).symm)
      policy_active := hid
      policy_row := ⟨KeyedTable.mem_of_lookup hlookup,
        of_decide_eq_true hcompany⟩
      version_row := hversion
      evaluated := hevaluation
      state_eq := by rw [← hreading, ← hfound, ← hconst, ← hcap] }

/-! ## The checks -/

/-- The state authorizes the input at `now`: each check of the gate, with the
rows that answer it. -/
structure Authorizes (rt : Runtime) (input : RevalidateInput) (now : ℤ)
    (db : Database) (agent : Agent) (constitution : Constitution)
    (capability : Capability) (policy : Policy) (version : PolicyVersion) :
    Prop where
  agent_found : agent ∈ db.agents ∧ agent.id = input.agentId ∧
    agent.companyId = input.companyId
  agent_active : agent.status = .active
  intent_valid : input.intent.status = .valid
  intent_ahead : ∀ validUntil,
    rt.parseDate input.intent.validUntil = some validUntil →
      now < validUntil
  constitution_active : constitution ∈ db.constitutions ∧
    constitution.companyId = input.companyId ∧
    constitution.agentId = input.agentId ∧ constitution.status = .active
  capability_usable : capability ∈ db.capabilities ∧
    capability.companyId = input.companyId ∧
    capability.agentId = input.agentId ∧ capability.status = .active ∧
    capability.validFrom ≤ now ∧
    ∀ expiresAt, capability.expiresAt = some expiresAt → now < expiresAt
  policy_owned : policy ∈ db.policies ∧
    agent.activePolicyId = some policy.id ∧
    policy.companyId = input.companyId
  version_active : version ∈ db.policyVersions ∧
    version.policyId = policy.id ∧ version.status = .active
  rules_admit : ∀ rule ∈ version.compiledPolicyJson.rules.getD [],
    rule.active = true →
      PolicyEngine.Admits rt
        (evaluationContext rt input.proposal (some capability) now) rule
  transaction : Gate.Matches rt input.proposal input.analysis
    ⟨input.expectedNetwork, input.actualNetwork,
      decide (input.proposal.actionType = .pay)⟩
  simulation_bound : input.simulation.transactionId = input.transactionId ∧
    input.simulatedPayloadHash = payloadHash rt input
  simulation_passed : input.simulation.status = .pass ∨
    (input.simulationRequired = false ∧
      (input.simulation.status = .error ∨
        input.simulation.status = .unsupported))
  assessment_fresh : ∀ maxAgeMs, input.assessmentMaxAgeMs = some maxAgeMs →
    ∃ created, rt.parseDate input.securityAssessment.createdAt =
      some created ∧ ((now - created : ℤ) : ℚ) ≤ maxAgeMs
  context_current : ∃ evaluation,
    PolicyEngine.evaluate rt policy.id version.version
        (version.compiledPolicyJson.rules.getD [])
        (evaluationContext rt input.proposal (some capability) now) =
      .ok evaluation ∧
    (input.decisionContextHash = "" ∨
      input.decisionContextHash = freshHash rt input
        ⟨some policy.id, version.version, some version.id,
          evaluation.evaluationHash, evaluation.status⟩)
  approval_granted : ∀ id, input.approvalId = some id → id ≠ "" →
    ∃ request ∈ db.approvalRequests, request.id = id ∧
      request.companyId = input.companyId ∧ request.status = .approved ∧
      request.contextHash = input.decisionContextHash
  advice : input.securityAssessment.overallAssessment.recommendedHandling =
      .proceedCandidate ∨
    input.securityAssessment.overallAssessment.recommendedHandling = .monitor

theorem intentValid_eq_true {rt : Runtime} {intent : Intent} {now : ℤ} :
    intentValid rt intent now = true ↔
      intent.status = .valid ∧
        ∀ validUntil, rt.parseDate intent.validUntil = some validUntil →
          now < validUntil := by
  unfold intentValid
  rw [Bool.and_eq_true, decide_eq_true_eq]
  cases rt.parseDate intent.validUntil with
  | none => simp
  | some validUntil => simp

theorem assessmentStale_eq_false {rt : Runtime} {input : RevalidateInput}
    {now : ℤ} :
    assessmentStale rt input now = false ↔
      ∀ maxAgeMs, input.assessmentMaxAgeMs = some maxAgeMs →
        ∃ created, rt.parseDate input.securityAssessment.createdAt =
          some created ∧ ((now - created : ℤ) : ℚ) ≤ maxAgeMs := by
  unfold assessmentStale
  cases input.assessmentMaxAgeMs with
  | none => simp
  | some maxAgeMs =>
      cases rt.parseDate input.securityAssessment.createdAt with
      | none => simp
      | some created => simp [Intake.tooOld]

theorem contextDrift_eq_false {rt : Runtime} {input : RevalidateInput}
    {policy : PolicyReading} :
    contextDrift rt input policy = false ↔
      input.decisionContextHash = "" ∨
        input.decisionContextHash = freshHash rt input policy := by
  unfold contextDrift
  rw [Bool.and_eq_false_iff, bne_eq_false_iff_eq, bne_eq_false_iff_eq]

theorem approvalState_cleared {input : RevalidateInput} {now : ℤ}
    {db : Database}
    (h : approvalState input now db = .notRequired ∨
      approvalState input now db = .required .approved) :
    ∀ id, input.approvalId = some id → id ≠ "" →
      ∃ request ∈ db.approvalRequests, request.id = id ∧
        request.companyId = input.companyId ∧ request.status = .approved ∧
        request.contextHash = input.decisionContextHash := by
  intro id hid hempty
  have htruthy : truthy input.approvalId = true := by
    rw [hid]
    exact truthy_some.mpr hempty
  unfold approvalState at h
  rw [if_pos htruthy, hid, Option.getD_some] at h
  rcases h with h | h
  · exact absurd h (by simp)
  · rw [ApprovalState.required.injEq] at h
    exact Approvals.resolveApprovalState_eq_approved h

theorem classify_passed {simulation : SimulationResult} {required : Bool}
    (houtcome : some (Gate.classifySimulation simulation) ≠ some .deny ∧
      some (Gate.classifySimulation simulation) ≠ some .review)
    (hrequired : required = true →
      some (Gate.classifySimulation simulation) ≠ none ∧
        some (Gate.classifySimulation simulation) ≠ some .failClosed) :
    simulation.status = .pass ∨
      (required = false ∧
        (simulation.status = .error ∨ simulation.status = .unsupported)) := by
  unfold Gate.classifySimulation at houtcome hrequired
  cases required <;> cases hstatus : simulation.status <;> simp_all

theorem handling_passed {handling : RecommendedHandling}
    (h : some handling ≠ some RecommendedHandling.denyRecommended ∧
      some handling ≠ some RecommendedHandling.review) :
    handling = .proceedCandidate ∨ handling = .monitor := by
  cases handling <;> simp_all

/-! ## Plain payments -/

/-- A payment that names no approval and no captured hash, and to which no
check of the input itself objects. -/
structure Plain (rt : Runtime) (input : RevalidateInput) (now : ℤ) : Prop
    where
  intent : intentValid rt input.intent now = true
  gate : (transactionGate rt input).status = .matched
  simulation : input.simulation.transactionId = input.transactionId ∧
    input.simulatedPayloadHash = payloadHash rt input
  passed : input.simulation.status = .pass
  ageless : input.assessmentMaxAgeMs = none
  unhashed : input.decisionContextHash = ""
  unapproved : input.approvalId = none
  advice :
    input.securityAssessment.overallAssessment.recommendedHandling =
      .proceedCandidate

/-- The state of the agent lets a payment through. -/
def Resolved.ready (state : Resolved) : Bool :=
  state.agent.any (fun agent => agent.status = .active) &&
    state.constitution.isSome && state.capability.isSome &&
      decide (state.policy.status = .pass)

theorem cleared_of_plain {rt : Runtime} {input : RevalidateInput}
    {now : ℤ} {db : Database} {state : Resolved}
    (hplain : Plain rt input now) (hready : state.ready = true) :
    DecisionEngine.Cleared (decisionInput rt input state now db) := by
  unfold Resolved.ready at hready
  rw [Bool.and_eq_true, Bool.and_eq_true, Bool.and_eq_true,
    decide_eq_true_eq] at hready
  obtain ⟨⟨⟨hagent, hconstitution⟩, hcapability⟩, hpolicy⟩ := hready
  have hstale : assessmentStale rt input now = false := by
    rw [assessmentStale, hplain.ageless]
  have hdrift : contextDrift rt input state.policy = false :=
    contextDrift_eq_false.mpr (Or.inl hplain.unhashed)
  have happroval : approvalState input now db = .notRequired := by
    rw [approvalState, hplain.unapproved]
    rfl
  have houtcome : Gate.classifySimulation input.simulation = .continues := by
    rw [Gate.classifySimulation, hplain.passed]
  exact
    { platform := rfl
      agent := hagent
      intent := hplain.intent
      constitution := hconstitution
      capability := hcapability
      policy := hpolicy
      gate := fun gate hgate => by
        rw [← Option.some.inj hgate, hplain.gate]
        simp
      binding := fun binding hbinding => by
        rw [← Option.some.inj hbinding]
        exact Gate.binding_valid_iff.mpr hplain.simulation
      outcome := by simp [decisionInput, houtcome]
      simulation := by simp [decisionInput, houtcome]
      fresh := by simp [decisionInput, hstale, hdrift]
      approval := Or.inl happroval
      advisory := by simp [decisionInput, hplain.advice] }

/-- A plain payment of an agent that is ready is minted where minting
succeeds. -/
theorem minted_of_plain {rt : Runtime} {input : RevalidateInput} {now : ℤ}
    {ids : MintIds} {db : Database} (hplain : Plain rt input now)
    (hready : (resolve rt input now db).toOption.map Resolved.ready =
      some true)
    (hmint : ∀ policy, ∃ db', mint rt input policy now ids db =
      (.ok (minted (newRequest rt input policy now ids.executionRequest)
        ids.reservation), db')) :
    ∃ state db', resolve rt input now db = .ok state ∧
      DecisionEngine.Cleared (decisionInput rt input state now db) ∧
        revalidate rt input now ids db =
          (.ok (minted (newRequest rt input state.policy now
            ids.executionRequest) ids.reservation), db') := by
  cases hresolve : resolve rt input now db with
  | error failure =>
      rw [hresolve] at hready
      simp [Except.toOption] at hready
  | ok state =>
      rw [hresolve] at hready
      have hstate : state.ready = true := by
        simpa [Except.toOption] using hready
      have hcleared : DecisionEngine.Cleared
          (decisionInput rt input state now db) :=
        cleared_of_plain hplain hstate
      obtain ⟨db', hminted⟩ := hmint state.policy
      exact ⟨state, db', rfl, hcleared, revalidate_eq_ok.mpr
        ⟨state, hresolve, Or.inr ⟨hcleared, hminted⟩⟩⟩

theorem sample_plain : Plain .reference samplePayment sampleNow := by
  constructor
  · decide
  · decide
  · exact ⟨rfl, rfl⟩
  · rfl
  · rfl
  · rfl
  · rfl
  · rfl

theorem sample_ready : (resolve .reference samplePayment sampleNow
    (sampleDatabase [])).toOption.map Resolved.ready = some true := by
  decide

/-! ## Soundness -/

/-- Soundness of final revalidation: a freshly minted request was authorized
by the state that the call read at `now`. -/
theorem revalidate_sound {rt : Runtime} {input : RevalidateInput} {now : ℤ}
    {ids : MintIds} {db db' : Database} {outcome : RevalidationOutcome}
    (hkeys : KeyedTable.UniqueKeys PolicyVersion.id db.policyVersions)
    (hrun : revalidate rt input now ids db = (.ok outcome, db'))
    (hallow : outcome.result = .allow) :
    ∃ agent constitution capability policy version,
      Authorizes rt input now db agent constitution capability policy
        version := by
  obtain ⟨state, hresolve, hcleared, _⟩ := mint_of_allow hrun hallow
  obtain ⟨agent, constitution, capability, policy, version, evaluation,
    hrows⟩ := rows_of_cleared hkeys hresolve hcleared
  have hstate := hrows.state_eq
  subst hstate
  have hactive : agent.status = .active := by
    simpa [decisionInput] using hcleared.agent
  obtain ⟨hintent, hahead⟩ := intentValid_eq_true.mp hcleared.intent
  obtain ⟨hcapIn, hcapCompany, hcapAgent, hcapActive, hcapFrom, hcapAhead⟩ :=
    Capabilities.mem_getActiveCapabilities.mp hrows.capability_row
  obtain ⟨hversionIn, hversionPolicy, hversionActive, _⟩ :=
    Policies.getActiveVersion_eq_some hrows.version_row
  have hfresh := hcleared.fresh
  simp only [decisionInput, Bool.or_eq_false_iff] at hfresh
  refine ⟨agent, constitution, capability, policy, version, ?_⟩
  exact
    { agent_found := Agents.getAgent_eq_some hrows.agent_row
      agent_active := hactive
      intent_valid := hintent
      intent_ahead := hahead
      constitution_active :=
        Constitutions.getActiveConstitution_eq_some hrows.constitution_row
      capability_usable := ⟨hcapIn, hcapCompany, hcapAgent, hcapActive,
        hcapFrom, Capabilities.ahead_of_expiry hcapAhead⟩
      policy_owned := ⟨hrows.policy_row.1, hrows.policy_active,
        hrows.policy_row.2⟩
      version_active := ⟨hversionIn, hversionPolicy, hversionActive⟩
      rules_admit := PolicyEngine.evaluate_pass_iff.mp
        ⟨evaluation, hrows.evaluated, hcleared.policy⟩
      transaction := Gate.compare_mismatch_iff.mp (hcleared.gate _ rfl)
      simulation_bound := Gate.binding_valid_iff.mp (hcleared.binding _ rfl)
      simulation_passed :=
        classify_passed hcleared.outcome hcleared.simulation
      assessment_fresh := assessmentStale_eq_false.mp hfresh.1
      context_current :=
        ⟨evaluation, hrows.evaluated, contextDrift_eq_false.mp hfresh.2⟩
      approval_granted := approvalState_cleared hcleared.approval
      advice := handling_passed hcleared.advisory }

theorem sample_authorized :
    ∃ outcome db',
      revalidate .reference samplePayment sampleNow sampleIds
        (sampleDatabase []) = (.ok outcome, db') ∧
      outcome.result = .allow ∧ outcome.determinant = "allow" ∧
        ∃ agent constitution capability policy version,
          Authorizes .reference samplePayment sampleNow (sampleDatabase [])
            agent constitution capability policy version := by
  have hamount : Reference.decimal? samplePayment.amount = some 10 := by
    decide
  obtain ⟨state, db', _, _, hrun⟩ :=
    minted_of_plain sample_plain sample_ready
      (sample_mint ⟨rfl, rfl, rfl, rfl, rfl⟩ ⟨rfl, rfl, rfl⟩ hamount
        (by norm_num))
  exact ⟨_, db', hrun, rfl, rfl,
    revalidate_sound (by decide) hrun rfl⟩

end Revalidation
end Orvex
