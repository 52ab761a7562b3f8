import Orvex.Gate.Holds

/-!
# What the policy judged and what is authorized

The policy judges the transaction that the proposal describes.  The request
is minted on the network that the caller names, and the gate compares that
network only with another one that the caller names.
-/

namespace Orvex
namespace Revalidation

/-- The transaction of the evaluation context. -/
def judged (input : RevalidateInput) : TransactionContext :=
  Orchestrator.transactionContext input.proposal input.proposal.network

/-- The transaction that was judged is the one that the request authorizes,
on the network of the request. -/
structure JudgedAuthorized (rt : Runtime) (input : RevalidateInput)
    (request : ExecutionRequestRecord) : Prop where
  network : (judged input).network = some request.network ∧
    request.network = input.actualNetwork
  amount : ∃ text, (judged input).amount = some text ∧
    Gate.SameDecimal rt text input.analysis.amount
  asset : (judged input).asset = some input.analysis.asset
  recipient : (judged input).recipient = some input.analysis.recipient
  action : (judged input).action = input.proposal.actionType.text

/-- The enabled NETWORK_ALLOW rules of the active policy list the network of
the request. -/
def NetworksKept (input : RevalidateInput) (db : Database)
    (request : ExecutionRequestRecord) : Prop :=
  ∀ agent policyId version, Agents.getAgent input.companyId input.agentId
      db = some agent →
    agent.activePolicyId = some policyId →
    Policies.getActiveVersion input.companyId policyId db = some version →
    ∀ rule ∈ version.compiledPolicyJson.rules.getD [],
      rule.active = true → rule.type = .networkAllow →
      ∀ networks, rule.setting "networks" = .ok networks →
        request.network ∈ asStringArray networks

theorem judged_of_matches {rt : Runtime} {input : RevalidateInput}
    {context : Gate.GateContext}
    (h : Gate.Matches rt input.proposal input.analysis context) :
    (∃ text, (judged input).amount = some text ∧
      Gate.SameDecimal rt text input.analysis.amount) ∧
      (judged input).asset = some input.analysis.asset ∧
        (judged input).recipient = some input.analysis.recipient := by
  obtain ⟨money, hmoney, hsame, hasset⟩ := h.amount
  have hamount : (judged input).amount = some money.value := by
    change input.proposal.amount.map Money.value = some money.value
    rw [hmoney, Option.map_some]
  refine ⟨⟨money.value, hamount, hsame⟩, ?_, h.recipient⟩
  change input.proposal.amount.map Money.currency = some _
  rw [hmoney, Option.map_some, hasset]

/-- A NETWORK_ALLOW rule that admits the judged transaction lists its
network. -/
theorem network_mem_of_admits {rt : Runtime} {input : RevalidateInput}
    {capability : Option Capability} {now : ℤ} {rule : CompiledRule}
    {networks : Option Json} {network : String}
    (hadmits : PolicyEngine.Admits rt
      (evaluationContext rt input.proposal capability now) rule)
    (htype : rule.type = .networkAllow)
    (hsetting : rule.setting "networks" = .ok networks)
    (hnetwork : (judged input).network = some network) :
    network ∈ asStringArray networks := by
  obtain ⟨verdict, hverdict, hresult⟩ := hadmits
  rw [htype] at hverdict
  have hlist : Evaluators.networkAllow rt rule (evaluationContext rt
      input.proposal capability now) = .ok verdict := hverdict
  unfold Evaluators.networkAllow at hlist
  obtain ⟨setting, value, hfound, hvalue, hmem⟩ :=
    Evaluators.AllowList.mem_of_admitted hlist hresult
  have hsame : setting = networks :=
    Except.ok.inj (hfound.symm.trans hsetting)
  have hname : value = network :=
    Option.some.inj (hvalue.symm.trans hnetwork)
  rwa [← hsame, ← hname]

theorem networksKept_of_authorizes {rt : Runtime} {input : RevalidateInput}
    {now : ℤ} {db : Database} {state : Resolved}
    {request : ExecutionRequestRecord}
    (hkeys : KeyedTable.UniqueKeys PolicyVersion.id db.policyVersions)
    (hresolve : resolve rt input now db = .ok state)
    (hcleared : DecisionEngine.Cleared
      (decisionInput rt input state now db))
    (hnetwork : (judged input).network = some request.network) :
    NetworksKept input db request := by
  obtain ⟨agent, constitution, capability, policy, version, evaluation,
    hrows⟩ := rows_of_cleared hkeys hresolve hcleared
  intro agent' policyId version' hagent hpolicy hversion rule hrule hactive
    htype networks hsetting
  have hsameAgent : agent' = agent :=
    Option.some.inj (hagent.symm.trans hrows.agent_row)
  have hsamePolicy : policyId = policy.id := by
    rw [hsameAgent, hrows.policy_active, Option.some.injEq] at hpolicy
    exact hpolicy.symm
  have hsameVersion : version' = version := by
    rw [hsamePolicy] at hversion
    exact Option.some.inj (hversion.symm.trans hrows.version_row)
  have hstatus : evaluation.status = .pass := by
    have hpass := hcleared.policy
    rw [hrows.state_eq] at hpass
    exact hpass
  have hadmits := PolicyEngine.evaluate_pass_iff.mp
    ⟨evaluation, hrows.evaluated, hstatus⟩ rule (hsameVersion ▸ hrule) hactive
  exact network_mem_of_admits hadmits htype hsetting hnetwork

/-- What was judged is authorized, and the allowed networks are kept, exactly
when the proposal names the network of the request. -/
theorem judged_authorized_iff {rt : Runtime} {input : RevalidateInput}
    {now : ℤ} {ids : MintIds} {db db' : Database}
    {outcome : RevalidationOutcome}
    (hkeys : KeyedTable.UniqueKeys PolicyVersion.id db.policyVersions)
    (hrun : revalidate rt input now ids db = (.ok outcome, db'))
    (hallow : outcome.result = .allow)
    (hfresh : outcome.determinant = "allow") :
    ∃ request, outcome.executionRequest = some request ∧
      ((JudgedAuthorized rt input request ∧ NetworksKept input db request) ↔
        input.proposal.network = some input.actualNetwork) := by
  obtain ⟨state, mid, account, res, ensured, held, hresolve, hcleared, hmid,
    hmints⟩ := mints_of_allow hrun hallow hfresh
  refine ⟨newRequest rt input state.policy now ids.executionRequest, ?_, ?_⟩
  · rw [hmints.outcome_eq]
    rfl
  constructor
  · rintro ⟨hjudged, _⟩
    exact hjudged.network.1
  · intro hnetwork
    have hmatches := Gate.compare_mismatch_iff.mp (hcleared.gate _ rfl)
    obtain ⟨hamount, hasset, hrecipient⟩ := judged_of_matches hmatches
    have hjudged : JudgedAuthorized rt input
        (newRequest rt input state.policy now ids.executionRequest) :=
      { network := ⟨hnetwork, rfl⟩
        amount := hamount
        asset := hasset
        recipient := hrecipient
        action := rfl }
    exact ⟨hjudged,
      networksKept_of_authorizes hkeys hresolve hcleared hnetwork⟩

/-- The policy of the sample: payments on base only. -/
def baseOnly : CompiledRule where
  ruleId := "networks"
  type := .networkAllow
  priority := none
  enabled := none
  config := some (.object [("networks", .array [.string "base"])])
  extra := []

theorem sample_judged_authorized :
    ∃ outcome db' request,
      revalidate .reference samplePayment sampleNow sampleIds
        (sampleDatabase [baseOnly]) = (.ok outcome, db') ∧
      outcome.executionRequest = some request ∧
        JudgedAuthorized .reference samplePayment request ∧
          NetworksKept samplePayment (sampleDatabase [baseOnly]) request := by
  have hready : (resolve .reference samplePayment sampleNow
      (sampleDatabase [baseOnly])).toOption.map Resolved.ready =
        some true := by
    decide
  have hamount : Reference.decimal? samplePayment.amount = some 10 := by
    decide
  obtain ⟨state, db', _, _, hrun⟩ :=
    minted_of_plain sample_plain hready
      (sample_mint ⟨rfl, rfl, rfl, rfl, rfl⟩ ⟨rfl, rfl, rfl⟩ hamount
        (by norm_num))
  obtain ⟨request, hrequest, hiff⟩ :=
    judged_authorized_iff (by decide) hrun rfl rfl
  exact ⟨_, db', request, hrun, hrequest, hiff.mpr rfl⟩

/-- The payment of the sample, proposed on base and executed on mainnet. -/
def mainnetPayment : RevalidateInput :=
  simulated .reference
    { sampleInput with
      expectedNetwork := "mainnet"
      actualNetwork := "mainnet" }

def mainnetDatabase : Database :=
  { sampleDatabase [baseOnly] with
    financialAccounts := [sampleAccount "mainnet"] }

theorem mainnet_escapes_policy :
    ∃ outcome db' request,
      revalidate .reference mainnetPayment sampleNow sampleIds
        mainnetDatabase = (.ok outcome, db') ∧
      outcome.result = .allow ∧ outcome.determinant = "allow" ∧
        outcome.executionRequest = some request ∧
          ¬ JudgedAuthorized .reference mainnetPayment request ∧
            ¬ NetworksKept mainnetPayment mainnetDatabase request := by
  have hplain : Plain .reference mainnetPayment sampleNow :=
    ⟨sample_plain.intent, by decide, ⟨rfl, rfl⟩, rfl, rfl, rfl, rfl,
      rfl⟩
  have hready : (resolve .reference mainnetPayment sampleNow
      mainnetDatabase).toOption.map Resolved.ready = some true := by
    decide
  have hamount : Reference.decimal? mainnetPayment.amount = some 10 := by
    decide
  obtain ⟨state, db', _, _, hrun⟩ :=
    minted_of_plain hplain hready
      (sample_mint ⟨rfl, rfl, rfl, rfl, rfl⟩ ⟨rfl, rfl, rfl⟩ hamount
        (by norm_num))
  refine ⟨_, db', _, hrun, rfl, rfl, rfl, ?_, ?_⟩
  · intro hjudged
    have hnetwork : some "base" = some "mainnet" := hjudged.network.1
    exact absurd hnetwork (by decide)
  · intro hkept
    have hmem : "mainnet" ∈ asStringArray
        (some (.array [.string "base"])) :=
      hkept sampleAgent "policy-1" (sampleVersion [baseOnly]) rfl rfl rfl
        baseOnly (List.mem_singleton.mpr rfl) rfl rfl _ rfl
    exact absurd hmem (by decide)

end Revalidation
end Orvex
