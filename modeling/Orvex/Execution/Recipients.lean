import Orvex.Execution.Proposals
import Orvex.Gate.Soundness
import Orvex.Policy.Spelling

/-!
# Rules on recipients and the address that is paid

The policy compares a recipient as a text and the builder pays the address
that the text spells.  Two spellings of one address are judged alike exactly
when the rules on recipients treat them alike, and an address that is on a
block list in some spelling is kept from being paid exactly when the entries
of the list spell it as the proposal does.
-/

namespace Orvex
namespace Execution

open PolicyEngine

/-- The rules of the active policy of the agent. -/
def ActiveRules (input : Revalidation.RevalidateInput) (db : Database)
    (rules : List CompiledRule) : Prop :=
  ∃ agent policyId version,
    Agents.getAgent input.companyId input.agentId db = some agent ∧
      agent.activePolicyId = some policyId ∧
      Policies.getActiveVersion input.companyId policyId db = some version ∧
      rules = version.compiledPolicyJson.rules.getD []

/-- No entry of an active block list spells the address. -/
def OffBlocklists (viem : Viem) (rules : List CompiledRule)
    (address : String) : Prop :=
  ∀ rule ∈ rules, rule.active = true → rule.type = .recipientBlocklist →
    ∀ entry ∈ recipientEntries rule, viem.getAddress entry ≠ some address

/-- Every entry of an active block list that spells the address spells it in
this way. -/
def SpelledAlike (viem : Viem) (rules : List CompiledRule)
    (address spelling : String) : Prop :=
  ∀ rule ∈ rules, rule.active = true → rule.type = .recipientBlocklist →
    ∀ entry ∈ recipientEntries rule, viem.getAddress entry = some address →
      entry = spelling

/-- What the builder makes of the intent of the proposal pays this
address. -/
def Pays (viem : Viem) (registry : ChainRegistry)
    (intent : TransactionIntent) (address : String) : Prop :=
  ∃ ctx createdAt tx decoded,
    TransactionBuilder.build viem registry intent ctx createdAt = .ok tx ∧
      TransactionDecoder.decode viem tx = .ok decoded ∧
      decoded.target = some address

theorem pays_spelled {viem : Viem} {registry : ChainRegistry}
    {intent : TransactionIntent} {address : String} (hviem : viem.Lawful)
    (h : Pays viem registry intent address) :
    viem.getAddress intent.recipient.address = some address := by
  obtain ⟨ctx, createdAt, tx, decoded, hbuild, hdecode, htarget⟩ := h
  obtain ⟨-, -, recipient, units, hrecipient, -, htransfer⟩ :=
    build_eq_ok hviem hbuild
  rw [decode_transfer hviem htransfer, Except.ok.injEq] at hdecode
  rw [← hdecode, Option.some.injEq] at htarget
  rw [hrecipient, htarget]

/-- The recipient of an authorized proposal is on no active block list, as
it is spelled. -/
theorem authorized_not_listed {rt : Runtime}
    {input : Revalidation.RevalidateInput} {now : ℤ}
    {ids : Revalidation.MintIds} {db db' : Database}
    {outcome : Revalidation.RevalidationOutcome} {recipient : String}
    (hkeys : KeyedTable.UniqueKeys PolicyVersion.id db.policyVersions)
    (hrun : Revalidation.revalidate rt input now ids db = (.ok outcome, db'))
    (hallow : outcome.result = .allow)
    (hrecipient : proposalRecipient input.proposal = some recipient)
    (hne : recipient ≠ "") :
    ∃ rules, ActiveRules input db rules ∧
      ∀ rule ∈ rules, rule.active = true → rule.type = .recipientBlocklist →
        recipient ∉ recipientEntries rule := by
  obtain ⟨state, hresolve, hcleared, -⟩ :=
    Revalidation.mint_of_allow hrun hallow
  obtain ⟨agent, constitution, capability, policy, version, evaluation,
    hrows⟩ := Revalidation.rows_of_cleared hkeys hresolve hcleared
  refine ⟨_, ⟨agent, policy.id, version, hrows.agent_row,
    hrows.policy_active, hrows.version_row, rfl⟩, ?_⟩
  have hstatus : evaluation.status = .pass := by
    have hpass := hcleared.policy
    rw [hrows.state_eq] at hpass
    exact hpass
  intro rule hrule hactive htype
  have hadmits := evaluate_pass_iff.mp
    ⟨evaluation, hrows.evaluated, hstatus⟩ rule hrule hactive
  exact not_mem_of_admits htype hne hrecipient hadmits

/-- An authorized payment pays an address that no active block list spells
exactly when the lists spell it as the proposal does. -/
theorem authorized_off_blocklists_iff {rt : Runtime} {viem : Viem}
    {registry : ChainRegistry} {input : Revalidation.RevalidateInput}
    {now : ℤ} {ids : Revalidation.MintIds} {db db' : Database}
    {outcome : Revalidation.RevalidationOutcome}
    {intent : TransactionIntent} {address : String} (hviem : viem.Lawful)
    (hkeys : KeyedTable.UniqueKeys PolicyVersion.id db.policyVersions)
    (hrun : Revalidation.revalidate rt input now ids db = (.ok outcome, db'))
    (hallow : outcome.result = .allow)
    (hintent : intent.recipient =
      (normalizeToTransactionIntent input.proposal
        input.transactionId).recipient)
    (hpays : Pays viem registry intent address) :
    ∃ rules, ActiveRules input db rules ∧
      (OffBlocklists viem rules address ↔
        SpelledAlike viem rules address intent.recipient.address) := by
  have hspelled := pays_spelled hviem hpays
  have hne := hviem.ne_empty hspelled
  obtain ⟨recipient, hrecipient⟩ :
      ∃ recipient, proposalRecipient input.proposal = some recipient := by
    cases hproposal : proposalRecipient input.proposal with
    | some recipient => exact ⟨recipient, rfl⟩
    | none =>
        rw [hintent, normalizeToTransactionIntent, hproposal] at hne
        exact absurd rfl hne
  have hsame : intent.recipient.address = recipient := by
    rw [hintent, normalizeToTransactionIntent, hrecipient]
    rfl
  rw [hsame] at hne hspelled ⊢
  obtain ⟨rules, hrules, hunlisted⟩ :=
    authorized_not_listed hkeys hrun hallow hrecipient hne
  refine ⟨rules, hrules, ?_, ?_⟩
  · intro hoff rule hrule hactive htype entry hentry haddress
    exact absurd haddress (hoff rule hrule hactive htype entry hentry)
  · intro halike rule hrule hactive htype entry hentry haddress
    have heq := halike rule hrule hactive htype entry hentry haddress
    rw [heq] at hentry
    exact hunlisted rule hrule hactive htype hentry

/-- The rules on recipients judge the address, and keep a blocked one from
being paid, exactly when they treat its spellings alike. -/
theorem recipient_rules_judge_address_iff {viem : Viem}
    (hviem : viem.Lawful) (rt : Runtime) :
    (∀ policyId version rules ctx one other address,
      viem.getAddress one = some address →
      viem.getAddress other = some address →
      (status? rt policyId version rules (spelled ctx one) =
          status? rt policyId version rules (spelled ctx other) ↔
        TreatedAlike rt rules ctx one other)) ∧
    ∀ registry input now ids db db' outcome intent address,
      KeyedTable.UniqueKeys PolicyVersion.id db.policyVersions →
      Revalidation.revalidate rt input now ids db = (.ok outcome, db') →
      outcome.result = .allow →
      intent.recipient = (normalizeToTransactionIntent input.proposal
        input.transactionId).recipient →
      Pays viem registry intent address →
      ∃ rules, ActiveRules input db rules ∧
        (OffBlocklists viem rules address ↔
          SpelledAlike viem rules address intent.recipient.address) := by
  constructor
  · intro policyId version rules ctx one other address hone hother
    exact same_status_iff (hviem.ne_empty hone) (hviem.ne_empty hother)
  · intro registry input now ids db db' outcome intent address hkeys hrun
      hallow hintent hpays
    exact authorized_off_blocklists_iff hviem hkeys hrun hallow hintent hpays

/-! ## A block list in small letters -/

def smallLetters : String := "0x036cbd53842c5426634e7929541ec2318f3dcf7e"

def checksummed : String := "0x036CbD53842c5426634e7929541eC2318f3dCF7e"

def baseToken : String := "0x833589fCD6eDb6E08f4c7C32D4f71b54bdA02913"

/-- The calldata of a transfer of 10 USDC to the address. -/
def tenCalldata : String :=
  "0xa9059cbb" ++
    "000000000000000000000000036cbd53842c5426634e7929541ec2318f3dcf7e" ++
    "0000000000000000000000000000000000000000000000000000000000989680"

/-- The two spellings of the recipient, the token and the signer. -/
def tenViem : Viem :=
  .ofTables
    [(smallLetters, checksummed), (checksummed, checksummed),
      (baseToken, baseToken), (paymentSender, paymentSender)]
    [((checksummed, 10000000), tenCalldata)] []

theorem tenViem_lawful : tenViem.Lawful :=
  Viem.lawful_ofTables (by decide) (by decide)
    (by decide +kernel) (by decide +kernel)

def blockRecipient (recipient : String) : CompiledRule where
  ruleId := "blocked"
  type := .recipientBlocklist
  priority := none
  enabled := none
  config := some (.object [("recipients", .array [.string recipient])])
  extra := []

/-- The payment of the sample, to the address in its checksum form. -/
def tenPayment : Revalidation.RevalidateInput :=
  Revalidation.simulated .reference
    { Revalidation.sampleInput with
      proposal :=
        { Revalidation.sampleProposal with
          recipient := some ⟨none, some checksummed, some "base"⟩ }
      analysis :=
        { Revalidation.sampleAnalysis with recipient := checksummed } }

def tenIntent : TransactionIntent :=
  { normalizeToTransactionIntent tenPayment.proposal "transaction-1" with
    actionType := "payment" }

def tenContext : EvaluationContext :=
  Revalidation.evaluationContext .reference tenPayment.proposal
    (some Revalidation.sampleCapability) Revalidation.sampleNow

theorem eq_ok_of_toOption {ε α : Type} {x : Except ε α} {a : α}
    (h : x.toOption = some a) : x = .ok a := by
  cases x with
  | error e => simp [Except.toOption] at h
  | ok b => simpa [Except.toOption] using h

theorem ten_paid : Pays tenViem ⟨none, none⟩ tenIntent checksummed := by
  have htarget :
      ((TransactionBuilder.build tenViem ⟨none, none⟩ tenIntent
        ⟨paymentSender, none⟩ "").toOption.bind (fun tx =>
          (TransactionDecoder.decode tenViem tx).toOption)).bind
        DecodedTransaction.target = some checksummed := by
    decide +kernel
  obtain ⟨decoded, hdecoded, htarget⟩ := Option.bind_eq_some_iff.mp htarget
  obtain ⟨tx, htx, hdecode⟩ := Option.bind_eq_some_iff.mp hdecoded
  exact ⟨_, _, tx, decoded, eq_ok_of_toOption htx, eq_ok_of_toOption hdecode,
    htarget⟩

/-- Under a block list without the checksum form the payment is
authorized. -/
theorem ten_authorized {rules : List CompiledRule}
    (hready : (Revalidation.resolve .reference tenPayment
      Revalidation.sampleNow (Revalidation.sampleDatabase rules)).toOption.map
        Revalidation.Resolved.ready = some true) :
    ∃ outcome db',
      Revalidation.revalidate .reference tenPayment Revalidation.sampleNow
        Revalidation.sampleIds (Revalidation.sampleDatabase rules) =
          (.ok outcome, db') ∧
      outcome.result = .allow := by
  have hplain : Revalidation.Plain .reference tenPayment
      Revalidation.sampleNow :=
    ⟨Revalidation.sample_plain.intent, by decide, ⟨rfl, rfl⟩, rfl,
      rfl, rfl, rfl, rfl⟩
  have hamount : Reference.decimal? tenPayment.amount = some 10 := by
    decide
  obtain ⟨state, db', _, _, hrun⟩ :=
    Revalidation.minted_of_plain hplain hready
      (Revalidation.sample_mint ⟨rfl, rfl, rfl, rfl, rfl⟩ ⟨rfl, rfl, rfl⟩
        hamount (by norm_num))
  exact ⟨_, db', hrun, rfl⟩

theorem ten_active_rules (rules : List CompiledRule) :
    ActiveRules tenPayment (Revalidation.sampleDatabase rules) rules :=
  ⟨Revalidation.sampleAgent, "policy-1", Revalidation.sampleVersion rules,
    rfl, rfl, rfl, rfl⟩

/-- The list blocks the address in small letters: that spelling fails, the
checksum form passes, and the payment to it is authorized and built. -/
theorem small_letters_bypassed :
    let rules := [blockRecipient smallLetters]
    let db := Revalidation.sampleDatabase rules
    (tenViem.getAddress smallLetters = some checksummed ∧
      tenViem.getAddress checksummed = some checksummed) ∧
    status? .reference "policy-1" 1 rules
        (spelled tenContext smallLetters) = some .fail ∧
    status? .reference "policy-1" 1 rules
        (spelled tenContext checksummed) = some .pass ∧
    (∃ outcome db',
      Revalidation.revalidate .reference tenPayment Revalidation.sampleNow
        Revalidation.sampleIds db = (.ok outcome, db') ∧
      outcome.result = .allow) ∧
    tenIntent.recipient = (normalizeToTransactionIntent tenPayment.proposal
      tenPayment.transactionId).recipient ∧
    Pays tenViem ⟨none, none⟩ tenIntent checksummed ∧
    ActiveRules tenPayment db rules ∧
    ¬ OffBlocklists tenViem rules checksummed := by
  intro rules db
  have hready : (Revalidation.resolve .reference tenPayment
      Revalidation.sampleNow db).toOption.map
        Revalidation.Resolved.ready = some true := by
    decide
  have hlisted : smallLetters ∈ recipientEntries
      (blockRecipient smallLetters) := List.mem_singleton.mpr rfl
  refine ⟨⟨by decide, by decide⟩, by decide,
    by decide, ten_authorized hready, rfl, ten_paid,
    ten_active_rules rules, ?_⟩
  intro hoff
  exact hoff _ List.mem_cons_self rfl rfl _ hlisted (by decide)

theorem blocklist_readable (rt : Runtime) (blocked recipient : String)
    (ctx : EvaluationContext) :
    ¬ Unreadable rt [blockRecipient blocked] (spelled ctx recipient) := by
  rintro ⟨rule, hmem, -, failure, hfailure⟩
  rw [List.mem_singleton.mp hmem] at hfailure
  simp only [blockRecipient, evaluators, Evaluators.recipientBlocklist,
    Evaluators.BlockList.evaluate, CompiledRule.setting,
    Fallible.result_ok_bind, spelled] at hfailure
  split at hfailure
  next => simp at hfailure
  next => simp at hfailure

theorem not_blocked {rt : Runtime} {blocked recipient : String}
    (hne : recipient ≠ blocked) (ctx : EvaluationContext) :
    ¬ Blocked rt [blockRecipient blocked] ctx recipient := by
  rintro ⟨rule, hmem, -, hblocked⟩
  rw [List.mem_singleton.mp hmem] at hblocked
  rcases hblocked with ⟨htype, -⟩ | ⟨-, hlisted⟩ | ⟨⟨htype, -⟩, -⟩
  · exact absurd htype (by simp [blockRecipient])
  · exact hne (List.mem_singleton.mp hlisted)
  · exact absurd htype (by simp [blockRecipient])

/-- A list that names another address judges both spellings alike and lets
the payment through. -/
theorem ten_off_blocklists :
    let rules := [blockRecipient paymentSender]
    status? .reference "policy-1" 1 rules
        (spelled tenContext smallLetters) =
      status? .reference "policy-1" 1 rules
        (spelled tenContext checksummed) ∧
    ∃ active, ActiveRules tenPayment (Revalidation.sampleDatabase rules)
        active ∧
      (OffBlocklists tenViem active checksummed ↔
        SpelledAlike tenViem active checksummed checksummed) := by
  intro rules
  have hready : (Revalidation.resolve .reference tenPayment
      Revalidation.sampleNow
      (Revalidation.sampleDatabase rules)).toOption.map
        Revalidation.Resolved.ready = some true := by
    decide
  obtain ⟨outcome, db', hrun, hallow⟩ := ten_authorized hready
  have hsmall : ¬ Blocked .reference rules tenContext smallLetters :=
    not_blocked (by decide) tenContext
  have hchecksum : ¬ Blocked .reference rules tenContext checksummed :=
    not_blocked (by decide) tenContext
  have hfamiliar : ∀ recipient, ¬ Unfamiliar rules tenContext recipient := by
    rintro recipient ⟨rule, hmem, -, htype, -⟩
    rw [List.mem_singleton.mp hmem] at htype
    simp [blockRecipient] at htype
  have halike : TreatedAlike .reference rules tenContext smallLetters
      checksummed := by
    refine ⟨iff_of_false (blocklist_readable _ _ _ _)
      (blocklist_readable _ _ _ _), Or.inr (Or.inr ⟨?_, Or.inr (Or.inr ?_)⟩)⟩
    · exact iff_of_false hsmall hchecksum
    · exact iff_of_false (hfamiliar _) (hfamiliar _)
  obtain ⟨hstatus, hblocklists⟩ :=
    recipient_rules_judge_address_iff tenViem_lawful .reference
  exact ⟨(hstatus "policy-1" 1 rules tenContext _ _ checksummed
      (by decide) (by decide)).mpr halike,
    hblocklists ⟨none, none⟩ tenPayment _ _ _ _ _ tenIntent checksummed
      (by decide) hrun hallow rfl ten_paid⟩

end Execution
end Orvex
