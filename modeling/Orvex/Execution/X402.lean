import Orvex.Execution.SamePayment

/-!
# Payment requirements of other services

A service that wants to be paid answers with a requirement, which nobody
trusts.  The parser maps it to a candidate that the core has to authorize.  If
the candidate is built, what is paid is what the requirement asks for, and the
validator finds that the candidate expects it.
-/

namespace Orvex
namespace Execution
namespace X402

/-! ## The requirement -/

/-- The fields that the parser reads. -/
structure X402Requirement where
  scheme : String
  network : String
  maxAmountRequired : String
  payTo : String
  asset : String
  resource : Option String

def isString : Json → Bool
  | .string _ => true
  | _ => false

/-- An integer that a double holds exactly. -/
def isSafeInteger : Json → Bool
  | .number n => decide (n.den = 1) && decide (|n| ≤ 2 ^ 53 - 1)
  | _ => false

def isRecord : Json → Bool
  | .object _ => true
  | _ => false

/-- The path of a field whose value is missing or of another kind. -/
def requiredIssue (fields : List (String × Json)) (key : String)
    (accepts : Json → Bool) : List String :=
  match fields.lookup key with
  | some value => if accepts value then [] else [key]
  | none => [key]

/-- A field that may be missing or `null`. -/
def nullishIssue (fields : List (String × Json)) (key : String)
    (accepts : Json → Bool) : List String :=
  match fields.lookup key with
  | none => []
  | some .null => []
  | some value => if accepts value then [] else [key]

def issues (fields : List (String × Json)) : List String :=
  requiredIssue fields "scheme" isString ++
    requiredIssue fields "network" isString ++
    requiredIssue fields "maxAmountRequired" isString ++
    requiredIssue fields "payTo" isString ++
    requiredIssue fields "asset" isString ++
    nullishIssue fields "resource" isString ++
    nullishIssue fields "description" isString ++
    nullishIssue fields "mimeType" isString ++
    nullishIssue fields "maxTimeoutSeconds" isSafeInteger ++
    nullishIssue fields "extra" isRecord

def textOf (fields : List (String × Json)) (key : String) : Option String :=
  match fields.lookup key with
  | some (.string text) => some text
  | _ => none

/-- `X402Requirement.safeParse(raw)`, with the paths of the issues. -/
def safeParse : Json → Except (List String) X402Requirement
  | .object fields =>
      if issues fields = [] then
        .ok
          { scheme := (textOf fields "scheme").getD ""
            network := (textOf fields "network").getD ""
            maxAmountRequired :=
              (textOf fields "maxAmountRequired").getD ""
            payTo := (textOf fields "payTo").getD ""
            asset := (textOf fields "asset").getD ""
            resource := textOf fields "resource" }
      else .error (issues fields)
  | _ => .error [""]

/-! ## The parser -/

structure ParsedX402 where
  scheme : String
  network : String
  amount : String
  payTo : String
  asset : String
  resource : Option String

structure X402ParseOptions where
  allowedNetworks : List String
  expectedUsdc : String

def notExpected (opts : X402ParseOptions) (asset : String) : Thrown :=
  .of .validationFailed "x402 asset is not the expected USDC contract."
    [("asset", .string asset), ("expected", .string opts.expectedUsdc)]

def assertAsset (viem : Viem) (opts : X402ParseOptions) (asset : String) :
    Except Thrown Unit :=
  if viem.isAddress asset = false then .error (notExpected opts asset)
  else do
    let actual ← viem.requireSpelling asset
    let expected ← viem.requireSpelling opts.expectedUsdc
    if actual ≠ expected then .error (notExpected opts asset) else pure ()

def parseRequirement (viem : Viem) (opts : X402ParseOptions)
    (r : X402Requirement) : Except Thrown ParsedX402 :=
  if r.scheme ≠ "exact" then
    .error (.of .unsupported
      "Only the x402 'exact' scheme is supported in V1."
      [("scheme", .string r.scheme)])
  else if r.network ∉ opts.allowedNetworks then
    .error (.of .validationFailed "x402 network is not allow-listed."
      [("network", .string r.network),
        ("allowed", .array (opts.allowedNetworks.map .string))])
  else if viem.isAddress r.payTo = false then
    .error (.of .validationFailed "x402 payTo is not a valid address."
      [("payTo", .string r.payTo)])
  else do
    assertAsset viem opts r.asset
    -- the pattern of the amount is the one of `toBaseUnits`
    if (decimalGroups r.maxAmountRequired.toList).isNone then
      .error (.of .validationFailed "x402 amount is not a valid decimal."
        [("amount", .string r.maxAmountRequired)])
    else do
      let payTo ← viem.requireSpelling r.payTo
      let asset ← viem.requireSpelling r.asset
      pure
        { scheme := r.scheme
          network := r.network
          amount := r.maxAmountRequired
          payTo := payTo
          asset := asset
          resource := r.resource }

def parse (viem : Viem) (opts : X402ParseOptions) (raw : Json) :
    Except Thrown ParsedX402 :=
  match safeParse raw with
  | .error paths =>
      .error (.of .validationFailed "Malformed x402 payment requirement."
        [("issues", .array (paths.map .string))])
  | .ok r => parseRequirement viem opts r

/-! ## The adapter -/

structure X402ExecutionCandidate where
  parsed : ParsedX402
  intent : TransactionIntent
  expectation : AuthorizedExpectation

structure X402AdapterOptions where
  parseOptions : X402ParseOptions
  chainId : ℤ

structure CandidateContext where
  proposalId : String
  transactionId : String

def candidateOf (opts : X402AdapterOptions) (ctx : CandidateContext)
    (parsed : ParsedX402) : X402ExecutionCandidate where
  parsed := parsed
  intent :=
    { transactionId := ctx.transactionId
      proposalId := ctx.proposalId
      actionType := "payment"
      network := parsed.network
      asset := ⟨"USDC", some parsed.asset, some "erc20"⟩
      amount := parsed.amount
      recipient := ⟨parsed.payTo⟩
      paymentMethod := some "x402" }
  expectation :=
    { network := parsed.network
      chainId := opts.chainId
      recipient := parsed.payTo
      asset := "USDC"
      amount := parsed.amount
      allowedFunction := .transfer }

def toExecutionCandidate (viem : Viem) (opts : X402AdapterOptions)
    (raw : Json) (ctx : CandidateContext) :
    Except Thrown X402ExecutionCandidate := do
  let parsed ← parse viem opts.parseOptions raw
  pure (candidateOf opts ctx parsed)

/-! ## What a candidate asks for -/

/-- An accepted requirement with what was read from it. -/
structure Accepted (viem : Viem) (opts : X402ParseOptions)
    (r : X402Requirement) (parsed : ParsedX402) : Prop where
  scheme : r.scheme = "exact"
  allowed : r.network ∈ opts.allowedNetworks
  network : parsed.network = r.network
  payTo : viem.getAddress r.payTo = some parsed.payTo
  asset : viem.getAddress r.asset = some parsed.asset
  expected : viem.getAddress opts.expectedUsdc = some parsed.asset
  amount : parsed.amount = r.maxAmountRequired
  decimal : ∃ whole fraction, Spells r.maxAmountRequired.toList whole fraction

section

variable {viem : Viem} {opts : X402ParseOptions} {r : X402Requirement}
variable {parsed : ParsedX402}

theorem assertAsset_eq_ok {asset : String}
    (h : assertAsset viem opts asset = .ok ()) :
    ∃ address, viem.getAddress asset = some address ∧
      viem.getAddress opts.expectedUsdc = some address := by
  unfold assertAsset at h
  split at h
  next => cases h
  next =>
    obtain ⟨actual, hactual, h⟩ := Fallible.result_bind_eq_ok.mp h
    obtain ⟨expected, hexpected, h⟩ := Fallible.result_bind_eq_ok.mp h
    split at h
    next => cases h
    next hsame =>
      rw [ne_eq, not_not] at hsame
      rw [← hsame] at hexpected
      exact ⟨actual, Viem.requireSpelling_eq_ok.mp hactual,
        Viem.requireSpelling_eq_ok.mp hexpected⟩

theorem parseRequirement_eq_ok
    (h : parseRequirement viem opts r = .ok parsed) :
    Accepted viem opts r parsed := by
  unfold parseRequirement at h
  split at h
  next => cases h
  next hscheme =>
    split at h
    next => cases h
    next hnetwork =>
      split at h
      next => cases h
      next =>
        obtain ⟨_, hasset, h⟩ := Fallible.result_bind_eq_ok.mp h
        obtain ⟨address, haddress, hexpected⟩ := assertAsset_eq_ok hasset
        split at h
        next => cases h
        next hdecimal =>
          obtain ⟨payTo, hpayTo, h⟩ := Fallible.result_bind_eq_ok.mp h
          obtain ⟨asset, hspelled, h⟩ := Fallible.result_bind_eq_ok.mp h
          rw [Viem.requireSpelling_eq_ok] at hpayTo hspelled
          rw [haddress, Option.some.injEq] at hspelled
          have hparsed := (Except.ok.inj h).symm
          subst hparsed
          rw [Option.isNone_iff_eq_none] at hdecimal
          obtain ⟨groups, hgroups⟩ := Option.ne_none_iff_exists'.mp hdecimal
          exact
            { scheme := not_not.mp hscheme
              allowed := not_not.mp hnetwork
              network := rfl
              payTo := hpayTo
              asset := by rw [haddress, hspelled]
              expected := by rw [hexpected, hspelled]
              amount := rfl
              decimal := ⟨groups.1, groups.2, decimalGroups_iff.mp hgroups⟩ }

theorem parse_eq_ok {raw : Json} (h : parse viem opts raw = .ok parsed) :
    ∃ r, safeParse raw = .ok r ∧ Accepted viem opts r parsed := by
  unfold parse at h
  split at h
  next => cases h
  next r hr => exact ⟨r, hr, parseRequirement_eq_ok h⟩

/-! ## What is paid -/

/-- The transaction transfers exactly the required amount to the required
recipient, on the network of the adapter. -/
structure PaysRequirement (viem : Viem) (registry : ChainRegistry)
    (opts : X402AdapterOptions) (r : X402Requirement)
    (tx : TransactionRequest) : Prop where
  chain : tx.chain = ⟨opts.chainId, r.network⟩
  transfer : ∃ decoded units whole fraction,
    TransactionDecoder.decode viem tx = .ok decoded ∧
      decoded.functionName = some "transfer" ∧
      decoded.target = viem.getAddress r.payTo ∧
      decoded.amountUnits = some units ∧ 0 < units ∧
      Spells r.maxAmountRequired.toList whole fraction ∧
      fraction.length ≤ usdcDecimals ∧
      (units : ℚ) = decimalValue whole fraction * 10 ^ usdcDecimals
  token : ∃ usdc, registry.usdc r.network = .ok usdc ∧
    (usdc.address.bind viem.getAddress =
        viem.getAddress opts.parseOptions.expectedUsdc →
      viem.getAddress r.asset = some tx.toAddress)

variable {registry : ChainRegistry} {adapter : X402AdapterOptions}
variable {context : BuildContext} {createdAt : String}
variable {tx : TransactionRequest}

/-- The units of an accepted amount are its value. -/
theorem units_of_spells {whole fraction : List Char} {units : ℕ}
    (hspells : Spells r.maxAmountRequired.toList whole fraction)
    (hunits : toBaseUnits r.maxAmountRequired usdcDecimals = .ok units) :
    fraction.length ≤ usdcDecimals ∧
      (units : ℚ) = decimalValue whole fraction * 10 ^ usdcDecimals := by
  obtain ⟨value, ⟨whole', fraction', hspells', hplaces, hvalue⟩, hsame⟩ :=
    toBaseUnits_iff.mp hunits
  rw [jsTrim_of_spells hspells] at hspells'
  have hparts := hspells.unique hspells'
  rw [hparts.1, hparts.2]
  exact ⟨hplaces, by rw [hsame, hvalue]⟩

/-- Whatever requirement is accepted, the candidate that is built from it pays
the requirement as it stands, and the validator finds nothing against the
candidate's own expectation. -/
theorem candidate_pays_requirement (hviem : viem.Lawful) {raw : Json}
    {ctx : CandidateContext} {candidate : X402ExecutionCandidate}
    (hcandidate : toExecutionCandidate viem adapter raw ctx = .ok candidate)
    (hchain : ∀ chain,
      registry.getByNetwork candidate.parsed.network = .ok chain →
        chain.chainId = adapter.chainId)
    (hbuild : TransactionBuilder.build viem registry candidate.intent context
      createdAt = .ok tx) :
    ∃ r, safeParse raw = .ok r ∧ r.scheme = "exact" ∧
      r.network ∈ adapter.parseOptions.allowedNetworks ∧
      PaysRequirement viem registry adapter r tx ∧
      TransactionValidator.check viem registry tx candidate.expectation =
        .ok [] := by
  obtain ⟨parsed, hparse, hdone⟩ := Fallible.result_bind_eq_ok.mp hcandidate
  obtain ⟨r, hraw, haccepted⟩ := parse_eq_ok hparse
  have hsame := (Except.ok.inj hdone).symm
  subst hsame
  obtain ⟨-, -, recipient, units, hrecipient, hunits, htransfer⟩ :=
    build_eq_ok hviem hbuild
  simp only [candidateOf] at hrecipient hunits htransfer hchain
  rw [hviem.getAddress_self _ _ haccepted.payTo, Option.some.injEq]
    at hrecipient
  subst hrecipient
  have hnetwork := haccepted.network
  obtain ⟨chain, hget, htx⟩ := htransfer.chain
  rw [hchain chain hget] at htx
  refine ⟨r, hraw, haccepted.scheme, haccepted.allowed, ?_, ?_⟩
  · constructor
    · rw [htx, hnetwork]
    · obtain ⟨whole, fraction, hspells⟩ := haccepted.decimal
      rw [haccepted.amount] at hunits
      obtain ⟨hplaces, hvalue⟩ := units_of_spells hspells hunits
      exact ⟨_, units, whole, fraction, decode_transfer hviem htransfer, rfl,
        haccepted.payTo.symm, rfl, htransfer.positive, hspells, hplaces,
        hvalue⟩
    · obtain ⟨usdc, address, husdc, haddress, htoken⟩ := htransfer.token
      refine ⟨usdc, by rw [← hnetwork]; exact husdc, ?_⟩
      intro hconfigured
      rw [haddress, Option.bind_some, htoken, haccepted.expected]
        at hconfigured
      rw [haccepted.asset, hconfigured]
  · rw [check_transfer hviem htransfer, htx]
    exact ⟨rfl, rfl, rfl, ⟨hviem.isAddress_of_getAddress _ _ haccepted.payTo,
      htransfer.spelled⟩, hunits⟩

end

/-! ## A requirement of ten dollars -/

def sampleRequirement : Json :=
  .object [("scheme", .string "exact"), ("network", .string "base"),
    ("maxAmountRequired", .string "10.00"), ("payTo", .string smallLetters),
    ("asset", .string baseToken), ("extra", .null)]

def sampleAdapter : X402AdapterOptions :=
  ⟨⟨["base"], baseToken⟩, 8453⟩

theorem sample_built :
    ((toExecutionCandidate tenViem sampleAdapter sampleRequirement
        ⟨"proposal-1", "transaction-1"⟩).toOption.bind fun candidate =>
      (TransactionBuilder.build tenViem ⟨none, none⟩ candidate.intent
        ⟨paymentSender, none⟩ "").toOption).isSome = true := by
  decide +kernel

theorem sample_pays_requirement :
    ∃ (candidate : X402ExecutionCandidate) (tx : TransactionRequest)
        (r : X402Requirement),
      TransactionBuilder.build tenViem ⟨none, none⟩ candidate.intent
        ⟨paymentSender, none⟩ "" = .ok tx ∧
      safeParse sampleRequirement = .ok r ∧ r.scheme = "exact" ∧
      r.network ∈ sampleAdapter.parseOptions.allowedNetworks ∧
      PaysRequirement tenViem ⟨none, none⟩ sampleAdapter r tx ∧
      TransactionValidator.check tenViem ⟨none, none⟩ tx
        candidate.expectation = .ok [] := by
  obtain ⟨tx, htx⟩ := Option.isSome_iff_exists.mp sample_built
  obtain ⟨candidate, hsome, hbuilt⟩ := Option.bind_eq_some_iff.mp htx
  have hcandidate := eq_ok_of_toOption hsome
  have hbuild := eq_ok_of_toOption hbuilt
  have hnetwork : candidate.parsed.network = "base" := by
    have hread : ((toExecutionCandidate tenViem sampleAdapter
        sampleRequirement ⟨"proposal-1", "transaction-1"⟩).toOption.map
          fun c => c.parsed.network) = some "base" := by
      decide +kernel
    rw [hsome, Option.map_some, Option.some.injEq] at hread
    exact hread
  have hchain : ∀ chain,
      ChainRegistry.getByNetwork ⟨none, none⟩ candidate.parsed.network =
        .ok chain → chain.chainId = sampleAdapter.chainId := by
    intro chain hget
    rw [hnetwork] at hget
    rw [← Except.ok.inj hget]
    rfl
  obtain ⟨r, hpaid⟩ := candidate_pays_requirement tenViem_lawful hcandidate
    hchain hbuild
  exact ⟨candidate, tx, r, hbuild, hpaid⟩

end X402
end Execution
end Orvex
