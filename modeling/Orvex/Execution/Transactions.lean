import Orvex.Core.Contracts
import Orvex.Execution.Chains
import Orvex.Execution.Money

/-!
# Building and checking a transaction

The builder turns an authorized intent into the call of the token contract.
The decoder reads a transaction back from its bytes, the analyzer reports
what it does, and the validator compares it with what was authorized.
-/

namespace Orvex
namespace Execution

/-! ## Builder -/

structure BuildContext where
  fromAddress : String
  transactionId : Option String
  deriving DecidableEq

namespace TransactionBuilder

variable (viem : Viem) (registry : ChainRegistry)

def requireAddress (value field : String) : Except Thrown String :=
  if value = "" ∨ viem.isAddress value = false then
    .error (.of .buildError ("Invalid " ++ field ++ " address.")
      [("field", .string field), ("value", .string value)])
  else viem.requireSpelling value

def encodeTransfer (recipient : String) (units : ℕ) : Except Thrown String :=
  match viem.encodeTransfer recipient units with
  | some data => .ok data
  | none => .error .foreign

/-- The configured token contract of a network. -/
def configuredAddress (network : String) (usdc : AssetDefinition) :
    Except Thrown String :=
  if truthy usdc.address then .ok (usdc.address.getD "")
  else
    .error (.of .configError "USDC address not configured for network."
      [("network", .string network)])

def positiveUnits (amount : String) (decimals : ℕ) : Except Thrown ℕ := do
  let units ← toBaseUnits amount decimals
  if units ≤ 0 then
    .error (.of .buildError "Transfer amount must be positive."
      [("amount", .string amount)])
  else pure units

def build (intent : TransactionIntent) (ctx : BuildContext)
    (createdAt : String) : Except Thrown TransactionRequest :=
  if intent.actionType ≠ "payment" ∧ intent.actionType ≠ "transfer" then
    .error (.of .buildError "Unsupported action_type for V1 USDC transfer."
      [("action_type", .string intent.actionType)])
  else if intent.asset.symbol ≠ "USDC" then
    .error (.of .unsupported "V1 only builds USDC transfers."
      [("asset", .string intent.asset.symbol)])
  else do
    let chain ← registry.getByNetwork intent.network
    let usdc ← registry.usdc intent.network
    let configured ← configuredAddress intent.network usdc
    let sender ← requireAddress viem ctx.fromAddress "from"
    let recipient ← requireAddress viem intent.recipient.address "recipient"
    let tokenAddress ← requireAddress viem configured "token"
    let units ← positiveUnits intent.amount usdc.decimals
    let data ← encodeTransfer viem recipient units
    pure
      { transactionId := ctx.transactionId.getD intent.transactionId
        chain := ⟨chain.chainId, chain.network⟩
        fromAddress := sender
        toAddress := tokenAddress
        value := "0"
        data := data
        asset := ⟨usdc.symbol, some tokenAddress, some "erc20"⟩
        amount := intent.amount
        proposalId := intent.proposalId
        intentId := intent.transactionId
        createdAt := createdAt }

end TransactionBuilder

/-! ## Decoder -/

structure DecodedTransaction where
  selector : String
  functionName : Option String
  known : Bool
  target : Option String
  amountUnits : Option ℕ
  token : String
  args : List (String × String)
  deriving DecidableEq

namespace TransactionDecoder

variable (viem : Viem)

def natText (n : ℕ) : String := String.ofList (Nat.toDigits 10 n)

def unknownCall (selector token : String) : DecodedTransaction :=
  { selector := selector
    functionName := none
    known := false
    target := none
    amountUnits := none
    token := token
    args := [] }

/-- A call whose target is spelled with its checksum; `none` is the
exception. -/
def knownCall (selector token name argument : String)
    (before : Option (List (String × String))) (target : String)
    (amount : ℕ) : Option DecodedTransaction := do
  let args ← before
  let address ← viem.getAddress target
  pure
    { selector := selector
      functionName := some name
      known := true
      target := some address
      amountUnits := some amount
      token := token
      args := args ++ [(argument, address), ("amount", natText amount)] }

/-- What the ERC-20 interface makes of the calldata. -/
def decodeCall (selector token data : String) : Option DecodedTransaction :=
  match viem.decodeFunctionData data with
  | some (.transfer receiver amount) =>
      knownCall viem selector token "transfer" "to" (some []) receiver amount
  | some (.approve spender amount) =>
      knownCall viem selector token "approve" "spender" (some []) spender
        amount
  | some (.transferFrom owner receiver amount) =>
      knownCall viem selector token "transferFrom" "to"
        ((viem.getAddress owner).map (fun address => [("from", address)]))
        receiver amount
  | some (.view _) => none
  | none => none

def decode (tx : TransactionRequest) : Except Thrown DecodedTransaction := do
  let token ← viem.requireSpelling tx.toAddress
  if tx.data = "" ∨ tx.data = "0x" ∨ tx.data.length < 10 then
    pure (unknownCall
      (if tx.data ≠ "" ∧ 10 ≤ tx.data.length then viem.selector tx.data
        else "0x") token)
  else
    let selector := viem.selector tx.data
    pure ((decodeCall viem selector token tx.data).getD
      (unknownCall selector token))

end TransactionDecoder

/-! ## Analyzer -/

namespace TransactionAnalyzer

variable (viem : Viem) (registry : ChainRegistry)

/-- The flags and the status that the function alone gives. -/
def functionFindings (decoded : DecodedTransaction) :
    List String × TransactionAnalysisStatus :=
  if decoded.known = false then (["unknown_function"], .invalid)
  else if decoded.functionName = some "approve" then
    (if 2 ^ 255 ≤ decoded.amountUnits.getD 0 then
        ["approval", "unlimited_approval"]
      else ["approval"], .suspicious)
  else if decoded.functionName = some "transferFrom" then
    (["transfer_from"], .suspicious)
  else ([], .valid)

/-- Native value on a token call is unexpected. -/
def valueFindings (value : String)
    (findings : List String × TransactionAnalysisStatus) :
    List String × TransactionAnalysisStatus :=
  if value ≠ "0" then
    (findings.1 ++ ["nonzero_native_value"],
      if findings.2 = .valid then .suspicious else findings.2)
  else findings

def analyze (tx : TransactionRequest) :
    Except Thrown TransactionAnalysis := do
  let decoded ← TransactionDecoder.decode viem tx
  let decimals :=
    ((registry.safeUsdc tx.chain.name).map AssetDefinition.decimals).getD 6
  let findings := valueFindings tx.value (functionFindings decoded)
  let contract ← viem.requireSpelling tx.toAddress
  pure
    { transactionId := tx.transactionId
      contract := some ⟨contract⟩
      function :=
        some ⟨decoded.functionName.getD "unknown", decoded.selector⟩
      recipient := decoded.target.getD ""
      amount :=
        match decoded.amountUnits with
        | some units => fromBaseUnits units decimals
        | none => "0"
      asset := tx.asset.symbol
      riskFlags := findings.1
      status := findings.2 }

end TransactionAnalyzer

/-! ## Validator -/

namespace TransactionValidator

variable (viem : Viem) (registry : ChainRegistry)

def nameIf (condition : Bool) (name : String) : List String :=
  if condition then [name] else []

def tokenDiscrepancies (tx : TransactionRequest)
    (usdcAddress : Option String) : Except Thrown (List String) :=
  if truthy usdcAddress then
    if tx.toAddress ≠ "" ∧ viem.isAddress tx.toAddress = true then do
      let actual ← viem.requireSpelling tx.toAddress
      let expected ← viem.requireSpelling (usdcAddress.getD "")
      pure (nameIf (actual != expected) "token_contract")
    else pure []
  else pure ["token_unknown"]

def recipientDiscrepancies (decoded : DecodedTransaction)
    (authorized : AuthorizedExpectation) : Except Thrown (List String) :=
  match decoded.target with
  | none => pure ["recipient"]
  | some target =>
      if target = "" ∨ viem.isAddress authorized.recipient = false then
        pure ["recipient"]
      else do
        let actual ← viem.requireSpelling target
        let expected ← viem.requireSpelling authorized.recipient
        pure (nameIf (actual != expected) "recipient")

def functionDiscrepancies (decoded : DecodedTransaction)
    (authorized : AuthorizedExpectation) (decimals : ℕ) :
    Except Thrown (List String) :=
  if decoded.known = false then pure ["unknown_function"]
  else if decoded.functionName ≠ some authorized.allowedFunction.text then
    pure ["unexpected_function"]
  else do
    let recipient ← recipientDiscrepancies viem decoded authorized
    let units ← toBaseUnits authorized.amount decimals
    pure (recipient ++ nameIf (decoded.amountUnits != some units) "amount")

/-- All discrepancies between the transaction and the authorization. -/
def check (tx : TransactionRequest) (authorized : AuthorizedExpectation) :
    Except Thrown (List String) := do
  let usdc := registry.safeUsdc authorized.network
  let token ← tokenDiscrepancies viem tx
    (usdc.bind AssetDefinition.address)
  let decoded ← TransactionDecoder.decode viem tx
  let function ← functionDiscrepancies viem decoded authorized
    ((usdc.map AssetDefinition.decimals).getD 6)
  pure
    (nameIf (tx.chain.id != authorized.chainId) "chain" ++
      nameIf (tx.chain.name != authorized.network) "network" ++
      nameIf (tx.asset.symbol != authorized.asset) "asset_symbol" ++
      token ++ function ++ nameIf (tx.value != "0") "native_value")

def assertValid (tx : TransactionRequest)
    (authorized : AuthorizedExpectation) : Except Thrown Unit := do
  let discrepancies ← check viem registry tx authorized
  if discrepancies ≠ [] then
    .error (.of .validationFailed
      "Transaction does not match the authorized expectation."
      [("discrepancies", .array (discrepancies.map .string))])
  else pure ()

end TransactionValidator
/-! ## What the builder guarantees -/

/-- The transaction is a transfer of these units to this recipient, on the
chain and of the token of this network. -/
structure IsTransfer (viem : Viem) (registry : ChainRegistry)
    (network recipient : String) (units : ℕ) (tx : TransactionRequest) :
    Prop where
  chain : ∃ chain, registry.getByNetwork network = .ok chain ∧
    tx.chain = ⟨chain.chainId, network⟩
  token : ∃ usdc address, registry.usdc network = .ok usdc ∧
    usdc.address = some address ∧ viem.getAddress address = some tx.toAddress
  symbol : tx.asset.symbol = "USDC"
  value : tx.value = "0"
  spelled : viem.getAddress recipient = some recipient
  positive : 0 < units
  data : viem.encodeTransfer recipient units = some tx.data

section

variable {viem : Viem} {registry : ChainRegistry}

theorem requireAddress_eq_ok {value field address : String} :
    TransactionBuilder.requireAddress viem value field = .ok address ↔
      value ≠ "" ∧ viem.isAddress value = true ∧
        viem.getAddress value = some address := by
  unfold TransactionBuilder.requireAddress
  split
  next h =>
    constructor
    · intro hok
      simp at hok
    · rintro ⟨hne, haddress, -⟩
      rcases h with hempty | hnot
      · exact absurd hempty hne
      · rw [haddress] at hnot
        simp at hnot
  next h =>
    rw [not_or, Bool.not_eq_false] at h
    rw [Viem.requireSpelling_eq_ok]
    tauto

theorem encodeTransfer_eq_ok {recipient data : String} {units : ℕ} :
    TransactionBuilder.encodeTransfer viem recipient units = .ok data ↔
      viem.encodeTransfer recipient units = some data := by
  unfold TransactionBuilder.encodeTransfer
  split
  next found h => simp [h]
  next h => simp [h]

theorem configuredAddress_eq_ok {network address : String}
    {usdc : AssetDefinition} :
    TransactionBuilder.configuredAddress network usdc = .ok address ↔
      usdc.address = some address ∧ address ≠ "" := by
  unfold TransactionBuilder.configuredAddress
  cases haddress : usdc.address with
  | none => simp
  | some found =>
      by_cases hempty : found = ""
      · subst hempty
        simp [truthy]
      · have htruthy : truthy (some found) = true := truthy_some.mpr hempty
        rw [if_pos htruthy]
        simp only [Option.getD_some, Except.ok.injEq, Option.some.injEq]
        constructor
        · rintro rfl
          exact ⟨rfl, hempty⟩
        · exact fun h => h.1

theorem positiveUnits_eq_ok {amount : String} {decimals units : ℕ} :
    TransactionBuilder.positiveUnits amount decimals = .ok units ↔
      toBaseUnits amount decimals = .ok units ∧ 0 < units := by
  unfold TransactionBuilder.positiveUnits
  rw [Fallible.result_bind_eq_ok]
  constructor
  · rintro ⟨found, hfound, hrest⟩
    split at hrest
    next => simp at hrest
    next hpos =>
      rw [Fallible.result_pure, Except.ok.injEq] at hrest
      subst hrest
      exact ⟨hfound, by omega⟩
  · rintro ⟨hunits, hpos⟩
    refine ⟨units, hunits, ?_⟩
    rw [if_neg (by omega), Fallible.result_pure]

/-- Only payments and transfers of USDC are built, and what is built is the
transfer that the intent asks for. -/
theorem build_eq_ok {intent : TransactionIntent} {ctx : BuildContext}
    {createdAt : String} {tx : TransactionRequest} (hviem : viem.Lawful)
    (h : TransactionBuilder.build viem registry intent ctx createdAt =
      .ok tx) :
    (intent.actionType = "payment" ∨ intent.actionType = "transfer") ∧
      viem.getAddress ctx.fromAddress = some tx.fromAddress ∧
      ∃ recipient units,
        viem.getAddress intent.recipient.address = some recipient ∧
        toBaseUnits intent.amount usdcDecimals = .ok units ∧
        IsTransfer viem registry intent.network recipient units tx := by
  unfold TransactionBuilder.build at h
  split at h
  next => simp at h
  next haction =>
    split at h
    next => simp at h
    next hsymbol =>
      obtain ⟨chain, hchain, h⟩ := Fallible.result_bind_eq_ok.mp h
      rw [Fallible.result_bind_eq_ok] at h
      obtain ⟨usdc, husdc, h⟩ := h
      rw [Fallible.result_bind_eq_ok] at h
      obtain ⟨configured, hconfigured, h⟩ := h
      rw [Fallible.result_bind_eq_ok] at h
      obtain ⟨sender, hsender, h⟩ := h
      rw [Fallible.result_bind_eq_ok] at h
      obtain ⟨recipient, hrecipient, h⟩ := h
      rw [Fallible.result_bind_eq_ok] at h
      obtain ⟨token, htoken, h⟩ := h
      rw [Fallible.result_bind_eq_ok] at h
      obtain ⟨units, hunits, h⟩ := h
      rw [Fallible.result_bind_eq_ok] at h
      obtain ⟨data, hdata, h⟩ := h
      rw [Fallible.result_pure, Except.ok.injEq] at h
      subst h
      have hkind : intent.actionType = "payment" ∨
          intent.actionType = "transfer" := by
        by_contra hnot
        exact haction (not_or.mp hnot)
      obtain ⟨hsymbolUsdc, hdecimals⟩ := ChainRegistry.decimals_of_usdc husdc
      rw [hdecimals, positiveUnits_eq_ok] at hunits
      have hspelled := (requireAddress_eq_ok.mp hrecipient).2.2
      refine ⟨hkind, (requireAddress_eq_ok.mp hsender).2.2, recipient, units,
        hspelled, hunits.1, ?_⟩
      exact
        { chain := ⟨chain, hchain, by
            rw [ChainRegistry.network_of_getByNetwork hchain]⟩
          token := ⟨usdc, configured, husdc,
            (configuredAddress_eq_ok.mp hconfigured).1,
            (requireAddress_eq_ok.mp htoken).2.2⟩
          symbol := hsymbolUsdc
          value := rfl
          spelled := hviem.getAddress_self _ _ hspelled
          positive := hunits.2
          data := encodeTransfer_eq_ok.mp hdata }

/-- A transfer decodes to its recipient and its units. -/
theorem decode_transfer {network recipient : String} {units : ℕ}
    {tx : TransactionRequest} (hviem : viem.Lawful)
    (h : IsTransfer viem registry network recipient units tx) :
    TransactionDecoder.decode viem tx = .ok
      { selector := viem.selector tx.data
        functionName := some "transfer"
        known := true
        target := some recipient
        amountUnits := some units
        token := tx.toAddress
        args := [("to", recipient),
          ("amount", TransactionDecoder.natText units)] } := by
  obtain ⟨usdc, address, -, -, htoken⟩ := h.token
  have hself := hviem.getAddress_self _ _ htoken
  have hlength := hviem.encode_length _ _ _ h.data
  have hdecode := hviem.decode_encode _ _ _ h.spelled h.data
  have hdata : ¬ (tx.data = "" ∨ tx.data = "0x" ∨ tx.data.length < 10) := by
    rintro (hempty | hbare | hshort)
    · rw [hempty] at hlength
      simp at hlength
    · rw [hbare] at hlength
      revert hlength
      decide
    · omega
  unfold TransactionDecoder.decode
  rw [Viem.requireSpelling_eq_ok.mpr hself, Fallible.result_ok_bind,
    if_neg hdata]
  simp only [TransactionDecoder.decodeCall, hdecode,
    TransactionDecoder.knownCall, h.spelled, Option.bind_eq_bind,
    Option.bind_some, Option.pure_def, Option.getD_some, List.nil_append,
    Fallible.result_pure]

theorem safeUsdc_of_transfer {network recipient : String} {units : ℕ}
    {tx : TransactionRequest}
    (h : IsTransfer viem registry network recipient units tx) :
    ∃ usdc, registry.safeUsdc tx.chain.name = some usdc ∧
      usdc.decimals = usdcDecimals := by
  obtain ⟨usdc, address, husdc, -, -⟩ := h.token
  obtain ⟨chain, -, hchain⟩ := h.chain
  refine ⟨usdc, ?_, (ChainRegistry.decimals_of_usdc husdc).2⟩
  rw [hchain, ChainRegistry.safeUsdc, husdc]
  rfl

/-- The analyzer reports a transfer as valid, with the checksum spelling of
its recipient and the canonical text of its amount. -/
theorem analyze_transfer {network recipient : String} {units : ℕ}
    {tx : TransactionRequest} (hviem : viem.Lawful)
    (h : IsTransfer viem registry network recipient units tx) :
    TransactionAnalyzer.analyze viem registry tx = .ok
      { transactionId := tx.transactionId
        contract := some ⟨tx.toAddress⟩
        function := some ⟨"transfer", viem.selector tx.data⟩
        recipient := recipient
        amount := fromBaseUnits units usdcDecimals
        asset := "USDC"
        riskFlags := []
        status := .valid } := by
  obtain ⟨_, address, -, -, htoken⟩ := h.token
  have hself := hviem.getAddress_self _ _ htoken
  obtain ⟨usdc, husdc, hdecimals⟩ := safeUsdc_of_transfer h
  unfold TransactionAnalyzer.analyze
  rw [decode_transfer hviem h, Fallible.result_ok_bind,
    Viem.requireSpelling_eq_ok.mpr hself, Fallible.result_ok_bind,
    Fallible.result_pure, husdc, h.symbol]
  simp [TransactionAnalyzer.functionFindings,
    TransactionAnalyzer.valueFindings, h.value, hdecimals]

@[simp] theorem nameIf_eq_nil {condition : Bool} {name : String} :
    TransactionValidator.nameIf condition name = [] ↔ condition = false := by
  cases condition <;> simp [TransactionValidator.nameIf]

/-- A transfer that passes the validator is the one that was authorized. -/
theorem assertValid_transfer {network recipient : String} {units : ℕ}
    {tx : TransactionRequest} {authorized : AuthorizedExpectation}
    (hviem : viem.Lawful)
    (h : IsTransfer viem registry network recipient units tx)
    (hvalid : TransactionValidator.assertValid viem registry tx authorized =
      .ok ()) :
    tx.chain.id = authorized.chainId ∧ network = authorized.network ∧
      authorized.asset = "USDC" ∧
      viem.getAddress authorized.recipient = some recipient ∧
      toBaseUnits authorized.amount usdcDecimals = .ok units := by
  obtain ⟨chain, -, hchain⟩ := h.chain
  obtain ⟨discrepancies, hcheck, hnone⟩ := Fallible.result_bind_eq_ok.mp hvalid
  split at hnone
  next => simp at hnone
  next hempty =>
    rw [ne_eq, not_not] at hempty
    subst hempty
    obtain ⟨token, -, hcheck⟩ := Fallible.result_bind_eq_ok.mp hcheck
    rw [decode_transfer hviem h, Fallible.result_ok_bind,
      Fallible.result_bind_eq_ok] at hcheck
    obtain ⟨function, hfunction, hlists⟩ := hcheck
    rw [Fallible.result_pure, Except.ok.injEq] at hlists
    simp only [List.append_eq_nil_iff, nameIf_eq_nil, bne_eq_false_iff_eq]
      at hlists
    obtain ⟨⟨⟨⟨⟨hid, hname⟩, hasset⟩, -⟩, hfunctionNil⟩, -⟩ := hlists
    subst hfunctionNil
    have hnetwork : network = authorized.network := by
      rw [← hname, hchain]
    obtain ⟨usdc, husdc, hdecimals⟩ := safeUsdc_of_transfer h
    rw [hname] at husdc
    have hsame : ((registry.safeUsdc authorized.network).map
        AssetDefinition.decimals).getD 6 = usdcDecimals := by
      rw [husdc, Option.map_some, Option.getD_some, hdecimals]
    rw [hsame] at hfunction
    have hallowed : authorized.allowedFunction.text = "transfer" := by
      cases authorized.allowedFunction
      rfl
    unfold TransactionValidator.functionDiscrepancies at hfunction
    rw [if_neg (by simp), if_neg (by simp [hallowed]),
      Fallible.result_bind_eq_ok] at hfunction
    obtain ⟨named, hnamed, hfunction⟩ := hfunction
    rw [Fallible.result_bind_eq_ok] at hfunction
    obtain ⟨authorizedUnits, hunits, hfunction⟩ := hfunction
    rw [Fallible.result_pure, Except.ok.injEq, List.append_eq_nil_iff,
      nameIf_eq_nil, bne_eq_false_iff_eq, Option.some.injEq] at hfunction
    obtain ⟨hnamedNil, hsameUnits⟩ := hfunction
    subst hnamedNil
    subst hsameUnits
    refine ⟨hid, hnetwork, hasset ▸ h.symbol, ?_, hunits⟩
    simp only [TransactionValidator.recipientDiscrepancies] at hnamed
    split at hnamed
    next => simp at hnamed
    next =>
      rw [Viem.requireSpelling_eq_ok.mpr h.spelled, Fallible.result_ok_bind,
        Fallible.result_bind_eq_ok] at hnamed
      obtain ⟨expected, hexpected, hnamed⟩ := hnamed
      rw [Fallible.result_pure, Except.ok.injEq, nameIf_eq_nil,
        bne_eq_false_iff_eq] at hnamed
      rw [hnamed]
      exact Viem.requireSpelling_eq_ok.mp hexpected

end

end Execution
end Orvex
