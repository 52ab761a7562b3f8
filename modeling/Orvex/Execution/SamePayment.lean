import Orvex.Execution.AmountCodec
import Orvex.Execution.Recipients

/-!
# Building, decoding and checking one payment

What the builder makes of an intent decodes to the payment that the intent
asks for, and the validator accepts it for exactly the expectations that name
the same payment.
-/

namespace Orvex
namespace Execution

/-- A text without the case of its letters. -/
def caseless (text : String) : List Char := text.toList.map Char.toLower

/-- Two addresses have one checksum spelling exactly when they differ at most
in the case of their letters. -/
def Viem.IgnoresCase (viem : Viem) : Prop :=
  ∀ text text', viem.isAddress text = true → viem.isAddress text' = true →
    (viem.getAddress text = viem.getAddress text' ↔
      caseless text = caseless text')

/-- The expectation names the payment of the intent. -/
structure SamePayment (viem : Viem) (registry : ChainRegistry)
    (intent : TransactionIntent) (authorized : AuthorizedExpectation) :
    Prop where
  network : authorized.network = intent.network
  chainId : ∃ chain, registry.getByNetwork intent.network = .ok chain ∧
    authorized.chainId = chain.chainId
  asset : authorized.asset = "USDC"
  function : authorized.allowedFunction = .transfer
  address : viem.isAddress authorized.recipient = true
  recipient : caseless authorized.recipient =
    caseless intent.recipient.address
  amount : ∃ value, Represents authorized.amount usdcDecimals value ∧
    Represents intent.amount usdcDecimals value

section

variable {viem : Viem} {registry : ChainRegistry} {tx : TransactionRequest}
variable {authorized : AuthorizedExpectation} {network recipient : String}
variable {units : ℕ}

/-- The recipient of an intent that is built is an address. -/
theorem isAddress_of_build {intent : TransactionIntent} {ctx : BuildContext}
    {createdAt : String}
    (h : TransactionBuilder.build viem registry intent ctx createdAt =
      .ok tx) : viem.isAddress intent.recipient.address = true := by
  unfold TransactionBuilder.build at h
  split at h
  next => cases h
  next =>
    split at h
    next => cases h
    next =>
      obtain ⟨_, -, h⟩ := Fallible.result_bind_eq_ok.mp h
      obtain ⟨_, -, h⟩ := Fallible.result_bind_eq_ok.mp h
      obtain ⟨_, -, h⟩ := Fallible.result_bind_eq_ok.mp h
      obtain ⟨_, -, h⟩ := Fallible.result_bind_eq_ok.mp h
      obtain ⟨_, hrecipient, -⟩ := Fallible.result_bind_eq_ok.mp h
      exact (requireAddress_eq_ok.mp hrecipient).2.1

/-! ## The parts of the check -/

theorem check_eq_nil :
    TransactionValidator.check viem registry tx authorized = .ok [] ↔
      tx.chain.id = authorized.chainId ∧
        tx.chain.name = authorized.network ∧
        tx.asset.symbol = authorized.asset ∧
        TransactionValidator.tokenDiscrepancies viem tx
          ((registry.safeUsdc authorized.network).bind
            AssetDefinition.address) = .ok [] ∧
        (∃ decoded, TransactionDecoder.decode viem tx = .ok decoded ∧
          TransactionValidator.functionDiscrepancies viem decoded authorized
            (((registry.safeUsdc authorized.network).map
              AssetDefinition.decimals).getD 6) = .ok []) ∧
        tx.value = "0" := by
  unfold TransactionValidator.check
  constructor
  · intro h
    obtain ⟨token, htoken, h⟩ := Fallible.result_bind_eq_ok.mp h
    obtain ⟨decoded, hdecoded, h⟩ := Fallible.result_bind_eq_ok.mp h
    obtain ⟨function, hfunction, h⟩ := Fallible.result_bind_eq_ok.mp h
    rw [Fallible.result_pure, Except.ok.injEq] at h
    simp only [List.append_eq_nil_iff, nameIf_eq_nil, bne_eq_false_iff_eq]
      at h
    obtain ⟨⟨⟨⟨⟨hid, hname⟩, hasset⟩, htokenNil⟩, hfunctionNil⟩, hvalue⟩ := h
    rw [htokenNil] at htoken
    rw [hfunctionNil] at hfunction
    exact ⟨hid, hname, hasset, htoken, ⟨decoded, hdecoded, hfunction⟩, hvalue⟩
  · intro h
    obtain ⟨hid, hname, hasset, htoken, ⟨decoded, hdecoded, hfunction⟩,
      hvalue⟩ := h
    simp only [htoken, hdecoded, hfunction, Fallible.result_ok_bind, hid,
      hname, hasset, hvalue]
    simp [TransactionValidator.nameIf, Fallible.result_pure]

/-- The token of a transfer is the one of its network. -/
theorem tokenDiscrepancies_transfer (hviem : viem.Lawful)
    (h : IsTransfer viem registry network recipient units tx) :
    TransactionValidator.tokenDiscrepancies viem tx
      ((registry.safeUsdc network).bind AssetDefinition.address) =
        .ok [] := by
  obtain ⟨usdc, address, husdc, haddress, htoken⟩ := h.token
  have hself := hviem.getAddress_self _ _ htoken
  have hfound : (registry.safeUsdc network).bind AssetDefinition.address =
      some address := by
    rw [ChainRegistry.safeUsdc, husdc]
    exact haddress
  have htruthy : truthy (some address) = true :=
    truthy_some.mpr (hviem.ne_empty htoken)
  have hactual : tx.toAddress ≠ "" ∧ viem.isAddress tx.toAddress = true :=
    ⟨hviem.ne_empty hself, hviem.isAddress_of_getAddress _ _ htoken⟩
  unfold TransactionValidator.tokenDiscrepancies
  rw [hfound, if_pos htruthy, if_pos hactual, Option.getD_some,
    Viem.requireSpelling_eq_ok.mpr hself,
    Viem.requireSpelling_eq_ok.mpr htoken, Fallible.result_ok_bind,
    Fallible.result_ok_bind, Fallible.result_pure]
  simp [TransactionValidator.nameIf]

theorem recipientDiscrepancies_eq_nil {decoded : DecodedTransaction}
    (hviem : viem.Lawful) (hspelled : viem.getAddress recipient =
      some recipient) (htarget : decoded.target = some recipient) :
    TransactionValidator.recipientDiscrepancies viem decoded authorized =
        .ok [] ↔
      viem.isAddress authorized.recipient = true ∧
        viem.getAddress authorized.recipient = some recipient := by
  unfold TransactionValidator.recipientDiscrepancies
  rw [htarget]
  have hne : recipient ≠ "" := hviem.ne_empty hspelled
  by_cases haddress : viem.isAddress authorized.recipient = true
  · obtain ⟨expected, hexpected⟩ :=
      hviem.getAddress_of_isAddress _ haddress
    have hnot : ¬ (recipient = "" ∨
        viem.isAddress authorized.recipient = false) := by
      rw [haddress]
      simp [hne]
    simp only
    rw [if_neg hnot, Viem.requireSpelling_eq_ok.mpr hspelled,
      Viem.requireSpelling_eq_ok.mpr hexpected, Fallible.result_ok_bind,
      Fallible.result_ok_bind, Fallible.result_pure, Except.ok.injEq,
      nameIf_eq_nil, bne_eq_false_iff_eq, hexpected, Option.some.injEq]
    constructor
    · intro hsame
      exact ⟨haddress, hsame.symm⟩
    · intro hsame
      exact hsame.2.symm
  · have hnone : viem.isAddress authorized.recipient = false :=
      Bool.eq_false_iff.mpr haddress
    simp [hnone, Fallible.result_pure]

theorem functionDiscrepancies_eq_nil {decoded : DecodedTransaction}
    {decimals : ℕ} (hviem : viem.Lawful)
    (hspelled : viem.getAddress recipient = some recipient)
    (hknown : decoded.known = true)
    (hname : decoded.functionName = some "transfer")
    (htarget : decoded.target = some recipient)
    (hunits : decoded.amountUnits = some units) :
    TransactionValidator.functionDiscrepancies viem decoded authorized
        decimals = .ok [] ↔
      (viem.isAddress authorized.recipient = true ∧
        viem.getAddress authorized.recipient = some recipient) ∧
        toBaseUnits authorized.amount decimals = .ok units := by
  have hallowed : decoded.functionName =
      some authorized.allowedFunction.text := by
    rw [hname]
    cases authorized.allowedFunction
    rfl
  unfold TransactionValidator.functionDiscrepancies
  rw [if_neg (by rw [hknown]; decide), if_neg (not_not_intro hallowed),
    ← recipientDiscrepancies_eq_nil hviem hspelled htarget]
  constructor
  · intro h
    obtain ⟨named, hnamed, h⟩ := Fallible.result_bind_eq_ok.mp h
    obtain ⟨authorizedUnits, hauthorized, h⟩ := Fallible.result_bind_eq_ok.mp h
    rw [Fallible.result_pure, Except.ok.injEq, List.append_eq_nil_iff,
      nameIf_eq_nil, bne_eq_false_iff_eq, hunits, Option.some.injEq] at h
    rw [h.1] at hnamed
    rw [← h.2] at hauthorized
    exact ⟨hnamed, hauthorized⟩
  · intro h
    rw [h.1, h.2, Fallible.result_ok_bind, Fallible.result_ok_bind,
      Fallible.result_pure, hunits]
    simp [TransactionValidator.nameIf]

/-- The validator accepts a transfer for the expectations that name its
chain, its recipient and its units. -/
theorem check_transfer (hviem : viem.Lawful)
    (h : IsTransfer viem registry network recipient units tx) :
    TransactionValidator.check viem registry tx authorized = .ok [] ↔
      tx.chain.id = authorized.chainId ∧ network = authorized.network ∧
        authorized.asset = "USDC" ∧
        (viem.isAddress authorized.recipient = true ∧
          viem.getAddress authorized.recipient = some recipient) ∧
        toBaseUnits authorized.amount usdcDecimals = .ok units := by
  obtain ⟨chain, -, hchain⟩ := h.chain
  have hname : tx.chain.name = network := by rw [hchain]
  obtain ⟨usdc, husdc, hdecimals⟩ := safeUsdc_of_transfer h
  rw [hname] at husdc
  have hdecode := decode_transfer hviem h
  have hsame : network = authorized.network →
      ((registry.safeUsdc authorized.network).map
        AssetDefinition.decimals).getD 6 = usdcDecimals := by
    intro hnetwork
    rw [← hnetwork, husdc, Option.map_some, Option.getD_some, hdecimals]
  rw [check_eq_nil, hname, h.symbol]
  constructor
  · intro hcheck
    obtain ⟨hid, hnetwork, hasset, -, ⟨decoded, hdecoded, hfunction⟩, -⟩ :=
      hcheck
    rw [hdecode, Except.ok.injEq] at hdecoded
    rw [← hdecoded, hsame hnetwork, functionDiscrepancies_eq_nil hviem
      h.spelled rfl rfl rfl rfl] at hfunction
    exact ⟨hid, hnetwork, hasset.symm, hfunction⟩
  · intro hnames
    obtain ⟨hid, hnetwork, hasset, hfunction⟩ := hnames
    refine ⟨hid, hnetwork, hasset.symm, ?_, ⟨_, hdecode, ?_⟩, h.value⟩
    · rw [← hnetwork]
      exact tokenDiscrepancies_transfer hviem h
    · rw [hsame hnetwork]
      exact (functionDiscrepancies_eq_nil hviem h.spelled rfl rfl rfl
        rfl).mpr hfunction

/-- What is built decodes to the payment that the intent asks for. -/
structure DecodesTo (viem : Viem) (registry : ChainRegistry)
    (intent : TransactionIntent) (decoded : DecodedTransaction) : Prop where
  known : decoded.known = true
  name : decoded.functionName = some "transfer"
  target : ∃ address, decoded.target = some address ∧
    viem.getAddress intent.recipient.address = some address
  amount : ∃ usdc units, registry.usdc intent.network = .ok usdc ∧
    decoded.amountUnits = some units ∧
    toBaseUnits intent.amount usdc.decimals = .ok units ∧ 0 < units

theorem decodesTo_of_build {intent : TransactionIntent} {ctx : BuildContext}
    {createdAt : String} (hviem : viem.Lawful)
    (hbuild : TransactionBuilder.build viem registry intent ctx createdAt =
      .ok tx) :
    ∃ decoded, TransactionDecoder.decode viem tx = .ok decoded ∧
      DecodesTo viem registry intent decoded := by
  obtain ⟨-, -, recipient, units, hrecipient, hunits, htransfer⟩ :=
    build_eq_ok hviem hbuild
  obtain ⟨usdc, -, husdc, -, -⟩ := htransfer.token
  have hdecimals := (ChainRegistry.decimals_of_usdc husdc).2
  refine ⟨_, decode_transfer hviem htransfer, rfl, rfl,
    ⟨recipient, rfl, hrecipient⟩, usdc, units, husdc, rfl, ?_,
    htransfer.positive⟩
  rw [hdecimals]
  exact hunits

theorem check_iff_samePayment {intent : TransactionIntent}
    {ctx : BuildContext} {createdAt : String} (hviem : viem.Lawful)
    (hcase : viem.IgnoresCase)
    (hbuild : TransactionBuilder.build viem registry intent ctx createdAt =
      .ok tx) :
    TransactionValidator.check viem registry tx authorized = .ok [] ↔
      SamePayment viem registry intent authorized := by
  obtain ⟨-, -, recipient, units, hrecipient, hunits, htransfer⟩ :=
    build_eq_ok hviem hbuild
  have haddress := isAddress_of_build hbuild
  obtain ⟨chain, hget, hchain⟩ := htransfer.chain
  rw [check_transfer hviem htransfer, hchain]
  constructor
  · intro h
    obtain ⟨hid, hnetwork, hasset, ⟨hvalid, hspelled⟩, hamount⟩ := h
    have hsame := (hcase _ _ hvalid haddress).mp
      (hspelled.trans hrecipient.symm)
    have hequal : amountsEqual authorized.amount intent.amount usdcDecimals =
        .ok true := amountsEqual_eq_true.mpr ⟨units, hamount, hunits⟩
    exact
      { network := hnetwork.symm
        chainId := ⟨chain, hget, hid.symm⟩
        asset := hasset
        function := by cases authorized.allowedFunction; rfl
        address := hvalid
        recipient := hsame
        amount := amountsEqual_iff.mp hequal }
  · intro h
    obtain ⟨found, hfound, hid⟩ := h.chainId
    rw [hget, Except.ok.injEq] at hfound
    have hspelled := (hcase _ _ h.address haddress).mpr h.recipient
    obtain ⟨both, hauthorized, hintent⟩ :=
      amountsEqual_eq_true.mp (amountsEqual_iff.mpr h.amount)
    rw [hunits, Except.ok.injEq] at hintent
    rw [← hintent] at hauthorized
    exact ⟨by rw [hfound, hid], h.network.symm, h.asset,
      ⟨h.address, hspelled.trans hrecipient⟩, hauthorized⟩

/-- Every intent that is built decodes to its payment, and the validator
accepts it for exactly the expectations that name the same payment. -/
theorem build_decode_check {intent : TransactionIntent} {ctx : BuildContext}
    {createdAt : String} (hviem : viem.Lawful) (hcase : viem.IgnoresCase)
    (hbuild : TransactionBuilder.build viem registry intent ctx createdAt =
      .ok tx) :
    (∃ decoded, TransactionDecoder.decode viem tx = .ok decoded ∧
      DecodesTo viem registry intent decoded) ∧
    ∀ authorized,
      (∃ value, Represents authorized.amount usdcDecimals value) →
        (TransactionValidator.check viem registry tx authorized = .ok [] ↔
          SamePayment viem registry intent authorized) :=
  ⟨decodesTo_of_build hviem hbuild,
    fun _ _ => check_iff_samePayment hviem hcase hbuild⟩

end

/-! ## A recipient in small letters -/

theorem Viem.ignoresCase_ofTables {spellings : List (String × String)}
    {transfers : List ((String × ℕ) × String)}
    {logs : List ((List String × String) × TransferEvent)}
    (hcase : ∀ entry ∈ spellings, ∀ entry' ∈ spellings,
      (entry.2 = entry'.2 ↔ caseless entry.1 = caseless entry'.1)) :
    (Viem.ofTables spellings transfers logs).IgnoresCase := by
  intro text text' htext htext'
  obtain ⟨address, haddress⟩ := Option.isSome_iff_exists.mp htext
  obtain ⟨address', haddress'⟩ := Option.isSome_iff_exists.mp htext'
  have hentries := hcase _ (mem_of_lookup haddress) _ (mem_of_lookup haddress')
  change spellings.lookup text = spellings.lookup text' ↔ _
  rw [haddress, haddress', Option.some.injEq]
  exact hentries

theorem tenViem_ignoresCase : tenViem.IgnoresCase :=
  Viem.ignoresCase_ofTables (by decide)

def smallLetterExpectation : AuthorizedExpectation where
  network := "base"
  chainId := 8453
  recipient := smallLetters
  asset := "USDC"
  amount := "10.00"
  allowedFunction := .transfer

/-- An expectation with another spelling of the address and of the amount. -/
theorem small_letters_accepted :
    ∃ tx, TransactionBuilder.build tenViem ⟨none, none⟩ tenIntent
        ⟨paymentSender, none⟩ "" = .ok tx ∧
      TransactionValidator.check tenViem ⟨none, none⟩ tx
        smallLetterExpectation = .ok [] := by
  have hbuilt : (TransactionBuilder.build tenViem ⟨none, none⟩ tenIntent
      ⟨paymentSender, none⟩ "").toOption.isSome = true := by
    decide
  obtain ⟨tx, htx⟩ := Option.isSome_iff_exists.mp hbuilt
  have hbuild := eq_ok_of_toOption htx
  have hamounts : amountsEqual smallLetterExpectation.amount tenIntent.amount
      usdcDecimals = .ok true := eq_ok_of_toOption (by decide)
  obtain ⟨value, hauthorized, hintent⟩ := amountsEqual_iff.mp hamounts
  have hchain : ChainRegistry.getByNetwork ⟨none, none⟩ tenIntent.network =
      .ok baseMainnet :=
    ChainRegistry.getByNetwork_eq_ok.mpr (by decide)
  refine ⟨tx, hbuild, ?_⟩
  apply ((build_decode_check tenViem_lawful tenViem_ignoresCase hbuild).2
    smallLetterExpectation ⟨value, hauthorized⟩).mpr
  exact
    { network := rfl
      chainId := ⟨baseMainnet, hchain, rfl⟩
      asset := rfl
      function := rfl
      address := rfl
      recipient := by decide
      amount := ⟨value, hauthorized, hintent⟩ }

end Execution
end Orvex
