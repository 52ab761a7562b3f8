import Orvex.Execution.Chains
import Orvex.Execution.Money

/-!
# Receipts

The client normalizes a receipt of the chain, the parser reads its transfers,
and the verifier compares them with the authorized transfer.
-/

namespace Orvex
namespace Execution

inductive ReceiptStatus where
  | success | reverted
  deriving DecidableEq

/-- A receipt as the chain gives it. -/
structure RpcReceipt where
  transactionHash : String
  status : ReceiptStatus
  logs : List Log
  deriving DecidableEq

structure RawReceipt where
  transactionHash : String
  status : ReceiptStatus
  logs : List Log
  deriving DecidableEq

structure ParsedTransfer where
  token : String
  sender : String
  receiver : String
  valueUnits : ℕ
  deriving DecidableEq

structure ParsedReceipt where
  transactionHash : String
  success : Bool
  transfers : List ParsedTransfer
  deriving DecidableEq

/-! ## Reading a receipt -/

/-- The addresses of the logs are spelled with their checksums; `none` is the
exception. -/
def normalizeReceipt (viem : Viem) (receipt : RpcReceipt) :
    Option RawReceipt := do
  let logs ← receipt.logs.mapM (fun log => do
    let address ← viem.getAddress log.address
    pure { log with address := address })
  pure ⟨receipt.transactionHash, receipt.status, logs⟩

namespace ReceiptParser

/-- The transfer of a log; other logs, and those that cannot be read, have
none. -/
def transferOf (viem : Viem) (log : Log) : Option ParsedTransfer := do
  let event ← viem.decodeTransferLog log.topics log.data
  let token ← viem.getAddress log.address
  let sender ← viem.getAddress event.sender
  let receiver ← viem.getAddress event.receiver
  pure ⟨token, sender, receiver, event.value⟩

def parse (viem : Viem) (receipt : RawReceipt) : ParsedReceipt where
  transactionHash := receipt.transactionHash
  success := decide (receipt.status = .success)
  transfers := receipt.logs.filterMap (transferOf viem)

end ReceiptParser

/-! ## Verifying a receipt -/

structure AuthorizedReceipt where
  recipient : String
  asset : String
  amount : String
  network : String
  tokenAddress : String
  decimals : ℕ
  deriving DecidableEq

namespace ReceiptVerifier

variable (viem : Viem)

/-- The first transfer of the token to the recipient.  No transfer matches an
address that cannot be spelled. -/
def findMatching (token recipient : Option String) :
    List ParsedTransfer → Except Thrown (Option ParsedTransfer)
  | [] => pure none
  | transfer :: rest =>
      match token, recipient with
      | some token, some recipient => do
          let actualToken ← viem.requireSpelling transfer.token
          if actualToken = token then
            let actualRecipient ← viem.requireSpelling transfer.receiver
            if actualRecipient = recipient then pure (some transfer)
            else findMatching (some token) (some recipient) rest
          else findMatching (some token) (some recipient) rest
      | _, _ => pure none

/-- What the transfers differ in, and the recipient and the amount that are
reported as actual. -/
def transferFindings (parsed : ParsedReceipt) (token : Option String)
    (units decimals : ℕ) :
    Option ParsedTransfer → List String × String × String
  | some transfer =>
      (if transfer.valueUnits ≠ units then ["amount"] else [],
        transfer.receiver, fromBaseUnits transfer.valueUnits decimals)
  | none =>
      match parsed.transfers with
      | [] => (["recipient", "no_transfer"], "", "0")
      | first :: _ =>
          ("recipient" ::
            if viem.getAddress first.token ≠ token then ["asset"] else [],
            first.receiver, fromBaseUnits first.valueUnits decimals)

def verify (executionId : String) (authorized : AuthorizedReceipt)
    (parsed : ParsedReceipt) (actualNetwork verifiedAt : String) :
    Except Thrown ReceiptVerification := do
  let token := viem.getAddress authorized.tokenAddress
  let recipient := viem.getAddress authorized.recipient
  let units ← toBaseUnits authorized.amount authorized.decimals
  let found ← findMatching viem token recipient parsed.transfers
  let (differences, actualRecipient, actualAmount) :=
    transferFindings viem parsed token units authorized.decimals found
  let discrepancies :=
    (if parsed.success then [] else ["tx_reverted"]) ++ differences ++
      if authorized.network ≠ actualNetwork then ["network"] else []
  let verified := discrepancies.isEmpty
  let spelled := recipient.getD authorized.recipient
  pure
    { executionId := executionId
      verified := verified
      transactionHash := parsed.transactionHash
      expected :=
        ⟨spelled, authorized.asset, authorized.amount, authorized.network⟩
      actual :=
        { recipient := if actualRecipient = "" then spelled
            else actualRecipient
          asset := authorized.asset
          amount := if verified then authorized.amount else actualAmount
          network := actualNetwork }
      discrepancies := discrepancies
      verifiedAt := verifiedAt }

end ReceiptVerifier

/-! ## When a receipt verifies -/

/-- The first transfer of the token to the recipient. -/
def firstPayment? (token recipient : String)
    (transfers : List ParsedTransfer) : Option ParsedTransfer :=
  transfers.find? (fun transfer =>
    transfer.token = token ∧ transfer.receiver = recipient)

/-- The receipt pays: it succeeded on the authorized network, and the first
transfer of the token to the recipient has the authorized units. -/
def PaysAuthorized (viem : Viem) (authorized : AuthorizedReceipt)
    (parsed : ParsedReceipt) (actualNetwork : String) : Prop :=
  parsed.success = true ∧ authorized.network = actualNetwork ∧
    ∃ token recipient transfer,
      viem.getAddress authorized.tokenAddress = some token ∧
      viem.getAddress authorized.recipient = some recipient ∧
      firstPayment? token recipient parsed.transfers = some transfer ∧
      toBaseUnits authorized.amount authorized.decimals =
        .ok transfer.valueUnits

section

variable {viem : Viem}

/-- The transfers of a parsed receipt are spelled with their checksums. -/
theorem parsed_spelled (hviem : viem.Lawful) {receipt : RawReceipt}
    {transfer : ParsedTransfer}
    (h : transfer ∈ (ReceiptParser.parse viem receipt).transfers) :
    viem.getAddress transfer.token = some transfer.token ∧
      viem.getAddress transfer.receiver = some transfer.receiver := by
  obtain ⟨log, -, hlog⟩ := List.mem_filterMap.mp h
  unfold ReceiptParser.transferOf at hlog
  simp only [Option.bind_eq_bind, Option.pure_def,
    Option.bind_eq_some_iff] at hlog
  obtain ⟨event, -, token, htoken, sender, -, receiver, hreceiver, hpure⟩ :=
    hlog
  rw [Option.some.injEq] at hpure
  subst hpure
  exact ⟨hviem.getAddress_self _ _ htoken,
    hviem.getAddress_self _ _ hreceiver⟩

theorem findMatching_eq {token recipient : String}
    {transfers : List ParsedTransfer}
    (hspelled : ∀ transfer ∈ transfers,
      viem.getAddress transfer.token = some transfer.token ∧
        viem.getAddress transfer.receiver = some transfer.receiver) :
    ReceiptVerifier.findMatching viem (some token) (some recipient)
        transfers = .ok (firstPayment? token recipient transfers) := by
  induction transfers with
  | nil => rfl
  | cons transfer rest ih =>
      obtain ⟨htoken, hreceiver⟩ := hspelled transfer List.mem_cons_self
      have hrest := ih (fun other hin =>
        hspelled other (List.mem_cons_of_mem _ hin))
      unfold ReceiptVerifier.findMatching firstPayment?
      simp only [Viem.requireSpelling_eq_ok.mpr htoken,
        Viem.requireSpelling_eq_ok.mpr hreceiver, Fallible.result_ok_bind]
      by_cases hsameToken : transfer.token = token
      · rw [if_pos hsameToken]
        by_cases hsame : transfer.receiver = recipient
        · rw [if_pos hsame, List.find?_cons_of_pos (by simp [hsameToken,
            hsame])]
          rfl
        · rw [if_neg hsame, List.find?_cons_of_neg (by simp [hsame])]
          exact hrest
      · rw [if_neg hsameToken,
          List.find?_cons_of_neg (by simp [hsameToken])]
        exact hrest

theorem findMatching_none {token recipient : Option String}
    (h : token = none ∨ recipient = none) (transfers : List ParsedTransfer) :
    ReceiptVerifier.findMatching viem token recipient transfers =
      .ok none := by
  cases transfers with
  | nil => rfl
  | cons transfer rest =>
      unfold ReceiptVerifier.findMatching
      rcases h with rfl | rfl
      · rfl
      · cases token <;> rfl

/-- What a verification found, and what it made of it. -/
theorem verify_eq_ok {executionId actualNetwork verifiedAt : String}
    {authorized : AuthorizedReceipt} {parsed : ParsedReceipt}
    {verification : ReceiptVerification}
    (h : ReceiptVerifier.verify viem executionId authorized parsed
      actualNetwork verifiedAt = .ok verification) :
    ∃ units found differences actualRecipient actualAmount,
      toBaseUnits authorized.amount authorized.decimals = .ok units ∧
      ReceiptVerifier.findMatching viem
          (viem.getAddress authorized.tokenAddress)
          (viem.getAddress authorized.recipient) parsed.transfers =
        .ok found ∧
      ReceiptVerifier.transferFindings viem parsed
          (viem.getAddress authorized.tokenAddress) units
          authorized.decimals found =
        (differences, actualRecipient, actualAmount) ∧
      (verification.verified = true ↔ parsed.success = true ∧
        differences = [] ∧ authorized.network = actualNetwork) ∧
      verification.actual =
        { recipient := if actualRecipient = "" then
              (viem.getAddress authorized.recipient).getD
                authorized.recipient
            else actualRecipient
          asset := authorized.asset
          amount := if verification.verified then authorized.amount
            else actualAmount
          network := actualNetwork } := by
  unfold ReceiptVerifier.verify at h
  simp only at h
  obtain ⟨units, hunits, h⟩ := Fallible.result_bind_eq_ok.mp h
  rw [Fallible.result_bind_eq_ok] at h
  obtain ⟨found, hfound, h⟩ := h
  rw [Fallible.result_pure, Except.ok.injEq] at h
  refine ⟨units, found, _, _, _, hunits, hfound, rfl, ?_, ?_⟩
  · rw [← h]
    simp only [List.isEmpty_iff, List.append_eq_nil_iff]
    constructor
    · rintro ⟨⟨hsuccess, hdifferences⟩, hnetwork⟩
      refine ⟨?_, hdifferences, ?_⟩
      · by_contra hnot
        rw [if_neg hnot] at hsuccess
        simp at hsuccess
      · by_contra hnot
        rw [if_pos hnot] at hnetwork
        simp at hnetwork
    · rintro ⟨hsuccess, hdifferences, hnetwork⟩
      exact ⟨⟨if_pos hsuccess, hdifferences⟩,
        if_neg (not_not.mpr hnetwork)⟩
  · subst h
    rfl

/-- Nothing differs in the transfers exactly when the first transfer of the
token to the recipient has the authorized units. -/
theorem transferFindings_eq_nil {parsed : ParsedReceipt}
    {token : Option String} {units decimals : ℕ}
    {found : Option ParsedTransfer} {actualRecipient actualAmount : String}
    (h : ReceiptVerifier.transferFindings viem parsed token units decimals
      found = ([], actualRecipient, actualAmount)) :
    ∃ transfer, found = some transfer ∧ transfer.valueUnits = units ∧
      actualRecipient = transfer.receiver := by
  cases found with
  | none =>
      unfold ReceiptVerifier.transferFindings at h
      simp only at h
      split at h <;> simp at h
  | some transfer =>
      simp only [ReceiptVerifier.transferFindings, Prod.mk.injEq] at h
      obtain ⟨hunits, hrecipient, -⟩ := h
      refine ⟨transfer, rfl, ?_, hrecipient.symm⟩
      by_contra hnot
      rw [if_pos hnot] at hunits
      simp at hunits

/-- A receipt verifies exactly when it pays. -/
theorem verified_iff (hviem : viem.Lawful)
    {executionId actualNetwork verifiedAt : String}
    {authorized : AuthorizedReceipt} {receipt : RawReceipt}
    {verification : ReceiptVerification}
    (h : ReceiptVerifier.verify viem executionId authorized
      (ReceiptParser.parse viem receipt) actualNetwork verifiedAt =
        .ok verification) :
    verification.verified = true ↔
      PaysAuthorized viem authorized (ReceiptParser.parse viem receipt)
        actualNetwork := by
  have hspelled := fun transfer => @parsed_spelled viem hviem receipt transfer
  obtain ⟨units, found, differences, actualRecipient, actualAmount, hunits,
    hfound, hfindings, hverified, -⟩ := verify_eq_ok h
  rw [hverified]
  constructor
  · rintro ⟨hsuccess, hnil, hnetwork⟩
    subst hnil
    obtain ⟨transfer, hsome, hvalue, -⟩ := transferFindings_eq_nil hfindings
    subst hsome
    cases htoken : viem.getAddress authorized.tokenAddress with
    | none =>
        rw [findMatching_none (Or.inl htoken)] at hfound
        simp at hfound
    | some token =>
        cases hrecipient : viem.getAddress authorized.recipient with
        | none =>
            rw [findMatching_none (Or.inr hrecipient)] at hfound
            simp at hfound
        | some recipient =>
            rw [htoken, hrecipient, findMatching_eq hspelled,
              Except.ok.injEq] at hfound
            exact ⟨hsuccess, hnetwork, token, recipient, transfer, htoken,
              hrecipient, hfound, by rw [hvalue]; exact hunits⟩
  · rintro ⟨hsuccess, hnetwork, token, recipient, transfer, htoken,
      hrecipient, hfirst, hvalue⟩
    rw [htoken, hrecipient, findMatching_eq hspelled, hfirst,
      Except.ok.injEq] at hfound
    subst hfound
    have hsame : transfer.valueUnits = units :=
      Except.ok.inj (hvalue.symm.trans hunits)
    refine ⟨hsuccess, ?_, hnetwork⟩
    have hdifferences := congrArg Prod.fst hfindings
    simp only [ReceiptVerifier.transferFindings, hsame, ne_eq,
      not_true_eq_false, if_false] at hdifferences
    exact hdifferences.symm

/-- A receipt that pays reports the authorized amount, and the recipient in
its checksum form. -/
theorem actual_of_verified (hviem : viem.Lawful)
    {executionId actualNetwork verifiedAt : String}
    {authorized : AuthorizedReceipt} {receipt : RawReceipt}
    {verification : ReceiptVerification}
    (h : ReceiptVerifier.verify viem executionId authorized
      (ReceiptParser.parse viem receipt) actualNetwork verifiedAt =
        .ok verification)
    (hverified : verification.verified = true) :
    ∃ recipient, viem.getAddress authorized.recipient = some recipient ∧
      verification.actual =
        ⟨recipient, authorized.asset, authorized.amount,
          authorized.network⟩ := by
  obtain ⟨hsuccess, hnetwork, token, recipient, transfer, htoken, hrecipient,
    hfirst, hvalue⟩ := (verified_iff hviem h).mp hverified
  have hspelled := fun transfer => @parsed_spelled viem hviem receipt transfer
  obtain ⟨units, found, differences, actualRecipient, actualAmount, hunits,
    hfound, hfindings, -, hactual⟩ := verify_eq_ok h
  rw [htoken, hrecipient, findMatching_eq hspelled, hfirst,
    Except.ok.injEq] at hfound
  subst hfound
  have hreceiver : transfer.receiver = recipient := by
    have hfacts := List.find?_some hfirst
    exact (of_decide_eq_true hfacts).2
  have hreported : actualRecipient = transfer.receiver := by
    have hsecond := congrArg (fun findings => findings.2.1) hfindings
    exact hsecond.symm
  have hne : actualRecipient ≠ "" := by
    rw [hreported, hreceiver]
    exact hviem.ne_empty (hviem.getAddress_self _ _ hrecipient)
  refine ⟨recipient, hrecipient, ?_⟩
  rw [hactual, if_neg hne, hverified, hreported, hreceiver, ← hnetwork]
  rfl

/-- The amount that is reported is the authorized one or a text of base
units. -/
theorem actual_amount {executionId actualNetwork verifiedAt : String}
    {authorized : AuthorizedReceipt} {parsed : ParsedReceipt}
    {verification : ReceiptVerification}
    (h : ReceiptVerifier.verify viem executionId authorized parsed
      actualNetwork verifiedAt = .ok verification) :
    verification.actual.amount = authorized.amount ∨
      verification.actual.amount = "0" ∨
      ∃ units, verification.actual.amount =
        fromBaseUnits units authorized.decimals := by
  obtain ⟨units, found, differences, actualRecipient, actualAmount, -, -,
    hfindings, -, hactual⟩ := verify_eq_ok h
  rw [hactual]
  by_cases hverified : verification.verified = true
  · exact Or.inl (if_pos hverified)
  · right
    simp only [hverified, Bool.false_eq_true, if_false]
    have hamount := congrArg (fun findings => findings.2.2) hfindings
    simp only at hamount
    rw [← hamount]
    unfold ReceiptVerifier.transferFindings
    split
    next transfer => exact Or.inr ⟨_, rfl⟩
    next =>
      split
      next => exact Or.inl rfl
      next first rest _ => exact Or.inr ⟨_, rfl⟩

end

end Execution
end Orvex
