import Mathlib.Algebra.BigOperators.Group.List.Basic
import Orvex.Execution.Agreement

/-!
# Receipts with several transfers

The logs of a receipt are an arbitrary list.  The verifier compares the first
transfer to the recipient with the authorized amount, while what the recipient
got is the sum of all of them.
-/

namespace Orvex
namespace Execution

/-! ## What a receipt pays -/

/-- The transfer is one of the authorized token to the authorized recipient. -/
def PaidTo (viem : Viem) (authorized : AuthorizedReceipt)
    (transfer : ParsedTransfer) : Prop :=
  viem.getAddress authorized.tokenAddress = some transfer.token ∧
    viem.getAddress authorized.recipient = some transfer.receiver

instance (viem : Viem) (authorized : AuthorizedReceipt) :
    DecidablePred (PaidTo viem authorized) :=
  fun _ => inferInstanceAs (Decidable (_ ∧ _))

/-- The values that the receipt moves to the authorized recipient. -/
def payments (viem : Viem) (authorized : AuthorizedReceipt)
    (receipt : RawReceipt) : List ℕ :=
  ((ReceiptParser.parse viem receipt).transfers.filter
    (PaidTo viem authorized)).map ParsedTransfer.valueUnits

/-- The transaction succeeded on the authorized network, and the recipient
got the authorized amount in total. -/
def SettledExactly (viem : Viem) (authorized : AuthorizedReceipt)
    (receipt : RawReceipt) (actualNetwork : String) : Prop :=
  receipt.status = .success ∧ authorized.network = actualNetwork ∧
    ∃ units, toBaseUnits authorized.amount authorized.decimals = .ok units ∧
      (payments viem authorized receipt).sum = units

/-- The verifier returns `verified`. -/
def Verifies (viem : Viem) (executionId : String)
    (authorized : AuthorizedReceipt) (receipt : RawReceipt)
    (actualNetwork verifiedAt : String) : Prop :=
  ∃ verification, ReceiptVerifier.verify viem executionId authorized
      (ReceiptParser.parse viem receipt) actualNetwork verifiedAt =
        .ok verification ∧
    verification.verified = true

/-- In every order of its logs the receipt verifies exactly when it
settles. -/
def VerifiesExactly (viem : Viem) (authorized : AuthorizedReceipt)
    (receipt : RawReceipt) (actualNetwork : String) : Prop :=
  ∀ logs, logs.Perm receipt.logs → ∀ executionId verifiedAt,
    (Verifies viem executionId authorized { receipt with logs := logs }
        actualNetwork verifiedAt ↔
      SettledExactly viem authorized receipt actualNetwork)

section

variable {viem : Viem} {authorized : AuthorizedReceipt} {receipt : RawReceipt}
variable {executionId actualNetwork verifiedAt : String}

/-! ## The verdict -/

theorem head?_payments {token recipient : String}
    (htoken : viem.getAddress authorized.tokenAddress = some token)
    (hrecipient : viem.getAddress authorized.recipient = some recipient) :
    (payments viem authorized receipt).head? =
      (firstPayment? token recipient
        (ReceiptParser.parse viem receipt).transfers).map
          ParsedTransfer.valueUnits := by
  have hsame : (fun transfer => decide (PaidTo viem authorized transfer)) =
      fun transfer => decide (transfer.token = token ∧
        transfer.receiver = recipient) := by
    funext transfer
    rw [decide_eq_decide]
    unfold PaidTo
    rw [htoken, hrecipient, Option.some.injEq, Option.some.injEq,
      eq_comm, @eq_comm _ recipient]
  unfold payments firstPayment?
  rw [List.head?_map, List.head?_filter, hsame]

/-- The verifier throws only on an amount that it cannot read. -/
theorem verify_total (hviem : viem.Lawful) {units : ℕ}
    (hunits : toBaseUnits authorized.amount authorized.decimals = .ok units) :
    ∃ verification, ReceiptVerifier.verify viem executionId authorized
      (ReceiptParser.parse viem receipt) actualNetwork verifiedAt =
        .ok verification := by
  have hspelled := fun transfer => @parsed_spelled viem hviem receipt transfer
  have hfound : ∃ found, ReceiptVerifier.findMatching viem
      (viem.getAddress authorized.tokenAddress)
      (viem.getAddress authorized.recipient)
      (ReceiptParser.parse viem receipt).transfers = .ok found := by
    cases htoken : viem.getAddress authorized.tokenAddress with
    | none => exact ⟨_, findMatching_none (Or.inl rfl) _⟩
    | some token =>
        cases hrecipient : viem.getAddress authorized.recipient with
        | none => exact ⟨_, findMatching_none (Or.inr rfl) _⟩
        | some recipient => exact ⟨_, findMatching_eq hspelled⟩
  obtain ⟨found, hfound⟩ := hfound
  unfold ReceiptVerifier.verify
  simp only [hunits, hfound, Fallible.result_ok_bind]
  exact ⟨_, rfl⟩

/-- A receipt verifies exactly when its first payment is the authorized
amount. -/
theorem verifies_iff (hviem : viem.Lawful) :
    Verifies viem executionId authorized receipt actualNetwork verifiedAt ↔
      receipt.status = .success ∧ authorized.network = actualNetwork ∧
        ∃ units,
          toBaseUnits authorized.amount authorized.decimals = .ok units ∧
            (payments viem authorized receipt).head? = some units := by
  constructor
  · intro h
    obtain ⟨verification, hverify, hverified⟩ := h
    obtain ⟨hsuccess, hnetwork, token, recipient, transfer, htoken,
      hrecipient, hfirst, hunits⟩ := (verified_iff hviem hverify).mp hverified
    refine ⟨of_decide_eq_true hsuccess, hnetwork, _, hunits, ?_⟩
    rw [head?_payments htoken hrecipient, hfirst, Option.map_some]
  · intro h
    obtain ⟨hsuccess, hnetwork, units, hunits, hhead⟩ := h
    have htotal := @verify_total viem authorized receipt executionId
      actualNetwork verifiedAt hviem units hunits
    obtain ⟨verification, hverify⟩ := htotal
    refine ⟨verification, hverify, ?_⟩
    apply (verified_iff hviem hverify).mpr
    have hin : units ∈ payments viem authorized receipt :=
      List.mem_of_mem_head? hhead
    obtain ⟨paid, hpaid, -⟩ := List.mem_map.mp hin
    obtain ⟨htoken, hrecipient⟩ :=
      of_decide_eq_true (List.mem_filter.mp hpaid).2
    rw [head?_payments htoken hrecipient] at hhead
    obtain ⟨transfer, hfirst, hvalue⟩ := Option.map_eq_some_iff.mp hhead
    exact ⟨decide_eq_true hsuccess, hnetwork, _, _, transfer, htoken,
      hrecipient, hfirst, hvalue ▸ hunits⟩

/-! ## The order of the logs -/

theorem payments_perm {logs : List Log} (h : logs.Perm receipt.logs) :
    (payments viem authorized { receipt with logs := logs }).Perm
      (payments viem authorized receipt) :=
  ((h.filterMap _).filter _).map _

/-- Each payment comes first in some order of the logs. -/
theorem exists_perm_head {value : ℕ}
    (h : value ∈ payments viem authorized receipt) :
    ∃ logs, logs.Perm receipt.logs ∧
      (payments viem authorized { receipt with logs := logs }).head? =
        some value := by
  obtain ⟨transfer, hpaid, hvalue⟩ := List.mem_map.mp h
  obtain ⟨htransfer, hto⟩ := List.mem_filter.mp hpaid
  obtain ⟨log, hlog, hread⟩ := List.mem_filterMap.mp htransfer
  refine ⟨log :: receipt.logs.erase log, (List.perm_cons_erase hlog).symm, ?_⟩
  have hparsed : (ReceiptParser.parse viem { receipt with
      logs := log :: receipt.logs.erase log }).transfers =
      transfer :: (receipt.logs.erase log).filterMap
        (ReceiptParser.transferOf viem) :=
    List.filterMap_cons_some hread
  have hpositive : PaidTo viem authorized transfer := of_decide_eq_true hto
  unfold payments
  rw [hparsed, List.filter_cons_of_pos (by simpa using hpositive),
    List.map_cons, List.head?_cons, hvalue]

/-! ## When the verdict is exact -/

/-- The verdict does not hang on which payment comes first: with payments,
each of them alone is the authorized amount exactly when they total to it,
and without payments the amount is not zero. -/
def Unambiguous (values : List ℕ) (units : ℕ) : Prop :=
  (values = [] → units ≠ 0) ∧
    ∀ value ∈ values, (value = units ↔ values.sum = units)

/-- A single payment of a positive amount is unambiguous. -/
theorem unambiguous_of_single {values : List ℕ} {units : ℕ}
    (hpositive : 0 < units) (hsingle : values.length ≤ 1) :
    Unambiguous values units := by
  refine ⟨fun _ => Nat.ne_of_gt hpositive, ?_⟩
  intro value hmem
  cases values with
  | nil => simp at hmem
  | cons first rest =>
      have hrest : rest = [] := by
        rw [List.length_cons] at hsingle
        exact List.length_eq_zero_iff.mp (by omega)
      rw [hrest, List.mem_singleton] at hmem
      rw [hrest, List.sum_singleton, hmem]

/-- The verifier is exact on a receipt in every order of its logs if and only
if the transaction failed, the network differs, the amount cannot be read, or
the payments are unambiguous. -/
theorem verifiesExactly_iff (hviem : viem.Lawful) :
    VerifiesExactly viem authorized receipt actualNetwork ↔
      (receipt.status = .success → authorized.network = actualNetwork →
        ∀ units,
          toBaseUnits authorized.amount authorized.decimals = .ok units →
            Unambiguous (payments viem authorized receipt) units) := by
  constructor
  · intro hexact hsuccess hnetwork units hunits
    have hsettled : SettledExactly viem authorized receipt actualNetwork ↔
        (payments viem authorized receipt).sum = units := by
      constructor
      · intro h
        obtain ⟨-, -, units', hunits', hsum⟩ := h
        rw [hunits, Except.ok.injEq] at hunits'
        rw [hsum, hunits']
      · intro hsum
        exact ⟨hsuccess, hnetwork, units, hunits, hsum⟩
    have hverdict : ∀ logs, logs.Perm receipt.logs →
        ((payments viem authorized { receipt with logs := logs }).head? =
            some units ↔
          (payments viem authorized receipt).sum = units) := by
      intro logs hperm
      rw [← hsettled, ← hexact logs hperm "" "", verifies_iff hviem]
      constructor
      · intro hhead
        exact ⟨hsuccess, hnetwork, units, hunits, hhead⟩
      · intro h
        obtain ⟨-, -, units', hunits', hhead⟩ := h
        rw [hunits, Except.ok.injEq] at hunits'
        rw [hhead, hunits']
    constructor
    · intro hnone hzero
      have hsame := (hverdict receipt.logs (List.Perm.refl _)).mpr
        (by rw [hnone, hzero, List.sum_nil])
      rw [hnone] at hsame
      simp at hsame
    · intro value hmem
      obtain ⟨logs, hperm, hhead⟩ := exists_perm_head hmem
      rw [← hverdict logs hperm, hhead, Option.some.injEq]
  · intro hclear logs hperm executionId verifiedAt
    rw [verifies_iff hviem]
    unfold SettledExactly
    constructor
    · intro h
      obtain ⟨hsuccess, hnetwork, units, hunits, hhead⟩ := h
      have hin := (payments_perm hperm).mem_iff.mp
        (List.mem_of_mem_head? hhead)
      have hsum := ((hclear hsuccess hnetwork units hunits).2 units hin).mp rfl
      exact ⟨hsuccess, hnetwork, units, hunits, hsum⟩
    · intro h
      obtain ⟨hsuccess, hnetwork, units, hunits, hsum⟩ := h
      obtain ⟨hsome, hall⟩ := hclear hsuccess hnetwork units hunits
      refine ⟨hsuccess, hnetwork, units, hunits, ?_⟩
      cases hhead : (payments viem authorized
          { receipt with logs := logs }).head? with
      | none =>
          have hempty := List.head?_eq_none_iff.mp hhead
          have hnone : payments viem authorized receipt = [] :=
            (hempty ▸ payments_perm hperm).nil_eq.symm
          rw [hnone, List.sum_nil] at hsum
          exact absurd hsum.symm (hsome hnone)
      | some value =>
          have hin := (payments_perm hperm).mem_iff.mp
            (List.mem_of_mem_head? hhead)
          rw [(hall value hin).mpr hsum]

end

/-! ## Split payments -/

def fourUnits : String :=
  "0x00000000000000000000000000000000000000000000000000000000003d0900"

def fiveUnits : String :=
  "0x00000000000000000000000000000000000000000000000000000000004c4b40"

def sixUnits : String :=
  "0x00000000000000000000000000000000000000000000000000000000005b8d80"

def splitViem : Viem :=
  .ofTables
    [(checksummed, checksummed), (baseToken, baseToken),
      (paymentSender, paymentSender)]
    []
    [((transferTopics, fourUnits), ⟨paymentSender, checksummed, 4000000⟩),
      ((transferTopics, fiveUnits), ⟨paymentSender, checksummed, 5000000⟩),
      ((transferTopics, sixUnits), ⟨paymentSender, checksummed, 6000000⟩),
      ((transferTopics, tenUnits), ⟨paymentSender, checksummed, 10000000⟩)]

theorem splitViem_lawful : splitViem.Lawful :=
  Viem.lawful_ofTables (by decide) (by decide)
    (by decide) (by decide)

/-- A transfer of 10 USDC. -/
def tenAuthorized : AuthorizedReceipt where
  recipient := checksummed
  asset := "USDC"
  amount := "10"
  network := "base"
  tokenAddress := baseToken
  decimals := 6

/-- The receipt whose token logs carry these data. -/
def receiptOf (data : List String) : RawReceipt where
  transactionHash := "0xhash"
  status := .success
  logs := data.map (fun value => ⟨baseToken, transferTopics, value⟩)

theorem tenAuthorized_units :
    toBaseUnits tenAuthorized.amount tenAuthorized.decimals = .ok 10000000 :=
  eq_ok_of_toOption (by decide)

theorem verifies_receiptOf {data : List String} :
    Verifies splitViem "request-1" tenAuthorized (receiptOf data) "base" "" ↔
      (payments splitViem tenAuthorized (receiptOf data)).head? =
        some 10000000 := by
  rw [verifies_iff splitViem_lawful]
  constructor
  · intro h
    obtain ⟨-, -, units, hunits, hhead⟩ := h
    rw [tenAuthorized_units, Except.ok.injEq] at hunits
    rw [hhead, hunits]
  · intro hhead
    exact ⟨rfl, rfl, _, tenAuthorized_units, hhead⟩

theorem settledExactly_receiptOf {data : List String} :
    SettledExactly splitViem tenAuthorized (receiptOf data) "base" ↔
      (payments splitViem tenAuthorized (receiptOf data)).sum = 10000000 := by
  constructor
  · intro h
    obtain ⟨-, -, units, hunits, hsum⟩ := h
    rw [tenAuthorized_units, Except.ok.injEq] at hunits
    rw [hsum, hunits]
  · intro hsum
    exact ⟨rfl, rfl, _, tenAuthorized_units, hsum⟩

/-- A receipt that pays 10 and 5 verifies for an authorized 10 and does not
in the other order of its logs, and one that pays 4 and 6 does not verify. -/
theorem first_payment_decides :
    (Verifies splitViem "request-1" tenAuthorized
        (receiptOf [tenUnits, fiveUnits]) "base" "" ∧
      ¬ SettledExactly splitViem tenAuthorized
        (receiptOf [tenUnits, fiveUnits]) "base" ∧
      ¬ Verifies splitViem "request-1" tenAuthorized
        (receiptOf [fiveUnits, tenUnits]) "base" "") ∧
    (SettledExactly splitViem tenAuthorized
        (receiptOf [fourUnits, sixUnits]) "base" ∧
      ¬ Verifies splitViem "request-1" tenAuthorized
        (receiptOf [fourUnits, sixUnits]) "base" "") := by
  have hover : payments splitViem tenAuthorized
      (receiptOf [tenUnits, fiveUnits]) = [10000000, 5000000] := by
    decide
  have hswapped : payments splitViem tenAuthorized
      (receiptOf [fiveUnits, tenUnits]) = [5000000, 10000000] := by
    decide
  have hsplit : payments splitViem tenAuthorized
      (receiptOf [fourUnits, sixUnits]) = [4000000, 6000000] := by
    decide
  simp only [verifies_receiptOf, settledExactly_receiptOf, hover, hswapped,
    hsplit]
  decide

/-- A single transfer of the authorized amount is verified exactly. -/
theorem single_payment_verifies_exactly :
    VerifiesExactly splitViem tenAuthorized (receiptOf [tenUnits]) "base" := by
  apply (verifiesExactly_iff splitViem_lawful).mpr
  intro _ _ units hunits
  have hsingle : payments splitViem tenAuthorized (receiptOf [tenUnits]) =
      [10000000] := by
    decide
  rw [tenAuthorized_units, Except.ok.injEq] at hunits
  rw [hsingle, ← hunits]
  exact unambiguous_of_single (by decide) (by decide)

end Execution
end Orvex
