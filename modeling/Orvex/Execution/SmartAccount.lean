import Orvex.Execution.Chains
import Orvex.Foundation.Exchange

/-!
# Payments through a smart account

A payment is wrapped in a user operation, whose gas the bundler estimates,
whose hash an isolated signer signs, and which the bundler is sent once.  The
adapter then waits for a receipt.
-/

namespace Orvex
namespace Execution
namespace SmartAccount

open Exchange (World Talks ask)

/-! ## User operations -/

structure UserOperation where
  sender : String
  nonce : ℤ
  callData : String
  callGasLimit : ℤ
  verificationGasLimit : ℤ
  preVerificationGas : ℤ
  maxFeePerGas : ℤ
  maxPriorityFeePerGas : ℤ
  signature : String
  deriving DecidableEq

structure UserOpGasEstimate where
  callGasLimit : ℤ
  verificationGasLimit : ℤ
  preVerificationGas : ℤ

structure SmartAccountExecuteParams where
  smartAccount : String
  token : String
  recipient : String
  amountUnits : ℕ
  maxFeePerGas : ℤ
  maxPriorityFeePerGas : ℤ

/-- What the adapter takes from viem and the language. -/
structure Library where
  viem : Viem
  /-- `encodeFunctionData` of `execute(dest, value, func)`; `none` is the
  exception. -/
  encodeExecute : String → ℕ → String → Option String
  /-- `BigInt(value)`; `none` is the exception. -/
  bigInt : Json → Option ℤ
  /-- The hash of the entry point's domain. -/
  computeUserOpHash : UserOperation → String

/-- The unsigned operation that transfers the amount. -/
def build (lib : Library) (sender : String) (nonce : ℤ)
    (params : SmartAccountExecuteParams) : Except Thrown UserOperation :=
  match lib.viem.encodeTransfer params.recipient params.amountUnits with
  | none => .error .foreign
  | some transferData =>
      match lib.encodeExecute params.token 0 transferData with
      | none => .error .foreign
      | some callData =>
          .ok
            { sender := sender
              nonce := nonce
              callData := callData
              callGasLimit := 200000
              verificationGasLimit := 200000
              preVerificationGas := 60000
              maxFeePerGas := params.maxFeePerGas
              maxPriorityFeePerGas := params.maxPriorityFeePerGas
              signature := "0x" }

/-- `{ ...op, ...est }`. -/
def UserOperation.withGas (op : UserOperation) (est : UserOpGasEstimate) :
    UserOperation :=
  { op with
    callGasLimit := est.callGasLimit
    verificationGasLimit := est.verificationGasLimit
    preVerificationGas := est.preVerificationGas }

/-! ## The bundler and the signer -/

def hex (v : ℤ) : String :=
  "0x" ++ (if v < 0 then "-" else "") ++
    String.ofList (Nat.toDigits 16 v.natAbs)

abbrev RpcUserOp := List (String × String)

def toRpcUserOp (op : UserOperation) : RpcUserOp :=
  [("sender", op.sender), ("nonce", hex op.nonce),
    ("callData", op.callData), ("callGasLimit", hex op.callGasLimit),
    ("verificationGasLimit", hex op.verificationGasLimit),
    ("preVerificationGas", hex op.preVerificationGas),
    ("maxFeePerGas", hex op.maxFeePerGas),
    ("maxPriorityFeePerGas", hex op.maxPriorityFeePerGas),
    ("signature", op.signature)]

/-- A request to the bundler, or to the signer. -/
inductive Request where
  /-- `epx_getNonce`. -/
  | getNonce (sender key : String)
  /-- `eth_estimateUserOperationGas`. -/
  | estimate (op : RpcUserOp) (entryPoint : String)
  | signUserOpHash (userOpHash : String)
  /-- `eth_sendUserOperation`. -/
  | send (op : RpcUserOp) (entryPoint : String)
  /-- `eth_getUserOperationReceipt`. -/
  | receipt (userOpHash : Json)

inductive Answer where
  | rejected (cause : Thrown)
  | result (value : Json)

abbrev Peer (σ : Type) := Exchange.Peer σ Request Answer

abbrev Wallet (σ α : Type) := Fallible (World σ Request Answer) Thrown α

def field (name : String) : Json → Option Json
  | .object fields => fields.lookup name
  | _ => none

/-- `Boolean(value)`. -/
def truthyValue : Json → Bool
  | .null => false
  | .bool b => b
  | .number n => decide (n ≠ 0)
  | .string s => decide (s ≠ "")
  | .array _ => true
  | .object _ => true

structure UserOpReceipt where
  success : Bool
  transactionHash : Option Json

/-- The receipt of a value, if there is one. -/
def parseReceipt (value : Json) : Option UserOpReceipt :=
  if truthyValue value then
    some
      { success := ((field "success" value).map truthyValue).getD false
        transactionHash := ((field "receipt" value).bind
          (field "transactionHash")).filter truthyValue }
  else none

def parseEstimate (lib : Library) (value : Json) :
    Option UserOpGasEstimate := do
  let callGasLimit ← (field "callGasLimit" value).bind lib.bigInt
  let verificationGasLimit ←
    (field "verificationGasLimit" value).bind lib.bigInt
  let preVerificationGas ← (field "preVerificationGas" value).bind lib.bigInt
  pure ⟨callGasLimit, verificationGasLimit, preVerificationGas⟩

inductive ExecuteStatus where
  | confirmed | pending | failed | unknown
  deriving DecidableEq

structure SmartAccountExecuteResult where
  userOpHash : Json
  transactionHash : Option Json
  success : Bool
  status : ExecuteStatus

section

variable {σ : Type} (peer : Peer σ) (lib : Library) (entryPoint : String)

/-- `getNonce`. -/
def nonceOf (sender : String) : Wallet σ ℤ := do
  match ← ask peer (.getNonce sender "0x0") with
  | .rejected cause => Fallible.fail cause
  | .result value => Fallible.ofOption .foreign (lib.bigInt value)

def simulationFailed : Thrown :=
  .of .simulationFailed "Bundler rejected UserOperation gas estimation." []

/-- The gas of the operation; every failure is that of the simulation. -/
def estimateUserOperationGas (op : UserOperation) :
    Wallet σ UserOpGasEstimate := do
  match ← ask peer (.estimate (toRpcUserOp op) entryPoint) with
  | .rejected _ => Fallible.fail simulationFailed
  | .result value =>
      Fallible.ofOption simulationFailed (parseEstimate lib value)

/-- The signer answers with a text. -/
def signUserOpHash (userOpHash : String) : Wallet σ String := do
  match ← ask peer (.signUserOpHash userOpHash) with
  | .rejected cause => Fallible.fail cause
  | .result (.string signature) => pure signature
  | .result _ => Fallible.fail .foreign

def refusing : Thrown :=
  .of .submissionFailed "Refusing to send an unsigned UserOperation." []

def submissionUncertain (userOpHash : String) : Thrown :=
  .of .unknown "UserOperation submission uncertain."
    [("userOpHash", .string userOpHash)]

/-- `sendUserOperation`, with what the adapter makes of its failures. -/
def sendUserOperation (userOpHash : String) (op : UserOperation) :
    Wallet σ Json :=
  if op.signature = "" ∨ op.signature = "0x" then Fallible.fail refusing
  else do
    match ← ask peer (.send (toRpcUserOp op) entryPoint) with
    | .rejected cause =>
        if cause.hasCode .submissionFailed then Fallible.fail cause
        else Fallible.fail (submissionUncertain userOpHash)
    | .result sentHash => pure sentHash

/-- The polls that the deadline leaves. -/
def awaitReceipt (sentHash : Json) :
    ℕ → Wallet σ SmartAccountExecuteResult
  | 0 =>
      pure
        { userOpHash := sentHash
          transactionHash := none
          success := false
          status := .unknown }
  | polls + 1 => do
      match ← ask peer (.receipt sentHash) with
      | .rejected cause => Fallible.fail cause
      | .result value =>
          match parseReceipt value with
          | none => awaitReceipt sentHash polls
          | some receipt =>
              pure
                { userOpHash := sentHash
                  transactionHash := receipt.transactionHash
                  success := receipt.success
                  status := if receipt.success then .confirmed
                    else .failed }

/-- A result without a store. -/
def throwing {α : Type} : Except Thrown α → Wallet σ α
  | .ok a => pure a
  | .error thrown => Fallible.fail thrown

def execute (params : SmartAccountExecuteParams) (polls : ℕ) :
    Wallet σ SmartAccountExecuteResult := do
  let sender ← throwing (lib.viem.requireSpelling params.smartAccount)
  let nonce ← nonceOf peer lib sender
  let built ← throwing (build lib sender nonce params)
  let est ← estimateUserOperationGas peer lib entryPoint built
  let op := built.withGas est
  let userOpHash := lib.computeUserOpHash op
  let signature ← signUserOpHash peer userOpHash
  let sentHash ← sendUserOperation peer entryPoint userOpHash
    { op with signature := signature }
  awaitReceipt peer sentHash polls

end

/-! ## What an execution says -/

abbrev Said := List (Request × Answer)

def Request.IsSend : Request → Prop
  | .send _ _ => True
  | _ => False

/-- The operation is the payment, with the nonce and the gas that were
answered. -/
structure Payment (lib : Library) (entryPoint : String)
    (params : SmartAccountExecuteParams) (said : Said) (op : UserOperation) :
    Prop where
  sender : lib.viem.requireSpelling params.smartAccount = .ok op.sender
  nonce : ∃ value, (.getNonce op.sender "0x0", .result value) ∈ said ∧
    lib.bigInt value = some op.nonce
  transfer : ∃ data,
    lib.viem.encodeTransfer params.recipient params.amountUnits = some data ∧
    lib.encodeExecute params.token 0 data = some op.callData
  gas : ∃ unsigned value,
    build lib op.sender op.nonce params = .ok unsigned ∧
    (.estimate (toRpcUserOp unsigned) entryPoint, .result value) ∈ said ∧
    parseEstimate lib value =
      some ⟨op.callGasLimit, op.verificationGasLimit, op.preVerificationGas⟩
  fees : op.maxFeePerGas = params.maxFeePerGas ∧
    op.maxPriorityFeePerGas = params.maxPriorityFeePerGas

/-- What was said before settles the operation and its signature. -/
def Settled (lib : Library) (entryPoint : String)
    (params : SmartAccountExecuteParams) (before : Said)
    (userOpHash : String) (op : RpcUserOp) : Prop :=
  ∃ unsigned signature,
    Payment lib entryPoint params before unsigned ∧
    userOpHash = lib.computeUserOpHash unsigned ∧
    (.signUserOpHash userOpHash, .result (.string signature)) ∈ before ∧
    signature ≠ "" ∧ signature ≠ "0x" ∧
    op = toRpcUserOp { unsigned with signature := signature }

/-- How an execution ends, once its operation was sent. -/
inductive Ends (userOpHash : String) (answer : Answer) (after : Said) :
    Except Thrown SmartAccountExecuteResult → Prop where
  | refused (thrown : Thrown) (hanswer : answer = .rejected thrown)
      (hcode : thrown.hasCode .submissionFailed = true) :
      Ends userOpHash answer after (.error thrown)
  | uncertain (cause : Thrown) (hanswer : answer = .rejected cause)
      (hcode : cause.hasCode .submissionFailed = false) :
      Ends userOpHash answer after (.error (submissionUncertain userOpHash))
  /-- What a poll throws is passed on. -/
  | lost (thrown : Thrown) (earlier : Said) (sentHash : Json)
      (hanswer : answer = .result sentHash)
      (hlast : after =
        earlier ++ [(.receipt sentHash, .rejected thrown)]) :
      Ends userOpHash answer after (.error thrown)
  | unresolved (r : SmartAccountExecuteResult)
      (hanswer : answer = .result r.userOpHash)
      (hstatus : r.status = .unknown) (hsuccess : r.success = false)
      (hnone : ∀ e ∈ after, ∃ value, e.2 = .result value ∧
        parseReceipt value = none) :
      Ends userOpHash answer after (.ok r)
  | received (r : SmartAccountExecuteResult) (earlier : Said) (value : Json)
      (hanswer : answer = .result r.userOpHash)
      (hlast : after =
        earlier ++ [(.receipt r.userOpHash, .result value)])
      (hreceipt : parseReceipt value =
        some ⟨r.success, r.transactionHash⟩)
      (hstatus : r.status = if r.success then .confirmed else .failed) :
      Ends userOpHash answer after (.ok r)

/-- The operation is sent once, as the payment and signed, and the answers
decide how the execution ends. -/
structure Sent (lib : Library) (entryPoint : String)
    (params : SmartAccountExecuteParams)
    (result : Except Thrown SmartAccountExecuteResult)
    (before after : Said) (op : RpcUserOp) (answer : Answer)
    (userOpHash : String) : Prop where
  quiet : ∀ e ∈ before, ¬ e.1.IsSend
  settled : Settled lib entryPoint params before userOpHash op
  polls : ∀ e ∈ after, ∃ sentHash, answer = .result sentHash ∧
    e.1 = .receipt sentHash
  ends : Ends userOpHash answer after result

def Honest (lib : Library) (entryPoint : String)
    (params : SmartAccountExecuteParams)
    (result : Except Thrown SmartAccountExecuteResult) (said : Said) : Prop :=
  ((∀ e ∈ said, ¬ e.1.IsSend) ∧ ∃ thrown, result = .error thrown) ∨
  ∃ before op answer after userOpHash,
    said = before ++ (.send op entryPoint, answer) :: after ∧
    Sent lib entryPoint params result before after op answer userOpHash

/-! ## What the steps say -/

theorem build_eq_ok {lib : Library} {sender : String} {nonce : ℤ}
    {params : SmartAccountExecuteParams} {op : UserOperation}
    (h : build lib sender nonce params = .ok op) :
    op.sender = sender ∧ op.nonce = nonce ∧
    op.maxFeePerGas = params.maxFeePerGas ∧
    op.maxPriorityFeePerGas = params.maxPriorityFeePerGas ∧
    ∃ data,
      lib.viem.encodeTransfer params.recipient params.amountUnits =
        some data ∧
      lib.encodeExecute params.token 0 data = some op.callData := by
  unfold build at h
  split at h
  · cases h
  · rename_i data hdata
    split at h
    · cases h
    · rename_i callData hcall
      cases h
      exact ⟨rfl, rfl, rfl, rfl, data, hdata, hcall⟩

theorem payment_of_build {lib : Library} {entryPoint sender : String}
    {params : SmartAccountExecuteParams} {said : Said} {nonce : ℤ}
    {built : UserOperation} {est : UserOpGasEstimate}
    {nonceValue estimate : Json}
    (hsender : lib.viem.requireSpelling params.smartAccount = .ok sender)
    (hnonce : (.getNonce sender "0x0", .result nonceValue) ∈ said)
    (hnonceValue : lib.bigInt nonceValue = some nonce)
    (hbuilt : build lib sender nonce params = .ok built)
    (hgas : (.estimate (toRpcUserOp built) entryPoint, .result estimate) ∈
      said)
    (hestimate : parseEstimate lib estimate = some est) :
    Payment lib entryPoint params said (built.withGas est) := by
  obtain ⟨rfl, rfl, hfee, hpriority, htransfer⟩ := build_eq_ok hbuilt
  exact
    { sender := hsender
      nonce := ⟨nonceValue, hnonce, hnonceValue⟩
      transfer := htransfer
      gas := ⟨built, estimate, hbuilt, hgas, hestimate⟩
      fees := ⟨hfee, hpriority⟩ }

theorem Ends.poll {userOpHash : String} {answer : Answer} {after : Said}
    {result : Except Thrown SmartAccountExecuteResult} {request : Request}
    {value : Json} (h : Ends userOpHash answer after result)
    (hvalue : parseReceipt value = none) :
    Ends userOpHash answer ((request, .result value) :: after) result := by
  cases h with
  | refused thrown hanswer hcode => exact .refused thrown hanswer hcode
  | uncertain cause hanswer hcode => exact .uncertain cause hanswer hcode
  | lost thrown earlier sentHash hanswer hlast =>
      exact .lost thrown ((request, .result value) :: earlier) sentHash
        hanswer (by rw [hlast]; rfl)
  | unresolved r hanswer hstatus hsuccess hnone =>
      apply Ends.unresolved r hanswer hstatus hsuccess
      intro e he
      rcases List.mem_cons.mp he with rfl | he
      · exact ⟨value, rfl, hvalue⟩
      · exact hnone e he
  | received r earlier last hanswer hlast hreceipt hstatus =>
      exact .received r ((request, .result value) :: earlier) last hanswer
        (by rw [hlast]; rfl) hreceipt hstatus

section

variable {σ : Type} {peer : Peer σ} {lib : Library} {entryPoint : String}

theorem talks_throwing {α : Type} (x : Except Thrown α) :
    Talks (fun result said => said = [] ∧ result = x)
      (throwing x : Wallet σ α) := by
  cases x with
  | ok a => exact Exchange.talks_pure ⟨rfl, rfl⟩
  | error thrown => exact Exchange.talks_fail ⟨rfl, rfl⟩

theorem talks_ofOption {α : Type} (thrown : Thrown) (value : Option α) :
    Talks (fun result said => said = [] ∧
      ∀ a, result = .ok a → value = some a)
      (Fallible.ofOption thrown value : Wallet σ α) := by
  cases value with
  | none =>
      apply Exchange.talks_fail
      simp
  | some a =>
      apply Exchange.talks_pure
      simp

theorem nonceOf_talks (sender : String) :
    Talks (fun result said => ∃ answer,
      said = [(.getNonce sender "0x0", answer)] ∧
      ∀ nonce, result = .ok nonce → ∃ value, answer = .result value ∧
        lib.bigInt value = some nonce)
      (nonceOf peer lib sender) := by
  apply Exchange.talks_ask_bind
  intro answer
  cases answer with
  | rejected cause =>
      apply Exchange.talks_fail
      exact ⟨_, rfl, by simp⟩
  | result value =>
      apply Talks.mono (talks_ofOption _ _)
      rintro result said ⟨rfl, hvalue⟩
      exact ⟨_, rfl, fun nonce hresult => ⟨value, rfl, hvalue nonce hresult⟩⟩

theorem estimate_talks (op : UserOperation) :
    Talks (fun result said => ∃ answer,
      said = [(.estimate (toRpcUserOp op) entryPoint, answer)] ∧
      ∀ est, result = .ok est → ∃ value, answer = .result value ∧
        parseEstimate lib value = some est)
      (estimateUserOperationGas peer lib entryPoint op) := by
  apply Exchange.talks_ask_bind
  intro answer
  cases answer with
  | rejected cause =>
      apply Exchange.talks_fail
      exact ⟨_, rfl, by simp⟩
  | result value =>
      apply Talks.mono (talks_ofOption _ _)
      rintro result said ⟨rfl, hvalue⟩
      exact ⟨_, rfl, fun est hresult => ⟨value, rfl, hvalue est hresult⟩⟩

theorem signUserOpHash_talks (userOpHash : String) :
    Talks (fun result said => ∃ answer,
      said = [(.signUserOpHash userOpHash, answer)] ∧
      ∀ signature, result = .ok signature →
        answer = .result (.string signature))
      (signUserOpHash peer userOpHash) := by
  apply Exchange.talks_ask_bind
  intro answer
  cases answer with
  | rejected cause =>
      apply Exchange.talks_fail
      exact ⟨_, rfl, by simp⟩
  | result value =>
      cases value with
      | string signature =>
          apply Exchange.talks_pure
          exact ⟨_, rfl, by simp⟩
      | _ =>
          apply Exchange.talks_fail
          exact ⟨_, rfl, by simp⟩

/-- The polls, of which all but the last find nothing. -/
theorem awaitReceipt_talks (userOpHash : String) (sentHash : Json)
    (polls : ℕ) :
    Talks (fun result said => (∀ e ∈ said, e.1 = .receipt sentHash) ∧
      Ends userOpHash (.result sentHash) said result)
      (awaitReceipt peer sentHash polls) := by
  induction polls with
  | zero =>
      apply Exchange.talks_pure
      exact ⟨by simp, .unresolved _ rfl rfl rfl (by simp)⟩
  | succ polls ih =>
      apply Exchange.talks_ask_bind
      intro answer
      cases answer with
      | rejected cause =>
          apply Exchange.talks_fail
          exact ⟨by simp, .lost cause [] sentHash rfl rfl⟩
      | result value =>
          cases hreceipt : parseReceipt value with
          | some receipt =>
              simp only [hreceipt]
              apply Exchange.talks_pure
              exact ⟨by simp, .received _ [] value rfl rfl hreceipt rfl⟩
          | none =>
              simp only [hreceipt]
              apply Talks.mono ih
              rintro result said ⟨hsaid, hends⟩
              refine ⟨by simpa using hsaid, ?_⟩
              exact hends.poll hreceipt

theorem sendUserOperation_talks (userOpHash : String) (op : UserOperation) :
    Talks (fun result said =>
      (said = [] ∧ ∃ thrown, result = .error thrown) ∨
      ∃ answer, said = [(.send (toRpcUserOp op) entryPoint, answer)] ∧
        op.signature ≠ "" ∧ op.signature ≠ "0x" ∧
        (∀ sentHash, result = .ok sentHash → answer = .result sentHash) ∧
        ∀ thrown, result = .error thrown →
          Ends userOpHash answer [] (.error thrown))
      (sendUserOperation peer entryPoint userOpHash op) := by
  unfold sendUserOperation
  by_cases hsigned : op.signature = "" ∨ op.signature = "0x"
  · rw [if_pos hsigned]
    apply Exchange.talks_fail
    exact .inl ⟨rfl, _, rfl⟩
  · rw [if_neg hsigned]
    obtain ⟨hempty, hplaceholder⟩ := not_or.mp hsigned
    apply Exchange.talks_ask_bind
    intro answer
    cases answer with
    | result sentHash =>
        apply Exchange.talks_pure
        exact .inr ⟨_, rfl, hempty, hplaceholder, by simp, by simp⟩
    | rejected cause =>
        cases hcode : cause.hasCode .submissionFailed with
        | true =>
            simp only [hcode, if_true]
            apply Exchange.talks_fail
            refine .inr ⟨_, rfl, hempty, hplaceholder, by simp, ?_⟩
            rintro thrown ⟨⟩
            exact .refused cause rfl hcode
        | false =>
            simp only [hcode]
            apply Exchange.talks_fail
            refine .inr ⟨_, rfl, hempty, hplaceholder, by simp, ?_⟩
            rintro thrown ⟨⟩
            exact .uncertain cause rfl hcode

/-- From the signature on. -/
theorem settled_talks {params : SmartAccountExecuteParams}
    {unsigned : UserOperation} {signature : String} (before : Said)
    (polls : ℕ)
    (hquiet : ∀ e ∈ before, ¬ e.1.IsSend)
    (hpayment : Payment lib entryPoint params before unsigned)
    (hsigned : (.signUserOpHash (lib.computeUserOpHash unsigned),
      .result (.string signature)) ∈ before) :
    Talks (fun result rest =>
        Honest lib entryPoint params result (before ++ rest))
      (sendUserOperation peer entryPoint (lib.computeUserOpHash unsigned)
          { unsigned with signature := signature } >>= fun sentHash =>
        awaitReceipt peer sentHash polls) := by
  have hsettled (hempty : signature ≠ "") (hplaceholder : signature ≠ "0x") :
      Settled lib entryPoint params before (lib.computeUserOpHash unsigned)
        (toRpcUserOp { unsigned with signature := signature }) :=
    ⟨unsigned, signature, hpayment, rfl, hsigned, hempty, hplaceholder, rfl⟩
  apply Talks.bind (sendUserOperation_talks _ _)
  · rintro thrown said (⟨rfl, -⟩ | ⟨answer, rfl, hempty, hplaceholder, -,
      hends⟩)
    · rw [List.append_nil]
      exact .inl ⟨hquiet, thrown, rfl⟩
    · exact .inr ⟨before, _, answer, [], _, rfl, hquiet,
        hsettled hempty hplaceholder, by simp, hends thrown rfl⟩
  · rintro sentHash said (⟨-, thrown, hthrown⟩ | ⟨answer, rfl, hempty,
      hplaceholder, hanswer, -⟩)
    · cases hthrown
    · cases hanswer sentHash rfl
      apply Talks.mono (awaitReceipt_talks _ sentHash polls)
      rintro result after ⟨hpolls, hends⟩
      refine .inr ⟨before, _, _, after, _, rfl, hquiet,
        hsettled hempty hplaceholder, ?_, hends⟩
      intro e he
      exact ⟨sentHash, rfl, hpolls e he⟩

/-- Whatever the bundler and the signer answer, the operation that is sent is
the payment, sent once and signed, and the result is what the bundler said. -/
theorem execute_honest (params : SmartAccountExecuteParams) (polls : ℕ) :
    Talks (Honest lib entryPoint params)
      (execute peer lib entryPoint params polls) := by
  apply Talks.bind (talks_throwing _)
  · rintro thrown said ⟨rfl, -⟩
    exact .inl ⟨by simp, thrown, rfl⟩
  rintro sender said ⟨rfl, hsender⟩
  apply Talks.bind (nonceOf_talks sender)
  · rintro thrown said ⟨answer, rfl, -⟩
    exact .inl ⟨by simp [Request.IsSend], thrown, rfl⟩
  rintro nonce said ⟨answer, rfl, hnonce⟩
  obtain ⟨nonceValue, rfl, hnonceValue⟩ := hnonce nonce rfl
  apply Talks.bind (talks_throwing _)
  · rintro thrown said ⟨rfl, -⟩
    exact .inl ⟨by simp [Request.IsSend], thrown, rfl⟩
  rintro built said ⟨rfl, hbuilt⟩
  apply Talks.bind (estimate_talks built)
  · rintro thrown said ⟨answer, rfl, -⟩
    exact .inl ⟨by simp [Request.IsSend], thrown, rfl⟩
  rintro est said ⟨answer, rfl, hest⟩
  obtain ⟨estimate, rfl, hestimate⟩ := hest est rfl
  apply Talks.bind (signUserOpHash_talks _)
  · rintro thrown said ⟨answer, rfl, -⟩
    exact .inl ⟨by simp [Request.IsSend], thrown, rfl⟩
  rintro signature said ⟨answer, rfl, hsignature⟩
  cases hsignature signature rfl
  apply Talks.mono (settled_talks
    [(.getNonce sender "0x0", .result nonceValue),
      (.estimate (toRpcUserOp built) entryPoint, .result estimate),
      (.signUserOpHash (lib.computeUserOpHash (built.withGas est)),
        .result (.string signature))] polls _
    (payment_of_build hsender.symm _ hnonceValue hbuilt.symm _ hestimate) _)
  · intro result rest h
    exact h
  · simp [Request.IsSend]
  · simp
  · simp
  · simp

end

end SmartAccount
end Execution
end Orvex
