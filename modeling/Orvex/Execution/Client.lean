import Orvex.Execution.Chains

/-!
# The execution client and its authorized contexts

The core registers what it authorized, under the transaction and, where it
has one, under the execution.  The client looks the context up again when
the execution is requested, and hands both to the pipeline.

An execution runs with its own context exactly when no other context was
registered later under the same transaction.
-/

namespace Orvex
namespace Execution

/-! ## The registry -/

/-- The arguments of `register`. -/
structure Registration where
  transactionId : String
  executionId : Option String
  context : AuthorizedContext
  deriving DecidableEq

structure AuthorizedContextRegistry where
  byTransaction : Entries String AuthorizedContext
  /-- From an execution to its transaction. -/
  byExecution : Entries String String

namespace AuthorizedContextRegistry

def empty : AuthorizedContextRegistry := ⟨.empty, .empty⟩

def register (registry : AuthorizedContextRegistry)
    (params : Registration) : AuthorizedContextRegistry :=
  let registry :=
    { registry with
      byTransaction :=
        registry.byTransaction.set params.transactionId params.context }
  match params.executionId with
  | none => registry
  | some executionId =>
      if executionId ≠ "" then
        { registry with
          byExecution :=
            registry.byExecution.set executionId params.transactionId }
      else registry

def resolve (registry : AuthorizedContextRegistry)
    (executionId : Option String) (transactionId : String) :
    Option AuthorizedContext :=
  if transactionId ≠ "" ∧ registry.byTransaction.has transactionId then
    registry.byTransaction.get transactionId
  else
    match executionId with
    | none => none
    | some executionId =>
        if executionId ≠ "" then
          match registry.byExecution.get executionId with
          | none => none
          | some txId =>
              if txId ≠ "" then registry.byTransaction.get txId else none
        else none

/-- The registry after a history of registrations. -/
def after (history : List Registration) : AuthorizedContextRegistry :=
  history.foldl register empty

@[simp] theorem register_byTransaction
    (registry : AuthorizedContextRegistry) (params : Registration) :
    (registry.register params).byTransaction =
      registry.byTransaction.set params.transactionId params.context := by
  unfold register
  cases params.executionId with
  | none => rfl
  | some executionId =>
      by_cases hempty : executionId ≠ ""
      · simp only [if_pos hempty]
      · simp only [if_neg hempty]

theorem foldl_byTransaction (history : List Registration)
    (registry : AuthorizedContextRegistry) :
    (history.foldl register registry).byTransaction =
      Entries.setAll Registration.transactionId Registration.context history
        registry.byTransaction := by
  induction history generalizing registry with
  | nil => rfl
  | cons params rest ih =>
      have hrest := ih (registry.register params)
      rw [register_byTransaction] at hrest
      rw [List.foldl_cons, hrest, Entries.setAll_cons]

/-- Registrations that do not name an execution leave its transaction. -/
theorem foldl_byExecution_of_forall_ne {history : List Registration}
    {executionId : String}
    (hother : ∀ params ∈ history, params.executionId ≠ some executionId)
    (registry : AuthorizedContextRegistry) :
    (history.foldl register registry).byExecution.get executionId =
      registry.byExecution.get executionId := by
  induction history generalizing registry with
  | nil => rfl
  | cons params rest ih =>
      have hrest := ih
        (fun x hx => hother x (List.mem_cons_of_mem params hx))
        (registry.register params)
      have hhead := hother params List.mem_cons_self
      rw [List.foldl_cons, hrest]
      unfold register
      cases hid : params.executionId with
      | none => rfl
      | some named =>
          have hne : executionId ≠ named := by
            intro heq
            exact hhead (by rw [hid, heq])
          by_cases hempty : named ≠ ""
          · simp only [if_pos hempty]
            exact Entries.get_set_of_ne _ _ hne
          · simp only [if_neg hempty]

theorem register_byExecution {registry : AuthorizedContextRegistry}
    {params : Registration} {executionId : String}
    (hid : params.executionId = some executionId) (hne : executionId ≠ "") :
    (registry.register params).byExecution.get executionId =
      some params.transactionId := by
  simp only [register, hid, ne_eq, hne, not_false_eq_true, if_true,
    Entries.get_set_self]

/-- A registered transaction is what is looked at first. -/
theorem resolve_of_transaction {registry : AuthorizedContextRegistry}
    {transactionId : String} {context : AuthorizedContext}
    (hne : transactionId ≠ "")
    (hget : registry.byTransaction.get transactionId = some context)
    (executionId : Option String) :
    registry.resolve executionId transactionId = some context := by
  have hhas : registry.byTransaction.has transactionId = true :=
    Entries.has_eq_true_iff.mpr ⟨context, hget⟩
  unfold resolve
  rw [if_pos ⟨hne, hhas⟩, hget]

/-- An execution that was registered under no transaction resolves to
nothing. -/
theorem resolve_of_empty {registry : AuthorizedContextRegistry}
    {executionId : String}
    (hget : executionId ≠ "" →
      registry.byExecution.get executionId = some "") :
    registry.resolve (some executionId) "" = none := by
  unfold resolve
  rw [if_neg (fun h => h.1 rfl)]
  by_cases hempty : executionId ≠ ""
  · simp only [if_pos hempty, hget hempty, ne_eq, not_true_eq_false,
      if_false]
  · simp only [if_neg hempty]

end AuthorizedContextRegistry

/-! ## The client -/

/-- What the client is built from, apart from its pipeline. -/
structure BaseSepoliaExecutionClient where
  resolver : AuthorizedContextRegistry
  /-- The address of the signer. -/
  sender : String

namespace BaseSepoliaExecutionClient

def idDetails (executionId : Option String) (transactionId : String) :
    List (String × Json) :=
  (executionId.map (fun id => ("executionId", (.string id : Json)))).toList ++
    [("transactionId", .string transactionId)]

def requireContext (viem : Viem) (client : BaseSepoliaExecutionClient)
    (executionId : Option String) (transactionId : String) :
    Except Thrown AuthorizedContext :=
  match client.resolver.resolve executionId transactionId with
  | none =>
      .error (.of .validationFailed
        "No authorized context for this transaction; refusing to execute."
        (idDetails executionId transactionId))
  | some context => do
      let _ ← viem.requireSpelling client.sender
      pure context

/-- What `execute` hands to the pipeline with the request. -/
def contextOf (viem : Viem) (client : BaseSepoliaExecutionClient)
    (request : ExecutionRequest) : Except Thrown AuthorizedContext := do
  let context ← client.requireContext viem (some request.executionId)
    request.transactionId
  if context.expectation.network ≠ request.network then
    .error (.of .validationFailed
      "Authorized network does not match execution request network."
      [("authorized", .string context.expectation.network),
        ("request", .string request.network)])
  else pure context

theorem requireContext_eq_ok {viem : Viem}
    {client : BaseSepoliaExecutionClient} {executionId : Option String}
    {transactionId : String} {context : AuthorizedContext}
    (h : client.requireContext viem executionId transactionId =
      .ok context) :
    client.resolver.resolve executionId transactionId = some context := by
  unfold requireContext at h
  split at h
  next => simp at h
  next found hfound =>
    obtain ⟨_, -, hpure⟩ := Fallible.result_bind_eq_ok.mp h
    rw [Fallible.result_pure, Except.ok.injEq] at hpure
    rw [hfound, hpure]

theorem contextOf_eq_ok {viem : Viem} {client : BaseSepoliaExecutionClient}
    {request : ExecutionRequest} {context : AuthorizedContext}
    (h : client.contextOf viem request = .ok context) :
    client.resolver.resolve (some request.executionId)
        request.transactionId = some context ∧
      context.expectation.network = request.network := by
  obtain ⟨found, hfound, hrest⟩ := Fallible.result_bind_eq_ok.mp h
  split at hrest
  next => simp at hrest
  next hnetwork =>
    rw [Fallible.result_pure, Except.ok.injEq] at hrest
    subst hrest
    exact ⟨requireContext_eq_ok hfound, by simpa using hnetwork⟩

end BaseSepoliaExecutionClient

/-! ## Which context an execution runs with -/

/-- The registration in which the execution was named last. -/
def OwnRegistration (own : Registration) (executionId : String)
    (later : List Registration) : Prop :=
  own.executionId = some executionId ∧
    ∀ params ∈ later, params.executionId ≠ some executionId

/-- The last of the later registrations of the transaction, if there is one,
carries the same context. -/
def NotReplaced (own : Registration) (later : List Registration) : Prop :=
  ∀ before params rest, later = before ++ params :: rest →
    params.transactionId = own.transactionId →
    (∀ x ∈ rest, x.transactionId ≠ own.transactionId) →
    params.context = own.context

/-- Under a transaction stands the context that was registered last. -/
theorem get_after_last {earlier later : List Registration}
    {last : Registration}
    (hlater : ∀ x ∈ later, x.transactionId ≠ last.transactionId) :
    (AuthorizedContextRegistry.after
        (earlier ++ last :: later)).byTransaction.get last.transactionId =
      some last.context := by
  rw [AuthorizedContextRegistry.after,
    AuthorizedContextRegistry.foldl_byTransaction]
  exact Entries.get_setAll_last hlater _

theorem get_own_iff (earlier later : List Registration)
    (own : Registration) :
    (AuthorizedContextRegistry.after
        (earlier ++ own :: later)).byTransaction.get own.transactionId =
      some own.context ↔ NotReplaced own later := by
  constructor
  · intro hget before params rest hsplit hid hrest
    have hlast := @get_after_last (earlier ++ own :: before) rest params
      (by rw [hid]; exact hrest)
    rw [List.append_assoc, List.cons_append, ← hsplit, hid, hget,
      Option.some.injEq] at hlast
    exact hlast.symm
  · intro hkept
    rcases Entries.exists_last_or_forall_not
        (fun params => params.transactionId = own.transactionId) later with
      hnone | ⟨before, last, rest, hsplit, hid, hrest⟩
    · exact get_after_last hnone
    · have hlast := @get_after_last (earlier ++ own :: before) rest last
        (by rw [hid]; exact hrest)
      rw [List.append_assoc, List.cons_append, ← hsplit, hid] at hlast
      rw [hlast, hkept before last rest hsplit hid hrest]

theorem exists_get_own (earlier later : List Registration)
    (own : Registration) :
    ∃ context, (AuthorizedContextRegistry.after
        (earlier ++ own :: later)).byTransaction.get own.transactionId =
      some context := by
  rcases Entries.exists_last_or_forall_not
      (fun params => params.transactionId = own.transactionId) later with
    hnone | ⟨before, last, rest, hsplit, hid, hrest⟩
  · exact ⟨_, get_after_last hnone⟩
  · have hlast := @get_after_last (earlier ++ own :: before) rest last
      (by rw [hid]; exact hrest)
    rw [List.append_assoc, List.cons_append, ← hsplit, hid] at hlast
    exact ⟨_, hlast⟩

/-- The transaction that stands under an execution is the one it was
registered with last. -/
theorem byExecution_own {earlier later : List Registration}
    {own : Registration} {executionId : String}
    (hown : OwnRegistration own executionId later)
    (hne : executionId ≠ "") :
    (AuthorizedContextRegistry.after
        (earlier ++ own :: later)).byExecution.get executionId =
      some own.transactionId := by
  rw [AuthorizedContextRegistry.after, List.foldl_append, List.foldl_cons,
    AuthorizedContextRegistry.foldl_byExecution_of_forall_ne hown.2,
    AuthorizedContextRegistry.register_byExecution hown.1 hne]

/-- After any history of registrations, an execution resolves to its own
context, and is executed with no other, exactly when its transaction has an
id and no other context took the place of its own. -/
theorem resolves_own_context_iff (viem : Viem) (sender : String)
    (earlier later : List Registration) (own : Registration)
    (request : ExecutionRequest)
    (hown : OwnRegistration own request.executionId later)
    (htransaction : request.transactionId = own.transactionId) :
    let client : BaseSepoliaExecutionClient :=
      ⟨.after (earlier ++ own :: later), sender⟩
    (client.resolver.resolve (some request.executionId)
        request.transactionId = some own.context ↔
      own.transactionId ≠ "" ∧ NotReplaced own later) ∧
    ∀ context, client.contextOf viem request = .ok context →
      (context = own.context ↔
        own.transactionId ≠ "" ∧ NotReplaced own later) := by
  intro client
  have hresolve : client.resolver.resolve (some request.executionId)
      request.transactionId = some own.context ↔
        own.transactionId ≠ "" ∧ NotReplaced own later := by
    rw [htransaction, ← get_own_iff earlier later own]
    by_cases hempty : own.transactionId = ""
    · have hnone : client.resolver.resolve (some request.executionId) "" =
          none := by
        apply AuthorizedContextRegistry.resolve_of_empty
        intro hne
        rw [← hempty]
        exact byExecution_own hown hne
      rw [hempty, hnone]
      simp
    · obtain ⟨context, hcontext⟩ := exists_get_own earlier later own
      rw [AuthorizedContextRegistry.resolve_of_transaction hempty hcontext,
        hcontext]
      simp [hempty]
  refine ⟨hresolve, fun context hcontext => ?_⟩
  rw [← hresolve,
    (BaseSepoliaExecutionClient.contextOf_eq_ok hcontext).1,
    Option.some.injEq]

/-! ## Two executions of one transaction -/

/-- A context of one payment, as the core registers it. -/
def paymentContext (recipient amount : String) : AuthorizedContext :=
  { intent :=
      { transactionId := "tx-1"
        proposalId := "prop-1"
        actionType := "payment"
        network := "base-sepolia"
        asset := ⟨"USDC", none, none⟩
        amount := amount
        recipient := ⟨recipient⟩
        paymentMethod := none }
    expectation :=
      { network := "base-sepolia"
        chainId := 84532
        recipient := recipient
        asset := "USDC"
        amount := amount
        allowedFunction := .transfer } }

def firstPayment : Registration :=
  { transactionId := "tx-1"
    executionId := some "exec-1"
    context :=
      paymentContext "0x2222222222222222222222222222222222222222" "5.25" }

def secondPayment : Registration :=
  { transactionId := "tx-1"
    executionId := some "exec-2"
    context :=
      paymentContext "0x3333333333333333333333333333333333333333" "900" }

def firstRequest : ExecutionRequest :=
  { executionId := "exec-1"
    transactionId := "tx-1"
    network := "base-sepolia"
    idempotencyKey := "key-1" }

/-- The signer of the payments. -/
def paymentSender : String := "0x1111111111111111111111111111111111111111"

/-- Addresses without letters, which are spelled in one way. -/
def letterlessViem : Viem :=
  { isAddress := fun _ => true
    getAddress := some
    encodeTransfer := fun _ _ => none
    decodeFunctionData := fun _ => none
    selector := fun data => data
    decodeTransferLog := fun _ _ => none }

/-- The first execution runs with the context of the second. -/
theorem first_runs_with_second_context :
    OwnRegistration firstPayment firstRequest.executionId [secondPayment] ∧
    BaseSepoliaExecutionClient.contextOf letterlessViem
        ⟨.after [firstPayment, secondPayment], paymentSender⟩
        firstRequest = .ok secondPayment.context ∧
    secondPayment.context ≠ firstPayment.context := by
  refine ⟨⟨rfl, by decide⟩, ?_, by decide⟩
  have hresolve : (AuthorizedContextRegistry.after
      [firstPayment, secondPayment]).resolve (some "exec-1") "tx-1" =
        some secondPayment.context := by
    apply AuthorizedContextRegistry.resolve_of_transaction (by decide)
    exact @get_after_last [firstPayment] [] secondPayment (by simp)
  simp only [BaseSepoliaExecutionClient.contextOf,
    BaseSepoliaExecutionClient.requireContext, firstRequest, hresolve]
  rfl

theorem resolves_own_context_of_second :
    (AuthorizedContextRegistry.after
        [firstPayment, secondPayment]).resolve (some "exec-2") "tx-1" =
      some secondPayment.context := by
  have hown : OwnRegistration secondPayment "exec-2" [] := ⟨rfl, by simp⟩
  refine (resolves_own_context_iff letterlessViem paymentSender
    [firstPayment] [] secondPayment
    ⟨"exec-2", "tx-1", "base-sepolia", "key-2"⟩ hown rfl).1.mpr
    ⟨by decide, ?_⟩
  intro before params rest hsplit
  simp at hsplit

end Execution
end Orvex
