import Orvex.Execution.Submissions

/-!
# Only what was authorized is broadcast

A transaction that reaches the signer was built, compared with the
expectation and simulated in the same call.  The facts that one check
establishes are carried along the points of the call to the next.
-/

namespace Orvex
namespace Execution

open Awaits (Task Pool Move)

section

variable (deps : PipelineDeps)

/-- The transaction is the authorized transfer, on the chain of the request,
of the expectation and of the RPC. -/
structure Prepared (request : ExecutionRequest) (ctx : AuthorizedContext)
    (tx : TransactionRequest) : Prop where
  requested : ∃ chain, deps.registry.getByNetwork request.network =
    .ok chain ∧ tx.chain.id = chain.chainId
  expected : tx.chain.id = ctx.expectation.chainId
  configured : tx.chain.id = deps.rpc.chain.chainId
  transfer : ∃ recipient units,
    deps.viem.getAddress ctx.expectation.recipient = some recipient ∧
      toBaseUnits ctx.expectation.amount usdcDecimals = .ok units ∧
      IsTransfer deps.viem deps.registry ctx.expectation.network recipient
        units tx

/-- The call simulated the transfer of the transaction, and the simulation
did not revert. -/
def Simulated (past : List (Point × Reply)) (tx : TransactionRequest) :
    Prop :=
  ∃ sim reply, simulatedTransfer deps tx = .ok (some sim) ∧
    reply.answer = .simulated ∧ (.simulatingTransfer tx sim, reply) ∈ past

/-- The simulation of the transaction got as far as the gas estimate, after
which its status is PASS. -/
def Passed (past : List (Point × Reply)) (tx : TransactionRequest) : Prop :=
  ∃ reply, (.estimatingGas tx, reply) ∈ past

/-- What the signer may be handed: a prepared transaction whose simulation
in the same call passed. -/
structure Cleared (request : ExecutionRequest) (ctx : AuthorizedContext)
    (past : List (Point × Reply)) (tx : TransactionRequest) : Prop where
  prepared : Prepared deps request ctx tx
  simulated : Simulated deps past tx
  passed : Passed past tx

/-- What is established where a call waits. -/
def Established (request : ExecutionRequest) (ctx : AuthorizedContext)
    (past : List (Point × Reply)) : Point → Prop
  | .checkingChain _ => ∃ chain,
      deps.registry.getByNetwork request.network = .ok chain ∧
        chain.chainId = deps.rpc.chain.chainId
  | .recheckingChain _ tx => Prepared deps request ctx tx
  | .readingBalance tx sim => Prepared deps request ctx tx ∧
      simulatedTransfer deps tx = .ok (some sim)
  | .simulatingTransfer tx sim => Prepared deps request ctx tx ∧
      simulatedTransfer deps tx = .ok (some sim)
  | .estimatingGas tx => Prepared deps request ctx tx ∧
      Simulated deps past tx
  | .sending tx => Cleared deps request ctx past tx
  | _ => True

/-- Of a call, where it waits and what it has handed to the signer. -/
def Guarded (call : Call) (past : List (Point × Reply)) (point : Point) :
    Prop :=
  match call with
  | .execute request ctx => Established deps request ctx past point ∧
      ∀ tx reply, (.sending tx, reply) ∈ past →
        Cleared deps request ctx past tx
  | .verify _ => True

/-- The call is handing the transaction to the signer, or has handed it. -/
def HandsOver (task : Task Call Point Reply) (tx : TransactionRequest) :
    Prop :=
  task.point = .sending tx ∨ ∃ reply, (.sending tx, reply) ∈ task.past

/-- What the signer gets is the authorized transfer: on the chain of the
request, of the expectation and of the RPC, to the token, without value, and
with the calldata of the transfer that was authorized; and the same call
simulated exactly this transfer, with status PASS. -/
structure Authorized (request : ExecutionRequest) (ctx : AuthorizedContext)
    (past : List (Point × Reply)) (tx : TransactionRequest)
    (sent : SentTransaction) : Prop where
  requested : ∃ chain, deps.registry.getByNetwork request.network =
    .ok chain ∧ sent.chainId = chain.chainId
  expected : sent.chainId = ctx.expectation.chainId
  configured : sent.chainId = deps.rpc.chain.chainId
  mainnet : deps.rpc.chain.isMainnet = true → deps.rpc.allowMainnet = true
  token : ∃ usdc address,
    deps.registry.usdc ctx.expectation.network = .ok usdc ∧
      usdc.address = some address ∧
      deps.viem.getAddress address = some sent.toAddress
  value : sent.value = 0
  transfer : ∃ recipient units account reply,
    deps.viem.getAddress ctx.expectation.recipient = some recipient ∧
      toBaseUnits ctx.expectation.amount usdcDecimals = .ok units ∧
      deps.viem.encodeTransfer recipient units = some sent.data ∧
      deps.viem.getAddress tx.fromAddress = some account ∧
      reply.answer = .simulated ∧
      (.simulatingTransfer tx ⟨account, sent.toAddress, recipient, units⟩,
        reply) ∈ past
  passed : Passed past tx

end

section

variable {deps : PipelineDeps} {request : ExecutionRequest}
  {ctx : AuthorizedContext} {past : List (Point × Reply)}

theorem Simulated.append {tx : TransactionRequest}
    (h : Simulated deps past tx) (more : List (Point × Reply)) :
    Simulated deps (past ++ more) tx := by
  obtain ⟨sim, reply, hsim, hanswer, hmem⟩ := h
  exact ⟨sim, reply, hsim, hanswer, List.mem_append_left more hmem⟩

theorem Cleared.append {tx : TransactionRequest}
    (h : Cleared deps request ctx past tx) (more : List (Point × Reply)) :
    Cleared deps request ctx (past ++ more) tx :=
  ⟨h.prepared, h.simulated.append more, h.passed.imp fun _ hmem =>
    List.mem_append_left more hmem⟩

/-- A prepared transaction passed the builder, the analyzer, the validator
and the chain check. -/
theorem prepare_eq_ok (hviem : deps.viem.Lawful) {now : ℤ}
    {tx : TransactionRequest}
    (h : Pipeline.prepare deps request ctx now = .ok tx) :
    tx.chain.id = ctx.expectation.chainId ∧
      tx.chain.id = deps.rpc.chain.chainId ∧
      ∃ recipient units,
        deps.viem.getAddress ctx.expectation.recipient = some recipient ∧
          toBaseUnits ctx.expectation.amount usdcDecimals = .ok units ∧
          IsTransfer deps.viem deps.registry ctx.expectation.network
            recipient units tx := by
  obtain ⟨built, hbuild, h⟩ := Fallible.result_bind_eq_ok.mp h
  rw [Fallible.result_bind_eq_ok] at h
  obtain ⟨analysis, -, h⟩ := h
  split at h
  next => simp at h
  next =>
    rw [Fallible.result_bind_eq_ok] at h
    obtain ⟨_, hvalid, h⟩ := h
    rw [Fallible.result_bind_eq_ok] at h
    obtain ⟨_, hchain, h⟩ := h
    rw [Fallible.result_pure, Except.ok.injEq] at h
    subst h
    obtain ⟨-, -, recipient, units, -, -, htransfer⟩ :=
      build_eq_ok hviem hbuild
    obtain ⟨hid, hnetwork, -, hrecipient, hunits⟩ :=
      assertValid_transfer hviem htransfer hvalid
    rw [hnetwork] at htransfer
    exact ⟨hid, assertRequestedChain_eq_ok.mp hchain, recipient, units,
      hrecipient, hunits, htransfer⟩

/-- The simulated call is the transfer of the transaction. -/
theorem simulatedTransfer_of_transfer (hviem : deps.viem.Lawful)
    {network recipient : String} {units : ℕ} {tx : TransactionRequest}
    {sim : SimulatedTransfer}
    (h : IsTransfer deps.viem deps.registry network recipient units tx)
    (hsim : simulatedTransfer deps tx = .ok (some sim)) :
    ∃ account, deps.viem.getAddress tx.fromAddress = some account ∧
      sim = ⟨account, tx.toAddress, recipient, units⟩ := by
  obtain ⟨_, address, -, -, htoken⟩ := h.token
  have hself := hviem.getAddress_self _ _ htoken
  have hne : recipient ≠ "" := hviem.ne_empty h.spelled
  unfold simulatedTransfer at hsim
  rw [decode_transfer hviem h, Fallible.result_ok_bind] at hsim
  simp only [ne_eq, not_true_eq_false, hne, or_false, Bool.true_eq_false,
    if_false] at hsim
  rw [Viem.requireSpelling_eq_ok.mpr hself, Fallible.result_ok_bind,
    Fallible.result_bind_eq_ok] at hsim
  obtain ⟨account, haccount, hsim⟩ := hsim
  rw [Fallible.result_bind_eq_ok] at hsim
  obtain ⟨_, -, hsim⟩ := hsim
  rw [Fallible.result_pure, Except.ok.injEq, Option.some.injEq] at hsim
  exact ⟨account, Viem.requireSpelling_eq_ok.mp haccount, hsim.symm⟩

/-! ## What one step establishes -/

theorem begin_established (shared : Shared) :
    Established deps request ctx past (Pipeline.begin deps request shared) := by
  unfold Pipeline.begin
  split
  next => trivial
  next =>
    split
    next => trivial
    next hchain =>
      obtain ⟨chain, hfound, hassert⟩ := Fallible.result_bind_eq_ok.mp hchain
      exact ⟨chain, hfound, assertRequestedChain_eq_ok.mp hassert⟩

/-- A step before the submission establishes what the next point rests
on. -/
theorem prepares_established (hviem : deps.viem.Lawful)
    {point point' : Point} {reply : Reply}
    (hpoint : Established deps request ctx past point)
    (h : Prepares deps request ctx point reply point') :
    Established deps request ctx (past ++ [(point, reply)]) point' := by
  cases h with
  | thrown thrown => trivial
  | prepared cached again reply tx htx =>
      obtain ⟨hexpected, hconfigured, htransfer⟩ := prepare_eq_ok hviem htx
      obtain ⟨chain, hchain, hrpc⟩ := hpoint
      exact ⟨⟨chain, hchain, hconfigured.trans hrpc.symm⟩, hexpected,
        hconfigured, htransfer⟩
  | simulation cached reply tx sim hsim => exact ⟨hpoint, hsim⟩
  | balance reply tx sim => exact hpoint
  | simulated reply tx sim hanswer =>
      exact ⟨hpoint.1, sim, reply, hpoint.2, hanswer, by simp⟩
  | sending reply tx =>
      exact ⟨hpoint.1, hpoint.2.append _, reply, by simp⟩
  | refused reply tx cause => trivial

/-- After the submission nothing more is handed to the signer. -/
theorem waits_established {txHash : String} {reply : Reply}
    {shared shared' : Shared} {point : Point}
    (h : Waits deps request txHash reply shared shared' point) :
    Established deps request ctx past point := by
  cases h with
  | waiting _ hwaits =>
      unfold WaitsFor at hwaits
      split at hwaits
      next => trivial
      next => trivial
      next => trivial
      next => exact absurd hwaits id
  | thrown thrown => trivial
  | unknown => trivial
  | received => trivial

theorem record_established (submission : Submission) (now : ℤ)
    (shared : Shared) :
    Established deps request ctx past
      (Pipeline.record deps request ctx submission now shared).2 := by
  unfold Pipeline.record
  split
  next =>
    simp only
    split
    next => trivial
    next => trivial
  next => trivial

/-- Each step establishes what the next point rests on. -/
theorem step_established (hviem : deps.viem.Lawful) {point point' : Point}
    {reply : Reply} {shared shared' : Shared}
    (hpoint : Established deps request ctx past point)
    (h : Pipeline.step deps request ctx point reply shared =
      some (shared', point')) :
    Established deps request ctx (past ++ [(point, reply)]) point' := by
  cases point with
  | checkingChain | recheckingChain | readingBalance | simulatingTransfer
  | estimatingGas =>
      obtain ⟨-, hprepares⟩ := step_preparing (by exact trivial) h
      exact prepares_established hviem hpoint hprepares
  | sending tx =>
      rcases (step_sending h).2 with ⟨_, -, rfl⟩ | ⟨_, -, rfl⟩
      · trivial
      · trivial
  | submitted submission =>
      have hrecord := congrArg Prod.snd (step_submitted h)
      simp only at hrecord
      rw [hrecord]
      exact record_established submission reply.now shared
  | waitingForReceipt txHash | gettingReceipt txHash | sleeping txHash =>
      exact waits_established (@step_waiting _ _ _ _ _ _ _ _ txHash
        (by exact rfl) h)
  | verifying =>
      rw [step_verifying] at h
      simp at h
  | done =>
      rw [step_done] at h
      simp at h

/-! ## Every call of every run -/

theorem guarded (hviem : deps.viem.Lawful) :
    (Pipeline.program deps).Local (fun _ => True) (Guarded deps) where
  enter := by
    intro call answer shared _
    refine ⟨trivial, ?_⟩
    cases call with
    | verify executionId => trivial
    | execute request ctx =>
        refine ⟨begin_established shared, ?_⟩
        intro tx reply hmem
        simp at hmem
  resume := by
    intro call past point reply shared shared' point' _ hguarded h
    refine ⟨trivial, ?_⟩
    cases call with
    | verify executionId => trivial
    | execute request ctx =>
        obtain ⟨hpoint, hpast⟩ := hguarded
        refine ⟨step_established hviem hpoint h, ?_⟩
        intro tx found hmem
        rcases List.mem_append.mp hmem with hold | hnew
        · exact (hpast tx found hold).append _
        · have hsame := List.mem_singleton.mp hnew
          rw [Prod.mk.injEq] at hsame
          rw [← hsame.1] at hpoint
          exact Cleared.append hpoint _

theorem authorized_of_cleared (hviem : deps.viem.Lawful)
    {tx : TransactionRequest} (h : Cleared deps request ctx past tx) :
    Authorized deps request ctx past tx (sentTransaction tx) := by
  obtain ⟨hprepared, ⟨sim, reply, hsim, hanswer, hmem⟩, hpassed⟩ := h
  obtain ⟨recipient, units, hrecipient, hunits, htransfer⟩ :=
    hprepared.transfer
  obtain ⟨account, haccount, rfl⟩ :=
    simulatedTransfer_of_transfer hviem htransfer hsim
  exact
    { requested := hprepared.requested
      expected := hprepared.expected
      configured := hprepared.configured
      mainnet := deps.rpc.mainnet_allowed
      token := htransfer.token
      value := by
        have hzero : bigInt "0".toList = 0 := by decide
        change bigInt tx.value.toList = 0
        rw [htransfer.value, hzero]
      transfer := ⟨recipient, units, account, reply, hrecipient, hunits,
        htransfer.data, haccount, hanswer, hmem⟩
      passed := hpassed }

/-- Whatever the RPC, the simulation and the signer answer, and whatever
other calls do, the signer gets only what was authorized. -/
theorem only_authorized_is_broadcast (hviem : deps.viem.Lawful)
    {shared : Shared} {moves : List (Move Call Reply)}
    {pool : Pool Shared Call Point Reply}
    (hrun : (Pipeline.program deps).run ⟨shared, []⟩ moves = some pool)
    {task : Task Call Point Reply} (htask : task ∈ pool.tasks)
    (hcall : task.call = .execute request ctx) {tx : TransactionRequest}
    (hsent : HandsOver task tx) :
    Authorized deps request ctx task.past tx (sentTransaction tx) := by
  have hlocal := (guarded hviem).run
    ⟨trivial, fun task hmem => absurd hmem List.not_mem_nil⟩ hrun
  have hguarded := hlocal.2 task htask
  rw [hcall] at hguarded
  obtain ⟨hpoint, hpast⟩ := hguarded
  apply authorized_of_cleared hviem
  rcases hsent with hnow | ⟨reply, hmem⟩
  · rw [hnow] at hpoint
    exact hpoint
  · exact hpast tx reply hmem

/-- The payment of 10 USDC reaches the signer, as authorized. -/
theorem payment_is_authorized :
    ∃ moves pool task tx,
      (Pipeline.program sepoliaDeps).run ⟨⟨.empty, none⟩, []⟩ moves =
        some pool ∧
      task ∈ pool.tasks ∧
      task.call = .execute firstRequest payeeContext ∧ HandsOver task tx ∧
      Authorized sepoliaDeps firstRequest payeeContext task.past tx
        (sentTransaction tx) := by
  obtain ⟨tx, sim, hacceptable⟩ := payee_acceptable
  obtain ⟨next, past, hrun, -, -⟩ :=
    @reaches_signer sepoliaDeps firstRequest payeeContext 0 tx sim
      ⟨.empty, none⟩ hacceptable rfl []
  have hmem : (⟨.execute firstRequest payeeContext, .sending tx, past⟩ :
      Task Call Point Reply) ∈ [⟨.execute firstRequest payeeContext,
        .sending tx, past⟩] := List.mem_singleton_self _
  exact ⟨_, _, _, tx, hrun, hmem, rfl, Or.inl rfl,
    only_authorized_is_broadcast sepoliaDeps_lawful hrun hmem rfl
      (Or.inl rfl)⟩

end

end Execution
end Orvex
