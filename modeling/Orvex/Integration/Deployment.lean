import Orvex.Api.Http
import Orvex.Execution.Broadcast
import Orvex.Security.IntentVerifier

/-!
# What an environment deploys

Core reads its configuration from the environment and selects its execution
client.  Only the mode TESTNET selects the real one, which the blockchain
package builds from a configuration of its own, read from the same
environment.  Whatever the environment says, this client pays on Base Sepolia
only.
-/

namespace Orvex
namespace Deployment

open Awaits (Task Pool Move)
open Execution
open Execution.TransactionValidator (nameIf)
open Http (CoreEnvironment)

/-- `process.env`. -/
abbrev Environment := String → Option String

/-- What the packages make of a variable. -/
structure Packages where
  /-- `z.coerce.number().int()`; `none` is an issue. -/
  coerceInt : String → Option ℤ
  /-- `z.string().url()`. -/
  isUrl : String → Bool
  /-- The address of `privateKeyToAccount(key)`; `none` is the exception. -/
  accountOf : String → Option String
  /-- The blockchain package can be imported. -/
  installed : Bool

inductive StartError where
  /-- The schema finds issues. -/
  | invalid
  /-- The mode requires what is missing. -/
  | missing (names : List String)
  | error (message : String)
  | thrown (thrown : Thrown)

/-! ## The configuration of Core -/

/-- An enumeration with a default. -/
def enumeration {α : Type} (members : List (String × α)) (default : α) :
    Option String → Option α
  | none => some default
  | some text => members.lookup text

/-- `z.string().min(1).optional()`. -/
def nonEmptyText : Option String → Option (Option String)
  | none => some none
  | some text => if text = "" then none else some (some text)

/-- `optionalUrl`. -/
def optionalUrl (packages : Packages) :
    Option String → Option (Option String)
  | none => some none
  | some text =>
      if text = "" then some none
      else if packages.isUrl text then some (some text)
      else none

/-- `z.coerce.boolean().default(false)`. -/
def coerceBoolean (value : Option String) : Bool := Orvex.truthy value

/-- `z.coerce.number().int()` within bounds, with a default. -/
def boundedInt (packages : Packages) (allowed : ℤ → Bool) (default : ℤ) :
    Option String → Option ℤ
  | none => some default
  | some text => (packages.coerceInt text).filter allowed

structure CoreConfig where
  environment : CoreEnvironment
  databaseUrl : Option String
  redisUrl : Option String
  internalServiceToken : Option String
  network : String
  executionMode : ExecutionMode
  allowMainnet : Bool
  otelEnabled : Bool
  otelExporterEndpoint : Option String

def environments : List (String × CoreEnvironment) :=
  [("local", .localhost), ("ci", .ci), ("test", .test),
    ("testnet", .testnet), ("production", .production)]

def executionModes : List (String × ExecutionMode) :=
  [("SIMULATE", .simulate), ("REVIEW_ONLY", .reviewOnly),
    ("TESTNET", .testnet), ("AUTONOMOUS", .autonomous)]

def logLevels : List (String × Unit) :=
  [("debug", ()), ("info", ()), ("warn", ()), ("error", ())]

/-- `configSchema.safeParse(mapEnv(env))`. -/
def configSchema (packages : Packages) (env : Environment) :
    Option CoreConfig := do
  let environment ← enumeration environments .localhost (env "CORE_ENV")
  let _ ← boundedInt packages (fun n => decide (1 ≤ n ∧ n ≤ 65535)) 8090
    (env "PORT")
  let _ ← enumeration logLevels () (env "LOG_LEVEL")
  let databaseUrl ← nonEmptyText (env "DATABASE_URL")
  let redisUrl ← nonEmptyText (env "REDIS_URL")
  let _ ← optionalUrl packages (env "AI_SERVICE_URL")
  let _ ← optionalUrl packages (env "EXECUTION_SERVICE_URL")
  let internalServiceToken ← nonEmptyText (env "INTERNAL_SERVICE_TOKEN")
  let executionMode ← enumeration executionModes .simulate
    (env "EXECUTION_MODE")
  let otelExporterEndpoint ← optionalUrl packages
    (env "OTEL_EXPORTER_OTLP_ENDPOINT")
  return {
    environment := environment
    databaseUrl := databaseUrl
    redisUrl := redisUrl
    internalServiceToken := internalServiceToken
    network := (env "CORE_NETWORK").getD "base-sepolia"
    executionMode := executionMode
    allowMainnet := coerceBoolean (env "ALLOW_MAINNET")
    otelEnabled := coerceBoolean (env "OTEL_ENABLED")
    otelExporterEndpoint := otelExporterEndpoint }

def CoreConfig.isTestnet (config : CoreConfig) : Bool :=
  IntentVerifier.containsText config.network "sepolia"

/-- What the mode requires and the configuration lacks. -/
def validateRequiredForMode (config : CoreConfig) : List String :=
  let strict := decide (config.environment = .production ∨
    config.environment = .testnet)
  let production := decide (config.environment = .production)
  nameIf (strict && config.databaseUrl.isNone) "DATABASE_URL" ++
    nameIf (strict && config.redisUrl.isNone) "REDIS_URL" ++
    nameIf (production && config.internalServiceToken.isNone)
      "INTERNAL_SERVICE_TOKEN" ++
    nameIf (production && config.otelEnabled &&
      config.otelExporterEndpoint.isNone) "OTEL_EXPORTER_OTLP_ENDPOINT" ++
    nameIf (production && config.allowMainnet && config.isTestnet)
      ("CORE_NETWORK (mainnet allowed but network is a testnet — " ++
        "resolve explicitly)")

def CoreConfig.loadConfig (packages : Packages) (env : Environment) :
    Except StartError CoreConfig :=
  match configSchema packages env with
  | none => .error .invalid
  | some config =>
      if validateRequiredForMode config ≠ [] then
        .error (.missing (validateRequiredForMode config))
      else .ok config

/-! ## The configuration of the blockchain package -/

structure BlockchainConfig where
  executionTimeoutMs : ℤ
  baseSepoliaRpcUrl : Option String
  baseSepoliaUsdcAddress : Option String
  allowMainnet : Bool

def positive (n : ℤ) : Bool := decide (0 < n)

/-- `EnvSchema.safeParse(env)`. -/
def envSchema (packages : Packages) (env : Environment) :
    Option BlockchainConfig := do
  let _ ← enumeration [("SIMULATE", ()), ("TESTNET", ())] ()
    (env "EXECUTION_MODE")
  let executionTimeoutMs ← boundedInt packages positive 60000
    (env "EXECUTION_TIMEOUT_MS")
  let _ ← boundedInt packages positive 31337 (env "ANVIL_CHAIN_ID")
  let _ ← boundedInt packages positive 84532 (env "BASE_SEPOLIA_CHAIN_ID")
  return {
    executionTimeoutMs := executionTimeoutMs
    baseSepoliaRpcUrl := env "BASE_SEPOLIA_RPC_URL"
    baseSepoliaUsdcAddress := env "BASE_SEPOLIA_USDC_ADDRESS"
    allowMainnet := decide (env "ALLOW_MAINNET" = some "true") }

def BlockchainConfig.loadConfig (packages : Packages) (env : Environment) :
    Except Thrown BlockchainConfig :=
  match envSchema packages env with
  | some config => .ok config
  | none =>
      .error (.of .configError "Invalid blockchain configuration." [])

def isHexDigit (c : Char) : Bool :=
  c.isDigit || ('a' ≤ c && c ≤ 'f') || ('A' ≤ c && c ≤ 'F')

/-- `/^0x[0-9a-fA-F]{64}$/`. -/
def isSignerKey (text : String) : Bool :=
  match text.toList with
  | '0' :: 'x' :: digits =>
      decide (digits.length = 64) && digits.all isHexDigit
  | _ => false

def getSignerKey (env : Environment) : Except Thrown (Option String) :=
  match env "EXECUTION_SIGNER_PRIVATE_KEY" with
  | none => .ok none
  | some raw =>
      if raw = "" then .ok none
      else
        let normalized :=
          if "0x".toList.isPrefixOf raw.toList then raw else "0x" ++ raw
        if isSignerKey normalized then .ok (some normalized)
        else
          .error (.of .signerUnavailable
            "Configured signer key is not a valid 32-byte hex key." [])

/-- `createKeySigner`, of which the address is kept. -/
def createKeySigner (packages : Packages) (key : String) :
    Except Thrown String :=
  match packages.accountOf key with
  | some address => .ok address
  | none => .error (.of .signerUnavailable "Invalid signer key." [])

/-- `buildBaseSepoliaExecutionClient`: what its pipeline works with. -/
def buildBaseSepoliaExecutionClient (rt : Runtime) (viem : Viem)
    (packages : Packages) (env : Environment) :
    Except Thrown PipelineDeps := do
  let config ← BlockchainConfig.loadConfig packages env
  if ¬ Orvex.truthy config.baseSepoliaRpcUrl then
    .error (.of .configError
      "BASE_SEPOLIA_RPC_URL is required for the real execution client." [])
  else
    match ← getSignerKey env with
    | none =>
        .error (.of .signerUnavailable
          ("EXECUTION_SIGNER_PRIVATE_KEY is required for the real " ++
            "execution client.") [])
    | some key =>
        let registry : ChainRegistry := ⟨config.baseSepoliaUsdcAddress, none⟩
        let chain ← registry.getByNetwork "base-sepolia"
        let rpc ← RpcProvider.create chain config.allowMainnet true
        let sender ← createKeySigner packages key
        pure
          { rt := rt
            viem := viem
            registry := registry
            rpc := rpc
            sender := sender
            timeoutMs := config.executionTimeoutMs }

/-! ## Start -/

inductive Selection where
  /-- `MockExecutionClient`. -/
  | mock (mode : ExecutionMode)
  | real (deps : PipelineDeps)

def resolveExecutionClient (rt : Runtime) (viem : Viem)
    (packages : Packages) (config : CoreConfig) (env : Environment) :
    Except StartError Selection :=
  if config.allowMainnet ∧ ¬ config.isTestnet then
    .error (.error ("Refusing to build a mainnet execution client " ++
      "(allowMainnet on a non-testnet network)."))
  else if config.executionMode ≠ .testnet then
    .ok (.mock config.executionMode)
  else if ¬ packages.installed then
    .error (.error ("EXECUTION_MODE=TESTNET requires the " ++
      "@sentinelpay/blockchain package to be installed and built."))
  else
    match buildBaseSepoliaExecutionClient rt viem packages env with
    | .ok deps => .ok (.real deps)
    | .error thrown => .error (.thrown thrown)

/-- The client with which the server starts. -/
def start (rt : Runtime) (viem : Viem) (packages : Packages)
    (env : Environment) : Except StartError Selection := do
  let config ← CoreConfig.loadConfig packages env
  resolveExecutionClient rt viem packages config env

/-! ## What a started client pays -/

def sepoliaUsdc : String := "0x036CbD53842c5426634e7929541eC2318f3dCF7e"

/-- What the signer is handed is the authorized payment of USDC, on Base
Sepolia. -/
structure SepoliaPayment (viem : Viem) (env : Environment)
    (request : ExecutionRequest) (ctx : AuthorizedContext)
    (sent : SentTransaction) : Prop where
  chain : sent.chainId = 84532
  requested : request.network = "base-sepolia"
  expected : ctx.expectation.network = "base-sepolia" ∧
    ctx.expectation.chainId = 84532
  value : sent.value = 0
  token : viem.getAddress ((env "BASE_SEPOLIA_USDC_ADDRESS").getD
    sepoliaUsdc) = some sent.toAddress
  payment : ∃ recipient units,
    viem.getAddress ctx.expectation.recipient = some recipient ∧
      toBaseUnits ctx.expectation.amount usdcDecimals = .ok units ∧
      viem.encodeTransfer recipient units = some sent.data

/-- In every run of the calls, in any order of their steps, the signer is
handed such payments only. -/
def PaysOnSepolia (viem : Viem) (env : Environment) (deps : PipelineDeps) :
    Prop :=
  ∀ (shared : Shared) (moves : List (Move Call Reply))
    (pool : Pool Shared Call Point Reply),
    (Pipeline.program deps).run ⟨shared, []⟩ moves = some pool →
    ∀ task ∈ pool.tasks, ∀ request ctx,
      task.call = .execute request ctx → ∀ tx, HandsOver task tx →
        SepoliaPayment viem env request ctx (sentTransaction tx)

section

variable {rt : Runtime} {viem : Viem} {packages : Packages}
  {env : Environment} {deps : PipelineDeps}

/-- Base Sepolia is the network with its chain id. -/
theorem chainId_iff_network {registry : ChainRegistry} {network : String}
    {chain : ChainDefinition}
    (h : registry.getByNetwork network = .ok chain) :
    chain.chainId = 84532 ↔ network = "base-sepolia" := by
  obtain ⟨hnetwork, hchain⟩ :=
    ChainRegistry.get_byNetwork (ChainRegistry.getByNetwork_eq_ok.mp h)
  rw [← hnetwork]
  rcases hchain with rfl | rfl | rfl
  · change (31337 : ℤ) = 84532 ↔ "anvil" = "base-sepolia"
    decide
  · change (84532 : ℤ) = 84532 ↔ "base-sepolia" = "base-sepolia"
    decide
  · decide

theorem usdc_address {override : Option String} {usdc : AssetDefinition}
    {address : String}
    (h : ChainRegistry.usdc ⟨override, none⟩ "base-sepolia" = .ok usdc)
    (haddress : usdc.address = some address) :
    address = override.getD sepoliaUsdc := by
  obtain ⟨chain, hchain, husdc⟩ := ChainRegistry.getByNetwork_of_usdc h
  have hfound : chain = ChainRegistry.baseSepoliaChain ⟨override, none⟩ := by
    have hget : ChainRegistry.getByNetwork ⟨override, none⟩ "base-sepolia" =
        .ok (ChainRegistry.baseSepoliaChain ⟨override, none⟩) :=
      ChainRegistry.getByNetwork_eq_ok.mpr rfl
    rw [hget] at hchain
    exact (Except.ok.inj hchain).symm
  rw [hfound] at husdc
  rw [← Option.some.inj husdc] at haddress
  cases override with
  | none => exact (Option.some.inj haddress).symm
  | some text => exact (Option.some.inj haddress).symm

/-- What the pipeline works with when it can be built. -/
structure Built (viem : Viem) (env : Environment) (deps : PipelineDeps) :
    Prop where
  viem : deps.viem = viem
  registry : deps.registry = ⟨env "BASE_SEPOLIA_USDC_ADDRESS", none⟩
  chain : deps.rpc.chain.chainId = 84532

theorem chain_of_create {chain : ChainDefinition} {allowMainnet : Bool}
    {rpc : RpcProvider}
    (h : RpcProvider.create chain allowMainnet true = .ok rpc) :
    rpc.chain = chain := by
  unfold RpcProvider.create at h
  split at h
  · cases h
  · split at h
    · cases h
    · rw [← Except.ok.inj h]

theorem envSchema_usdc {config : BlockchainConfig}
    (h : envSchema packages env = some config) :
    config.baseSepoliaUsdcAddress = env "BASE_SEPOLIA_USDC_ADDRESS" := by
  unfold envSchema at h
  obtain ⟨_, -, h⟩ := Option.bind_eq_some_iff.mp h
  obtain ⟨timeout, -, h⟩ := Option.bind_eq_some_iff.mp h
  obtain ⟨_, -, h⟩ := Option.bind_eq_some_iff.mp h
  obtain ⟨_, -, h⟩ := Option.bind_eq_some_iff.mp h
  rw [← Option.some.inj h]

theorem built_of_ok
    (h : buildBaseSepoliaExecutionClient rt viem packages env = .ok deps) :
    Built viem env deps := by
  unfold buildBaseSepoliaExecutionClient at h
  obtain ⟨config, hconfig, h⟩ := Fallible.result_bind_eq_ok.mp h
  have husdc : config.baseSepoliaUsdcAddress =
      env "BASE_SEPOLIA_USDC_ADDRESS" := by
    unfold BlockchainConfig.loadConfig at hconfig
    split at hconfig
    · rename_i found hfound
      rw [← Except.ok.inj hconfig]
      exact envSchema_usdc hfound
    · cases hconfig
  split at h
  · cases h
  obtain ⟨key?, -, h⟩ := Fallible.result_bind_eq_ok.mp h
  split at h
  · cases h
  obtain ⟨chain, hchain, h⟩ := Fallible.result_bind_eq_ok.mp h
  obtain ⟨rpc, hrpc, h⟩ := Fallible.result_bind_eq_ok.mp h
  obtain ⟨sender, -, h⟩ := Fallible.result_bind_eq_ok.mp h
  rw [← Except.ok.inj h]
  refine ⟨rfl, by rw [husdc], ?_⟩
  change rpc.chain.chainId = 84532
  rw [chain_of_create hrpc]
  exact (chainId_iff_network hchain).mpr rfl

theorem paysOnSepolia (hviem : viem.Lawful) (h : Built viem env deps) :
    PaysOnSepolia viem env deps := by
  intro shared moves pool hrun task htask request ctx hcall tx hsent
  rw [← h.viem] at hviem
  have hlocal := (guarded hviem).run
    ⟨trivial, fun task hmem => absurd hmem List.not_mem_nil⟩ hrun
  have hguarded := hlocal.2 task htask
  rw [hcall] at hguarded
  obtain ⟨hpoint, hpast⟩ := hguarded
  have hcleared : Cleared deps request ctx task.past tx := by
    rcases hsent with hnow | ⟨reply, hmem⟩
    · rw [hnow] at hpoint
      exact hpoint
    · exact hpast tx reply hmem
  have hauthorized := authorized_of_cleared hviem hcleared
  have hchain : (sentTransaction tx).chainId = 84532 := by
    rw [hauthorized.configured, h.chain]
  obtain ⟨recipient, units, hrecipient, hunits, htransfer⟩ :=
    hcleared.prepared.transfer
  have hexpected : ctx.expectation.network = "base-sepolia" := by
    obtain ⟨chain, hfound, hid⟩ := htransfer.chain
    apply (chainId_iff_network hfound).mp
    have hsame : tx.chain.id = chain.chainId := by rw [hid]
    rw [← hsame]
    exact hchain
  constructor
  · exact hchain
  · obtain ⟨chain, hfound, hid⟩ := hauthorized.requested
    apply (chainId_iff_network hfound).mp
    rw [← hid, hchain]
  · exact ⟨hexpected, hauthorized.expected.symm.trans hchain⟩
  · exact hauthorized.value
  · obtain ⟨usdc, address, husdc, haddress, hspelled⟩ := htransfer.token
    rw [hexpected, h.registry] at husdc
    rw [← usdc_address husdc haddress, ← h.viem]
    exact hspelled
  · rw [← h.viem]
    exact ⟨recipient, units, hrecipient, hunits, htransfer.data⟩

theorem configSchema_mode {config : CoreConfig}
    (h : configSchema packages env = some config) :
    enumeration executionModes .simulate (env "EXECUTION_MODE") =
      some config.executionMode := by
  unfold configSchema at h
  obtain ⟨environment, -, h⟩ := Option.bind_eq_some_iff.mp h
  obtain ⟨_, -, h⟩ := Option.bind_eq_some_iff.mp h
  obtain ⟨_, -, h⟩ := Option.bind_eq_some_iff.mp h
  obtain ⟨databaseUrl, -, h⟩ := Option.bind_eq_some_iff.mp h
  obtain ⟨redisUrl, -, h⟩ := Option.bind_eq_some_iff.mp h
  obtain ⟨_, -, h⟩ := Option.bind_eq_some_iff.mp h
  obtain ⟨_, -, h⟩ := Option.bind_eq_some_iff.mp h
  obtain ⟨token, -, h⟩ := Option.bind_eq_some_iff.mp h
  obtain ⟨mode, hmode, h⟩ := Option.bind_eq_some_iff.mp h
  obtain ⟨endpoint, -, h⟩ := Option.bind_eq_some_iff.mp h
  rw [hmode, ← Option.some.inj h]

theorem testnet_iff {value : Option String} {mode : ExecutionMode}
    (h : enumeration executionModes .simulate value = some mode) :
    mode = .testnet ↔ value = some "TESTNET" := by
  cases value with
  | none =>
      rw [← Option.some.inj h]
      simp
  | some text =>
      have hmem : (text, mode) ∈ executionModes := mem_of_lookup h
      simp only [executionModes, List.mem_cons, Prod.mk.injEq,
        List.not_mem_nil, or_false] at hmem
      rcases hmem with ⟨rfl, rfl⟩ | ⟨rfl, rfl⟩ | ⟨rfl, rfl⟩ | ⟨rfl, rfl⟩
      · simp
      · simp
      · simp
      · simp

/-- Whatever the environment says, the client that Core starts with is the
mock, or pays on Base Sepolia only and was selected by the mode TESTNET. -/
theorem start_pays_on_sepolia (hviem : viem.Lawful) {selection : Selection}
    (h : start rt viem packages env = .ok selection) :
    (∃ mode, selection = .mock mode ∧
      env "EXECUTION_MODE" ≠ some "TESTNET") ∨
    ∃ deps, selection = .real deps ∧
      env "EXECUTION_MODE" = some "TESTNET" ∧
      PaysOnSepolia viem env deps := by
  unfold start at h
  obtain ⟨config, hconfig, h⟩ := Fallible.result_bind_eq_ok.mp h
  have hmode : config.executionMode = .testnet ↔
      env "EXECUTION_MODE" = some "TESTNET" := by
    unfold CoreConfig.loadConfig at hconfig
    split at hconfig
    · cases hconfig
    · rename_i found hfound
      split at hconfig
      · cases hconfig
      · rw [← Except.ok.inj hconfig]
        exact testnet_iff (configSchema_mode hfound)
  unfold resolveExecutionClient at h
  split at h
  · cases h
  split at h
  · rename_i hother
    left
    refine ⟨config.executionMode, (Except.ok.inj h).symm, ?_⟩
    rw [ne_eq, ← hmode]
    exact hother
  · rename_i htestnet
    rw [ne_eq, not_not] at htestnet
    split at h
    · cases h
    split at h
    · rename_i deps hdeps
      right
      exact ⟨deps, (Except.ok.inj h).symm, hmode.mp htestnet,
        paysOnSepolia hviem (built_of_ok hdeps)⟩
    · cases h

end

/-! ## A testnet environment -/

def testnetEnvironment : Environment := fun name =>
  [("EXECUTION_MODE", "TESTNET"), ("ALLOW_MAINNET", "false"),
    ("BASE_SEPOLIA_RPC_URL", "http://127.0.0.1:8545"),
    ("EXECUTION_SIGNER_PRIVATE_KEY",
      "5b1e0a7c93d2f64885aa10e2c4b7369f5b1e0a7c93d2f64885aa10e2c4b7369f")
    ].lookup name

def testnetPackages : Packages where
  coerceInt := fun _ => none
  isUrl := fun _ => false
  accountOf := fun _ => some paymentSender
  installed := true

theorem testnet_start :
    start .reference sepoliaDeps.viem testnetPackages testnetEnvironment =
      .ok (.real sepoliaDeps) := by
  rfl

theorem testnet_pays_on_sepolia :
    ∃ moves pool task tx,
      (Pipeline.program sepoliaDeps).run ⟨⟨.empty, none⟩, []⟩ moves =
        some pool ∧
      task ∈ pool.tasks ∧
      task.call = .execute firstRequest payeeContext ∧ HandsOver task tx ∧
      SepoliaPayment sepoliaDeps.viem testnetEnvironment firstRequest
        payeeContext (sentTransaction tx) := by
  obtain ⟨tx, sim, hacceptable⟩ := payee_acceptable
  obtain ⟨next, past, hrun, -, -⟩ :=
    @reaches_signer sepoliaDeps firstRequest payeeContext 0 tx sim
      ⟨.empty, none⟩ hacceptable rfl []
  have hmem : (⟨.execute firstRequest payeeContext, .sending tx, past⟩ :
      Task Call Point Reply) ∈ [⟨.execute firstRequest payeeContext,
        .sending tx, past⟩] := List.mem_singleton_self _
  rcases start_pays_on_sepolia sepoliaDeps_lawful testnet_start with
    ⟨mode, hmock, -⟩ | ⟨deps, hreal, -, hpays⟩
  · cases hmock
  · cases hreal
    exact ⟨_, _, _, tx, hrun, hmem, rfl, .inl rfl,
      hpays _ _ _ hrun _ hmem _ _ rfl tx (.inl rfl)⟩

end Deployment
end Orvex
