import Orvex.Foundation.Entries
import Orvex.Foundation.Action
import Orvex.Execution.Contracts

/-!
# Addresses and chains

viem is not part of the repository: `Viem` collects the functions that the
executor calls on addresses, calldata and event logs, and `Viem.Lawful` says
what is relied on.  The chain registry holds the three networks that the
executor knows.
-/

namespace Orvex
namespace Execution

/-! ## viem -/

/-- A call of the token contract, as its bytes decode. -/
inductive TokenCall where
  | transfer (receiver : String) (amount : ℕ)
  | approve (spender : String) (amount : ℕ)
  | transferFrom (owner receiver : String) (amount : ℕ)
  /-- `balanceOf` and `decimals`. -/
  | view (functionName : String)
  deriving DecidableEq

structure Log where
  address : String
  topics : List String
  data : String
  deriving DecidableEq

/-- The arguments of a `Transfer` event. -/
structure TransferEvent where
  sender : String
  receiver : String
  value : ℕ
  deriving DecidableEq

structure Viem where
  /-- A lower-case address, or one with the right checksum. -/
  isAddress : String → Bool
  /-- The address with its checksum; `none` is the exception. -/
  getAddress : String → Option String
  /-- `encodeFunctionData` of a transfer; `none` is the exception. -/
  encodeTransfer : String → ℕ → Option String
  /-- `decodeFunctionData`; `none` is the exception. -/
  decodeFunctionData : String → Option TokenCall
  /-- `slice(data, 0, 4)`. -/
  selector : String → String
  /-- `decodeEventLog` of a `Transfer`; `none` is the exception, or another
  event. -/
  decodeTransferLog : List String → String → Option TransferEvent

/-- The address check accepts addresses, the checksum spelling is one of
them and is the spelling of itself, and a transfer decodes to what it was
encoded from. -/
structure Viem.Lawful (viem : Viem) : Prop where
  getAddress_of_isAddress : ∀ text, viem.isAddress text = true →
    ∃ address, viem.getAddress text = some address
  isAddress_of_getAddress : ∀ text address,
    viem.getAddress text = some address → viem.isAddress address = true
  getAddress_self : ∀ text address, viem.getAddress text = some address →
    viem.getAddress address = some address
  getAddress_empty : viem.getAddress "" = none
  decode_encode : ∀ address amount data,
    viem.getAddress address = some address →
    viem.encodeTransfer address amount = some data →
    viem.decodeFunctionData data = some (.transfer address amount)
  encode_length : ∀ address amount data,
    viem.encodeTransfer address amount = some data → 10 ≤ data.length

/-- `getAddress`, which throws. -/
def Viem.requireSpelling (viem : Viem) (text : String) :
    Except Thrown String :=
  match viem.getAddress text with
  | some address => .ok address
  | none => .error .foreign

theorem Viem.Lawful.ne_empty {viem : Viem} (hviem : viem.Lawful)
    {text address : String} (h : viem.getAddress text = some address) :
    text ≠ "" := by
  rintro rfl
  rw [hviem.getAddress_empty] at h
  simp at h

theorem Viem.requireSpelling_eq_ok {viem : Viem} {text address : String} :
    viem.requireSpelling text = .ok address ↔
      viem.getAddress text = some address := by
  unfold Viem.requireSpelling
  split
  next found h => simp [h]
  next h => simp [h]

/-- The functions on finitely many spellings and calls: each spelling with
its checksum form, and each transfer with its calldata. -/
def Viem.ofTables (spellings : List (String × String))
    (transfers : List ((String × ℕ) × String))
    (logs : List ((List String × String) × TransferEvent)) : Viem where
  isAddress := fun text => (spellings.lookup text).isSome
  getAddress := fun text => spellings.lookup text
  encodeTransfer := fun address amount => transfers.lookup (address, amount)
  decodeFunctionData := fun data =>
    (transfers.find? (fun entry => entry.2 = data)).map (fun entry =>
      .transfer entry.1.1 entry.1.2)
  selector := fun data => String.ofList (data.toList.take 10)
  decodeTransferLog := fun topics data => logs.lookup (topics, data)

theorem mem_of_lookup {κ ν : Type} [BEq κ] [LawfulBEq κ]
    {entries : List (κ × ν)} {key : κ} {value : ν} (h : entries.lookup key = some value) :
    (key, value) ∈ entries := by
  induction entries with
  | nil => simp at h
  | cons entry rest ih =>
      rw [List.lookup_cons] at h
      split at h
      next hkey =>
        rw [Option.some.injEq] at h
        rw [eq_of_beq hkey, ← h]
        exact List.mem_cons_self
      next => exact List.mem_cons_of_mem _ (ih h)

theorem Viem.lawful_ofTables {spellings : List (String × String)}
    {transfers : List ((String × ℕ) × String)}
    {logs : List ((List String × String) × TransferEvent)}
    (hself : ∀ entry ∈ spellings, spellings.lookup entry.2 = some entry.2)
    (hempty : spellings.lookup "" = none)
    (hdata : ∀ entry ∈ transfers,
      transfers.find? (fun other => other.2 = entry.2) = some entry)
    (hlength : ∀ entry ∈ transfers, 10 ≤ entry.2.length) :
    (Viem.ofTables spellings transfers logs).Lawful := by
  constructor
  · intro text htext
    exact Option.isSome_iff_exists.mp htext
  · intro text address h
    have hfound := hself _ (mem_of_lookup h)
    exact Option.isSome_iff_exists.mpr ⟨_, hfound⟩
  · intro text address h
    exact hself _ (mem_of_lookup h)
  · exact hempty
  · intro address amount data _ hencode
    have hin : ((address, amount), data) ∈ transfers := mem_of_lookup hencode
    have hfound := hdata _ hin
    change (transfers.find? (fun other => other.2 = data)).map _ = _
    rw [hfound, Option.map_some]
  · intro address amount data hencode
    have hin : ((address, amount), data) ∈ transfers := mem_of_lookup hencode
    exact hlength _ hin

/-! ## Chains -/

structure AssetDefinition where
  symbol : String
  address : Option String
  decimals : ℕ
  deriving DecidableEq

structure ChainDefinition where
  network : String
  chainId : ℤ
  isMainnet : Bool
  /-- `assets.USDC`. -/
  usdc : Option AssetDefinition
  deriving DecidableEq

def usdcDecimals : ℕ := 6

def anvil : ChainDefinition :=
  { network := "anvil"
    chainId := 31337
    isMainnet := false
    usdc := some
      { symbol := "USDC", address := none, decimals := usdcDecimals } }

def baseSepolia : ChainDefinition :=
  { network := "base-sepolia"
    chainId := 84532
    isMainnet := false
    usdc := some
      { symbol := "USDC"
        address := some "0x036CbD53842c5426634e7929541eC2318f3dCF7e"
        decimals := usdcDecimals } }

/-- Known, so that the mainnet guard can reject it. -/
def baseMainnet : ChainDefinition :=
  { network := "base"
    chainId := 8453
    isMainnet := true
    usdc := some
      { symbol := "USDC"
        address := some "0x833589fCD6eDb6E08f4c7C32D4f71b54bdA02913"
        decimals := usdcDecimals } }

def ChainDefinition.withUsdcAddress (chain : ChainDefinition)
    (address : Option String) : ChainDefinition :=
  { chain with
    usdc := chain.usdc.map (fun asset => { asset with address := address }) }

/-- The registry is what its constructor makes of its options. -/
structure ChainRegistry where
  baseSepoliaUsdcAddress : Option String
  anvilUsdcAddress : Option String
  deriving DecidableEq

namespace ChainRegistry

def anvilChain (registry : ChainRegistry) : ChainDefinition :=
  anvil.withUsdcAddress registry.anvilUsdcAddress

def baseSepoliaChain (registry : ChainRegistry) : ChainDefinition :=
  baseSepolia.withUsdcAddress (registry.baseSepoliaUsdcAddress <|>
    baseSepolia.usdc.bind AssetDefinition.address)

def byNetwork (registry : ChainRegistry) : Entries String ChainDefinition :=
  Entries.setAll ChainDefinition.network id
    [registry.anvilChain, registry.baseSepoliaChain, baseMainnet] .empty

def getByNetwork (registry : ChainRegistry) (network : String) :
    Except Thrown ChainDefinition :=
  match registry.byNetwork.get network with
  | some chain => .ok chain
  | none =>
      .error (.of .configError "Unknown network."
        [("network", .string network),
          ("known", .array [.string "anvil", .string "base-sepolia",
            .string "base"])])

def usdc (registry : ChainRegistry) (network : String) :
    Except Thrown AssetDefinition := do
  let chain ← registry.getByNetwork network
  match chain.usdc with
  | some asset => pure asset
  | none =>
      .error (.of .unsupported "Network does not define USDC."
        [("network", .string network)])

/-- `safeUsdc`: no asset where the registry throws. -/
def safeUsdc (registry : ChainRegistry) (network : String) :
    Option AssetDefinition :=
  (registry.usdc network).toOption

theorem get_byNetwork {registry : ChainRegistry} {network : String}
    {chain : ChainDefinition}
    (h : registry.byNetwork.get network = some chain) :
    chain.network = network ∧
      (chain = registry.anvilChain ∨ chain = registry.baseSepoliaChain ∨
        chain = baseMainnet) := by
  simp only [byNetwork, Entries.setAll_cons, Entries.setAll_nil,
    Entries.get_set, Entries.get_empty, id_eq] at h
  split at h
  next hname =>
    rw [Option.some.injEq] at h
    exact ⟨by rw [← h, hname], Or.inr (Or.inr h.symm)⟩
  next =>
    split at h
    next hname =>
      rw [Option.some.injEq] at h
      exact ⟨by rw [← h, hname], Or.inr (Or.inl h.symm)⟩
    next =>
      split at h
      next hname =>
        rw [Option.some.injEq] at h
        exact ⟨by rw [← h, hname], Or.inl h.symm⟩
      next => simp at h

theorem getByNetwork_eq_ok {registry : ChainRegistry} {network : String}
    {chain : ChainDefinition} :
    registry.getByNetwork network = .ok chain ↔
      registry.byNetwork.get network = some chain := by
  unfold getByNetwork
  split
  next found h => simp [h]
  next h => simp [h]

/-- A chain is registered under its own network name. -/
theorem network_of_getByNetwork {registry : ChainRegistry}
    {network : String} {chain : ChainDefinition}
    (h : registry.getByNetwork network = .ok chain) :
    chain.network = network :=
  (get_byNetwork (getByNetwork_eq_ok.mp h)).1

/-- Every registered chain has USDC, with its six decimals. -/
theorem usdc_of_getByNetwork {registry : ChainRegistry} {network : String}
    {chain : ChainDefinition}
    (h : registry.getByNetwork network = .ok chain) :
    ∃ asset, registry.usdc network = .ok asset ∧ chain.usdc = some asset ∧
      asset.symbol = "USDC" ∧ asset.decimals = usdcDecimals := by
  obtain ⟨-, hchain⟩ := get_byNetwork (getByNetwork_eq_ok.mp h)
  have hasset : ∃ asset, chain.usdc = some asset ∧
      asset.symbol = "USDC" ∧ asset.decimals = usdcDecimals := by
    rcases hchain with rfl | rfl | rfl
    · exact ⟨_, rfl, rfl, rfl⟩
    · exact ⟨_, rfl, rfl, rfl⟩
    · exact ⟨_, rfl, rfl, rfl⟩
  obtain ⟨asset, hasset, hsymbol, hdecimals⟩ := hasset
  refine ⟨asset, ?_, hasset, hsymbol, hdecimals⟩
  simp only [usdc, h, Fallible.result_ok_bind, hasset, Fallible.result_pure]

/-- A network with USDC is registered. -/
theorem getByNetwork_of_usdc {registry : ChainRegistry} {network : String}
    {asset : AssetDefinition} (h : registry.usdc network = .ok asset) :
    ∃ chain, registry.getByNetwork network = .ok chain ∧
      chain.usdc = some asset := by
  obtain ⟨chain, hchain, hrest⟩ := Fallible.result_bind_eq_ok.mp h
  refine ⟨chain, hchain, ?_⟩
  split at hrest
  next found hfound =>
    rw [Fallible.result_pure, Except.ok.injEq] at hrest
    rw [hfound, hrest]
  next => simp at hrest

theorem decimals_of_usdc {registry : ChainRegistry} {network : String}
    {asset : AssetDefinition} (h : registry.usdc network = .ok asset) :
    asset.symbol = "USDC" ∧ asset.decimals = usdcDecimals := by
  obtain ⟨chain, hchain, hasset⟩ := getByNetwork_of_usdc h
  obtain ⟨found, -, hfound, hsymbol, hdecimals⟩ := usdc_of_getByNetwork hchain
  rw [hasset, Option.some.injEq] at hfound
  rw [hfound]
  exact ⟨hsymbol, hdecimals⟩

end ChainRegistry
end Execution
end Orvex
