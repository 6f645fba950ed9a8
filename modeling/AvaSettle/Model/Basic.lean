import Mathlib.Algebra.Group.Int.Defs
import Mathlib.Algebra.Group.Nat.Defs
import Mathlib.Data.Int.Order.Basic

/-!
# Shared types

The types every service shares: hexadecimal strings, JSON payloads, the request context, the
configuration of a deployment and the library functions of `viem` that the services call. The
library functions are parameters: nothing is assumed of them here.

Timestamps are milliseconds since the epoch, which is what the ISO strings of the records denote.
Atomic amounts are natural numbers, which is what their decimal strings denote.
-/

namespace AvaSettle

/-- A `0x${string}`: an address, a hash or bytes. -/
abbrev Hex := String

/-- A row id, in canonical form. -/
abbrev Uuid := String

/-- Milliseconds since the epoch. -/
abbrev Timestamp := Nat

/-- A JSON value, as stored in a `jsonb` column. -/
inductive Json : Type where
  | null
  | bool (b : Bool)
  | num (n : Int)
  | str (s : String)
  | arr (items : List Json)
  | obj (fields : List (String × Json))

instance : Inhabited Json := ⟨.null⟩

namespace Json

/-- The string, or `null`. -/
def ofOption : Option String → Json
  | some s => .str s
  | none => .null

/-- The timestamp, or `null`. -/
def ofTime : Option Timestamp → Json
  | some t => .num t
  | none => .null

end Json

/-- `SettlementNetwork`. -/
inductive SettlementNetwork : Type where
  | avalancheFuji
  | avalancheMainnet
  deriving DecidableEq, Repr

/-- The name of a network. -/
def SettlementNetwork.text : SettlementNetwork → String
  | .avalancheFuji => "avalanche-fuji"
  | .avalancheMainnet => "avalanche-mainnet"

/-- `SettlementAsset`. -/
inductive SettlementAsset : Type where
  | usdc
  | usdt
  deriving DecidableEq, Repr

/-- The symbol of an asset. -/
def SettlementAsset.symbol : SettlementAsset → String
  | .usdc => "USDC"
  | .usdt => "USDT"

/-- `networkSummary.chainId`. -/
def SettlementNetwork.chainId : SettlementNetwork → Nat
  | .avalancheFuji => 43113
  | .avalancheMainnet => 43114

/-- `AssetRuntimeConfig`. -/
structure AssetRuntimeConfig where
  /-- The token contract, when one is configured. -/
  address : Option Hex
  /-- The decimals of the token. -/
  decimals : Nat
  /-- The cap on a single payout. -/
  maxPayoutAmount : Option String

/-- The getters of `ConfigurationService` that the services read. -/
structure Configuration where
  settlementNetwork : SettlementNetwork
  getAssetConfig : SettlementAsset → AssetRuntimeConfig
  minConfirmations : Nat
  waitForReceipt : Bool
  payInMnemonic : Option String
  payInDerivationAccount : Nat
  payInLookbackBlocks : Nat
  payInDefaultExpirationMinutes : Option Nat
  paymentRouterAddress : Option Hex
  settlementVaultAddress : Option Hex
  privateSettlementRegistryAddress : Option Hex
  treasuryPrivateKey : Option Hex
  vaultOperatorPrivateKey : Option Hex
  settlementRegistrarPrivateKey : Option Hex
  settlementAuditorPrivateKey : Option Hex
  autoSweep : Bool

/-- `settlementVaultConfigured`. -/
def Configuration.settlementVaultConfigured (c : Configuration) : Bool :=
  c.settlementVaultAddress.isSome

/-- `privateSettlementRegistryConfigured`. -/
def Configuration.privateSettlementRegistryConfigured (c : Configuration) : Bool :=
  c.privateSettlementRegistryAddress.isSome

/-- A typed argument of `encodeAbiParameters`. -/
inductive AbiValue : Type where
  | bytes32 (h : Hex)
  | address (h : Hex)
  | uint256 (n : Nat)
  deriving DecidableEq, Repr

/-- The functions of `viem` that the services call. Where the library throws, the error carries its
    message. -/
structure Viem where
  parseUnits : String → Nat → Except String Int
  formatUnits : Nat → Nat → String
  isAddress : Hex → Bool
  getAddress : Hex → Except String Hex
  keccak256 : Hex → Hex
  stringToBytes : String → Hex
  encodeAbiParameters : List AbiValue → Except String Hex
  privateKeyToAddress : Hex → Hex
  mnemonicToAddress : String → Nat → Nat → Except String Hex

/-- A running instance: its configuration and the libraries it links. -/
structure Deployment extends Configuration, Viem

/-- `RequestContext`. -/
structure RequestContext where
  clientId : Option String
  clientName : Option String
  correlationId : Option String
  idempotencyKey : Option String
  actor : Option String
  sourceIp : Option String
  deriving DecidableEq, Repr

/-- A string in a condition: the empty string counts as missing. -/
def truthy (s : Option String) : Option String :=
  s.filter (· ≠ "")

/-! ## A local deployment -/

/-- The keccak hash of the reference of the external id `inv-1`. -/
def sampleRef : Hex := "0x333f522a6bf5a56d4587088a64f5e0dc7a63a78e50ff3611cb307cb728bf9619"

/-- The Fuji USDC contract. -/
def sampleToken : Hex := "0x5425890298aed601595a70ab815c96711a31bc65"

/-- The address of the payment router, and of who is paid. -/
def sampleAddress : Hex := "0x2B5AD5c4795c026514f8317c7a215E218DcCD6cF"

/-- The random bytes of the concrete runs. -/
def sampleNonce : Hex := "0x0101010101010101010101010101010101010101010101010101010101010101"

/-- The hash of the external id `inv-2`. -/
def secondRef : Hex := "0xca0665a2bc94cecf54a45f1b22557ea1bd3b0c2b4b2494b4d00226ff4e73fa29"

/-- The encoding of an invoice of one USDC with the reference of `inv-1`. -/
def sampleInvoice : Hex :=
  "0x333f522a6bf5a56d4587088a64f5e0dc7a63a78e50ff3611cb307cb728bf9619" ++
    "0000000000000000000000005425890298aed601595a70ab815c96711a31bc65" ++
    "00000000000000000000000000000000000000000000000000000000000f4240"

/-- The encoding of the preimage of a commitment to one USDC. -/
def samplePreimage : Hex :=
  "0x00000000000000000000000000000000000000000000000000000000000f4240" ++
    "0000000000000000000000005425890298aed601595a70ab815c96711a31bc65" ++
    "0000000000000000000000002b5ad5c4795c026514f8317c7a215e218dccd6cf" ++
    "0101010101010101010101010101010101010101010101010101010101010101"

/-- The library on the arguments of the concrete runs. -/
def Viem.sample : Viem where
  parseUnits amount decimals := if amount = "1" then .ok (10 ^ decimals) else .error "Invalid number."
  formatUnits amount decimals := if amount = 10 ^ decimals then "1" else "0"
  isAddress _ := true
  getAddress := .ok
  keccak256 bytes :=
    if bytes = "0x696e762d31" then sampleRef
    else if bytes = sampleInvoice then
      "0xb7c9d3961fa9b9dcc432b5a31af4bd548288b72fe05982ea59f0fcd17cf7a36d"
    else if bytes = sampleRef then
      "0xf00aca4d88fe6f971f62b2d78362425c3cbe08c485bc019d42f3decb4815e856"
    else "0x2ea1d518582380360d4feb177e8a29ddf9f476aaff2c7a9bc4ed6080a446ee84"
  stringToBytes _ := "0x696e762d31"
  encodeAbiParameters
    | [.bytes32 word] => .ok word
    | [.bytes32 _, .address _, .uint256 _] => .ok sampleInvoice
    | _ => .ok samplePreimage
  privateKeyToAddress _ := "0x7E5F4552091A69125d5DfCb7b8C2659029395Bdf"
  mnemonicToAddress _ _ _ := .ok "0xf39Fd6e51aad88F6F4ce6aB8827279cffFb92266"

/-- A deployment on Fuji that pays USDC by direct transfer. -/
def Deployment.sample : Deployment where
  toViem := .sample
  settlementNetwork := .avalancheFuji
  getAssetConfig _ := ⟨some sampleToken, 6, none⟩
  minConfirmations := 1
  waitForReceipt := true
  payInMnemonic := some "test test test test test test test test test test test junk"
  payInDerivationAccount := 0
  payInLookbackBlocks := 2000
  payInDefaultExpirationMinutes := none
  paymentRouterAddress := some sampleAddress
  settlementVaultAddress := none
  privateSettlementRegistryAddress := none
  treasuryPrivateKey := some "0x0000000000000000000000000000000000000000000000000000000000000001"
  vaultOperatorPrivateKey := none
  settlementRegistrarPrivateKey := none
  settlementAuditorPrivateKey := none
  autoSweep := false

/-- A deployment that does not wait for receipts. -/
def asyncDeployment : Deployment :=
  { Deployment.sample with waitForReceipt := false }

end AvaSettle
