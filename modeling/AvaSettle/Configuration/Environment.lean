import AvaSettle.Data.Lists
import AvaSettle.Model.Basic
import Mathlib.Data.List.Nodup
import Mathlib.Logic.Function.Basic

/-!
# Configuration

The settings of a config file are written to environment variables that are not set, as texts, and the getters
of the configuration service read the variables back, each with its own default.
-/

namespace AvaSettle.Environment

/-! ## Texts -/

/-- The functions on texts that the getters call. -/
structure Texts where
  toLowerCase : String → String
  toUpperCase : String → String
  /-- `Number(s)` where it is an integer. -/
  integer : String → Option Int

/-- White space and line terminators, by their code points. -/
def isSpace (c : Char) : Bool :=
  let n := c.toNat
  9 ≤ n && n ≤ 13 || n = 0x20 || n = 0xa0 || n = 0x1680 || 0x2000 ≤ n && n ≤ 0x200a || n = 0x2028 ||
    n = 0x2029 || n = 0x202f || n = 0x205f || n = 0x3000 || n = 0xfeff

/-- `trim`. -/
def trim (s : String) : String :=
  String.ofList ((s.toList.dropWhile isSpace).reverse.dropWhile isSpace).reverse

/-- `split(',')`. -/
def splitCommas (s : String) : List String := (s.toList.splitOn ',').map String.ofList

/-- `join(',')`. -/
def joinCommas (l : List String) : String := ",".intercalate l

/-! ## The file -/

/-- Origins, as one text or as a list. -/
inductive Origins : Type where
  | text (s : String)
  | list (l : List String)
  deriving DecidableEq, Repr

/-- `boolean | number | string`. -/
inductive TrustProxy : Type where
  | flag (b : Bool)
  | hops (n : Int)
  | text (s : String)
  deriving DecidableEq, Repr

/-- `AssetConfig`, where `none` is `undefined` or `null`. -/
structure AssetConfig where
  address : Option String := none
  decimals : Option Nat := none
  maxPayoutAmount : Option String := none
  deriving DecidableEq, Repr

/-- `database`. -/
structure DatabaseConfig where
  ssl : Option Bool := none
  sslRejectUnauthorized : Option Bool := none
  maxConnections : Option Nat := none
  autoMigrate : Option Bool := none
  deriving DecidableEq, Repr

/-- `payin`. -/
structure PayInConfig where
  lookbackBlocks : Option Nat := none
  derivationAccount : Option Nat := none
  defaultExpirationMinutes : Option Nat := none
  paymentRouterAddress : Option String := none
  deriving DecidableEq, Repr

/-- `assets`. -/
structure AssetsConfig where
  enabled : Option (List String) := none
  USDC : Option AssetConfig := none
  USDT : Option AssetConfig := none
  deriving DecidableEq, Repr

/-- `blockchain`. -/
structure BlockchainConfig where
  minConfirmations : Option Nat := none
  waitForReceipt : Option Bool := none
  deriving DecidableEq, Repr

/-- `webhook`. -/
structure WebhookConfig where
  retryAttempts : Option Nat := none
  dispatchIntervalSeconds : Option Nat := none
  deriving DecidableEq, Repr

/-- `ConfigFile`, where `none` is `undefined` or `null`. -/
structure ConfigFile where
  network : Option SettlementNetwork := none
  port : Option Nat := none
  rpcUrl : Option String := none
  explorerBaseUrl : Option String := none
  corsOrigins : Option Origins := none
  database : Option DatabaseConfig := none
  payin : Option PayInConfig := none
  assets : Option AssetsConfig := none
  blockchain : Option BlockchainConfig := none
  webhook : Option WebhookConfig := none
  autoReconcileIntervalSeconds : Option Nat := none
  autoSweep : Option Bool := none
  throttleRps : Option Nat := none
  trustProxy : Option TrustProxy := none
  deriving DecidableEq, Repr

/-- What `set` writes of a text: nothing for the empty one. -/
def setText (val : Option String) : Option String := val.filter (· ≠ "")

/-- What `set` writes of a number. -/
def setNumber (val : Option Nat) : Option String := val.map Nat.repr

/-- What `set` writes of a flag. -/
def setFlag (val : Option Bool) : Option String := val.map fun b => if b then "true" else "false"

/-- What is written of origins, also when it is empty. -/
def Origins.setting : Origins → String
  | .text s => s
  | .list l => joinCommas l

/-- What `set` writes of `trustProxy`. -/
def TrustProxy.setting : TrustProxy → Option String
  | .flag b => setFlag (some b)
  | .hops n => some n.repr
  | .text s => setText (some s)

/-- The variables that `mapToEnvVars` writes in order, each with its text, if there is one. -/
def ConfigFile.settings (cfg : ConfigFile) : List (String × Option String) :=
  [("AVASETTLE_NETWORK", setText (cfg.network.map SettlementNetwork.text)),
    ("PORT", setNumber cfg.port),
    ("AVASETTLE_RPC_URL", setText cfg.rpcUrl),
    ("AVASETTLE_EXPLORER_BASE_URL", setText cfg.explorerBaseUrl),
    ("AVASETTLE_CORS_ORIGINS", cfg.corsOrigins.map Origins.setting),
    ("AVASETTLE_DATABASE_SSL", setFlag (cfg.database.bind (·.ssl))),
    ("AVASETTLE_DATABASE_SSL_REJECT_UNAUTHORIZED", setFlag (cfg.database.bind (·.sslRejectUnauthorized))),
    ("AVASETTLE_DATABASE_MAX_CONNECTIONS", setNumber (cfg.database.bind (·.maxConnections))),
    ("AVASETTLE_DATABASE_AUTO_MIGRATE", setFlag (cfg.database.bind (·.autoMigrate))),
    ("AVASETTLE_PAYIN_LOOKBACK_BLOCKS", setNumber (cfg.payin.bind (·.lookbackBlocks))),
    ("AVASETTLE_PAYIN_DERIVATION_ACCOUNT", setNumber (cfg.payin.bind (·.derivationAccount))),
    ("AVASETTLE_PAYIN_DEFAULT_EXPIRATION_MINUTES",
      setNumber (cfg.payin.bind (·.defaultExpirationMinutes))),
    ("AVASETTLE_PAYMENT_ROUTER_ADDRESS", setText (cfg.payin.bind (·.paymentRouterAddress))),
    ("AVASETTLE_ENABLED_ASSETS", (cfg.assets.bind (·.enabled)).map joinCommas),
    ("AVASETTLE_USDC_ADDRESS", setText ((cfg.assets.bind (·.USDC)).bind (·.address))),
    ("AVASETTLE_USDC_DECIMALS", setNumber ((cfg.assets.bind (·.USDC)).bind (·.decimals))),
    ("AVASETTLE_MAX_PAYOUT_USDC", setText ((cfg.assets.bind (·.USDC)).bind (·.maxPayoutAmount))),
    ("AVASETTLE_USDT_ADDRESS", setText ((cfg.assets.bind (·.USDT)).bind (·.address))),
    ("AVASETTLE_USDT_DECIMALS", setNumber ((cfg.assets.bind (·.USDT)).bind (·.decimals))),
    ("AVASETTLE_MAX_PAYOUT_USDT", setText ((cfg.assets.bind (·.USDT)).bind (·.maxPayoutAmount))),
    ("AVASETTLE_MIN_CONFIRMATIONS", setNumber (cfg.blockchain.bind (·.minConfirmations))),
    ("AVASETTLE_WAIT_FOR_RECEIPT", setFlag (cfg.blockchain.bind (·.waitForReceipt))),
    ("AVASETTLE_WEBHOOK_RETRY_ATTEMPTS", setNumber (cfg.webhook.bind (·.retryAttempts))),
    ("AVASETTLE_WEBHOOK_DISPATCH_INTERVAL_SECONDS",
      setNumber (cfg.webhook.bind (·.dispatchIntervalSeconds))),
    ("AVASETTLE_AUTO_RECONCILE_INTERVAL_SECONDS", setNumber cfg.autoReconcileIntervalSeconds),
    ("AVASETTLE_AUTO_SWEEP", setFlag cfg.autoSweep),
    ("AVASETTLE_THROTTLE_RPS", setNumber cfg.throttleRps),
    ("AVASETTLE_TRUST_PROXY", cfg.trustProxy.bind TrustProxy.setting)]

/-- `mapToEnvVars`. -/
def mapToEnvVars (cfg : ConfigFile) : List (String × String) :=
  cfg.settings.filterMap fun p => p.2.map fun val => (p.1, val)

/-- `process.env`. -/
abbrev Env := String → Option String

/-- Sets a variable that is not set. -/
def fill (env : Env) (p : String × String) : Env :=
  if env p.1 = none then Function.update env p.1 (some p.2) else env

/-- A config file as it is found. -/
inductive ConfigSource : Type where
  | missing
  | unreadable
  | malformed
  | parsed (cfg : ConfigFile)

/-- `loadConfigFile`: the environment afterwards. A variable that is set keeps its value. -/
def loadConfigFile (source : ConfigSource) (env : Env) : Env :=
  match source with
  | .missing => env
  | .unreadable => env
  | .malformed => env
  | .parsed cfg => (mapToEnvVars cfg).foldl fill env

/-! ## The getters -/

section
variable (T : Texts) (env : Env)

/-- `readInt`. -/
def readInt (name : String) (fallback : Nat) : Except String Nat :=
  match env name with
  | none => .ok fallback
  | some value =>
    if value = "" then .ok fallback
    else
      match T.integer value with
      | none => .error (name ++ " must be a non-negative integer.")
      | some parsed => if parsed < 0 then .error (name ++ " must be a non-negative integer.") else .ok parsed.toNat

/-- `readBoolean`. -/
def readBoolean (name : String) (fallback : Bool) : Bool :=
  match env name with
  | none => fallback
  | some value => ["1", "true", "yes", "on"].contains (T.toLowerCase value)

/-- `/^0x[a-fA-F0-9]{40}$/`. -/
def isAddress (value : String) : Bool :=
  value.toList.take 2 = ['0', 'x'] && value.toList.length = 42 &&
    (value.toList.drop 2).all fun c => c.isDigit || 'a' ≤ c && c ≤ 'f' || 'A' ≤ c && c ≤ 'F'

/-- `readAddress`. -/
def readAddress (name : String) : Except String (Option String) :=
  match (env name).map trim with
  | none => .ok none
  | some value =>
    if value = "" then .ok none
    else if isAddress value then .ok (some value)
    else .error (name ++ " must be a valid EVM address.")

/-- `port`. -/
def port : Except String Nat := readInt T env "PORT" 3001

/-- The origins that `corsOrigins` allows: all, or those of a list. -/
inductive CorsOrigins : Type where
  | all
  | only (l : List String)
  deriving DecidableEq, Repr

/-- The trimmed parts of a text that are not empty. -/
def originsOf (raw : String) : List String := ((splitCommas raw).map trim).filter (· ≠ "")

/-- `corsOrigins`. -/
def corsOrigins : CorsOrigins :=
  match env "AVASETTLE_CORS_ORIGINS" with
  | none => .all
  | some raw => if raw = "" || trim raw = "*" then .all else .only (originsOf raw)

/-- `settlementNetwork`. -/
def settlementNetwork : Except String SettlementNetwork :=
  let value := (env "AVASETTLE_NETWORK").getD "avalanche-fuji"
  if value = "avalanche-fuji" then .ok .avalancheFuji
  else if value = "avalanche-mainnet" then .ok .avalancheMainnet
  else .error ("Invalid AVASETTLE_NETWORK \"" ++ value ++ "\". Use avalanche-fuji or avalanche-mainnet.")

/-- `NetworkSummary`. -/
structure NetworkSummary where
  key : SettlementNetwork
  chainId : Nat
  name : String
  nativeTokenSymbol : String
  explorerBaseUrl : String
  rpcUrl : String
  deriving DecidableEq, Repr

/-- The summary of a network with its defaults. -/
def summaryOf (explorerBaseUrl rpcUrl : Option String) : SettlementNetwork → NetworkSummary
  | .avalancheMainnet =>
    { key := .avalancheMainnet
      chainId := SettlementNetwork.avalancheMainnet.chainId
      name := "Avalanche C-Chain"
      nativeTokenSymbol := "AVAX"
      explorerBaseUrl := explorerBaseUrl.getD "https://snowtrace.io"
      rpcUrl := rpcUrl.getD "https://api.avax.network/ext/bc/C/rpc" }
  | .avalancheFuji =>
    { key := .avalancheFuji
      chainId := SettlementNetwork.avalancheFuji.chainId
      name := "Avalanche Fuji Testnet"
      nativeTokenSymbol := "AVAX"
      explorerBaseUrl := explorerBaseUrl.getD "https://subnets-test.avax.network/c-chain"
      rpcUrl := rpcUrl.getD "https://api.avax-test.network/ext/bc/C/rpc" }

/-- `networkSummary`. -/
def networkSummary : Except String NetworkSummary :=
  (settlementNetwork env).map (summaryOf (env "AVASETTLE_EXPLORER_BASE_URL") (env "AVASETTLE_RPC_URL"))

/-- `enabledAssets`. -/
def enabledAssets : List String :=
  let raw := (env "AVASETTLE_ENABLED_ASSETS").getD "USDC"
  let assets := ((splitCommas raw).map fun asset => T.toUpperCase (trim asset)).filter (· ≠ "")
  let enabled := assets.filter fun asset => ["USDC", "USDT"].contains asset
  if enabled ≠ [] then enabled else ["USDC"]

/-- `minConfirmations`. -/
def minConfirmations : Except String Nat := readInt T env "AVASETTLE_MIN_CONFIRMATIONS" 2

/-- `waitForReceipt`. -/
def waitForReceipt : Bool := readBoolean T env "AVASETTLE_WAIT_FOR_RECEIPT" false

/-- `databaseSsl`. -/
def databaseSsl : Bool := readBoolean T env "AVASETTLE_DATABASE_SSL" false

/-- `databaseSslRejectUnauthorized`. -/
def databaseSslRejectUnauthorized : Bool := readBoolean T env "AVASETTLE_DATABASE_SSL_REJECT_UNAUTHORIZED" true

/-- `databaseMaxConnections`. -/
def databaseMaxConnections : Except String Nat := do
  let value ← readInt T env "AVASETTLE_DATABASE_MAX_CONNECTIONS" 5
  if value = 0 then .error "AVASETTLE_DATABASE_MAX_CONNECTIONS must be at least 1." else .ok value

/-- `databaseAutoMigrate`. -/
def databaseAutoMigrate : Bool := readBoolean T env "AVASETTLE_DATABASE_AUTO_MIGRATE" true

/-- `payInDerivationAccount`. -/
def payInDerivationAccount : Except String Nat := readInt T env "AVASETTLE_PAYIN_DERIVATION_ACCOUNT" 0

/-- `payInLookbackBlocks`. -/
def payInLookbackBlocks : Except String Nat := readInt T env "AVASETTLE_PAYIN_LOOKBACK_BLOCKS" 50000

/-- `payInDefaultExpirationMinutes`. -/
def payInDefaultExpirationMinutes : Except String (Option Nat) :=
  match env "AVASETTLE_PAYIN_DEFAULT_EXPIRATION_MINUTES" with
  | none => .ok none
  | some value =>
    if value = "" then .ok none
    else do
      let minutes ← readInt T env "AVASETTLE_PAYIN_DEFAULT_EXPIRATION_MINUTES" 0
      if minutes = 0 then .ok none
      else if 10080 < minutes then
        .error "AVASETTLE_PAYIN_DEFAULT_EXPIRATION_MINUTES must be 10080 or lower."
      else .ok (some minutes)

/-- `paymentRouterAddress`. -/
def paymentRouterAddress : Except String (Option String) := readAddress env "AVASETTLE_PAYMENT_ROUTER_ADDRESS"

/-- `webhookRetryAttempts`. -/
def webhookRetryAttempts : Except String Nat := readInt T env "AVASETTLE_WEBHOOK_RETRY_ATTEMPTS" 3

/-- `webhookDispatchIntervalSeconds`. -/
def webhookDispatchIntervalSeconds : Except String Nat :=
  readInt T env "AVASETTLE_WEBHOOK_DISPATCH_INTERVAL_SECONDS" 5

/-- `autoSweep`. -/
def autoSweep : Bool := readBoolean T env "AVASETTLE_AUTO_SWEEP" false

/-- `autoReconcileIntervalSeconds`. -/
def autoReconcileIntervalSeconds : Except String (Option Nat) :=
  match env "AVASETTLE_AUTO_RECONCILE_INTERVAL_SECONDS" with
  | none => .ok none
  | some value =>
    if value = "" then .ok none
    else
      match T.integer value with
      | none => .error "AVASETTLE_AUTO_RECONCILE_INTERVAL_SECONDS must be an integer >= 10."
      | some seconds =>
        if seconds < 10 then .error "AVASETTLE_AUTO_RECONCILE_INTERVAL_SECONDS must be an integer >= 10."
        else .ok (some seconds.toNat)

/-- `throttleRps`. -/
def throttleRps : Except String Nat := readInt T env "AVASETTLE_THROTTLE_RPS" 100

/-- The value of `trustProxy` for a text. -/
def trustProxyOf (value : String) : TrustProxy :=
  if value = "" then .flag false
  else if ["false", "0", "no", "off"].contains (T.toLowerCase value) then .flag false
  else if ["true", "yes", "on"].contains (T.toLowerCase value) then .flag true
  else
    match T.integer value with
    | some hops => if 0 < hops then .hops hops else .text value
    | none => .text value

/-- `trustProxy`. -/
def trustProxy : TrustProxy :=
  match (env "AVASETTLE_TRUST_PROXY").map trim with
  | none => .flag false
  | some value => trustProxyOf T value

/-- `AssetRuntimeConfig`. -/
structure AssetRuntimeConfig where
  symbol : String
  address : Option String
  decimals : Nat
  maxPayoutAmount : Option String
  configured : Bool
  deriving DecidableEq, Repr

/-- `getAssetConfig`, for a symbol in capitals. -/
def getAssetConfig (symbol : String) : Except String AssetRuntimeConfig := do
  let address ← readAddress env ("AVASETTLE_" ++ symbol ++ "_ADDRESS")
  let decimals ← readInt T env ("AVASETTLE_" ++ symbol ++ "_DECIMALS")
    (if symbol = "USDC" || symbol = "USDT" then 6 else 18)
  .ok {
    symbol
    address
    decimals
    maxPayoutAmount := env ("AVASETTLE_MAX_PAYOUT_" ++ symbol) <|> env "AVASETTLE_MAX_PAYOUT_AMOUNT"
    configured := address.isSome }

end

end AvaSettle.Environment
