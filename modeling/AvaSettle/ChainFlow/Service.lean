import Mathlib.Data.List.DropRight
import AvaSettle.Data.Keyed
import AvaSettle.Payouts.Service

/-!
# ChainFlowService

The compatibility wrapper that maps Chain Flow's withdrawals to payouts. A field of a request that may
be a number or a string is a JSON value, `null` where it is missing; numbers are whole. A field that
the validation accepts and the service never reads is left out.
-/

namespace AvaSettle.ChainFlow
open Payouts
open Async (Prog)

/-- `ChainFlowRetiroDto`. -/
structure ChainFlowRetiroDto where
  tcTransaccionExterna : Option String := none
  tnMonto : Json := .null
  tnMoneda : Json := .null
  tcCuentaDestino : Option Hex := none
  tnRetiroPago : Json := .null
  tnTransferenciaBloque : Json := .null
  tnProcesadorPagos : Json := .null
  externalId : Option String := none
  amount : Option String := none
  asset : Option String := none
  beneficiaryAddress : Option Hex := none
  beneficiario : Option String := none
  metadata : Option (List (String × Json)) := none

/-- `ChainFlowEstadoRetiroDto`. -/
structure ChainFlowEstadoRetiroDto where
  tcTransaccionExterna : Option String := none
  tnRetiroPago : Json := .null
  tnTransferenciaBloque : Json := .null
  externalId : Option String := none
  payoutId : Option String := none

/-- The response of every endpoint. -/
structure ChainFlowResponse where
  codigo : String
  mensaje : String
  tcTransaccionExterna : String
  tnRetiroPago : Json
  tnTransferenciaBloque : Json
  tnProcesadorPagos : Json
  tnMoneda : Json
  tcCuentaDestino : Hex
  retiroId : String
  payoutId : Uuid
  estado : PayoutStatus
  estadoChainFlow : String
  txHash : Option Hex
  red : SettlementNetwork
  chainId : Nat
  asset : SettlementAsset
  monto : String
  creadoEn : Timestamp
  actualizadoEn : Timestamp

/-! ## JavaScript values -/

/-- `a ?? b`. -/
def coalesce : Json → Json → Json
  | .null, b => b
  | a, _ => a

/-- What `String.prototype.trim` removes. -/
def isSpace (c : Char) : Bool :=
  c.toNat ∈ [0x09, 0x0A, 0x0B, 0x0C, 0x0D, 0x20, 0xA0, 0x1680, 0x2028, 0x2029, 0x202F, 0x205F,
    0x3000, 0xFEFF] || (0x2000 ≤ c.toNat && c.toNat ≤ 0x200A)

/-- `String.prototype.trim`. -/
def trim (s : String) : String :=
  .ofList ((s.toList.dropWhile isSpace).rdropWhile isSpace)

/-- `String.prototype.toUpperCase`, as far as the symbols of the assets are concerned: apart from small
    letters, only the long s has an upper case among theirs. -/
def toUpperCase (s : String) : String :=
  .ofList (s.toList.map fun c => if c = 'ſ' then 'S' else c.toUpper)

/-- The property of an object, or `undefined`. -/
def property (key : String) (fields : List (String × Json)) : Json :=
  (fields.lookup key).getD .null

/-- `{ ...a, ...b }`. -/
def spread (a b : List (String × Json)) : List (String × Json) :=
  Data.byKey Prod.fst (a ++ b)

/-! ## Helpers -/

/-- `normalizeIdentifier`. -/
def normalizeIdentifier (value : Json) : Option String :=
  match value with
  | .str s => truthy (some (trim s))
  | .num n => truthy (some (trim (toString n)))
  | _ => none

/-- `asRecord`. -/
def asRecord : Json → List (String × Json)
  | .obj fields => fields
  | _ => []

/-- `compactRecord`. -/
def compactRecord (record : List (String × Json)) : List (String × Json) :=
  record.filter fun e => match e.2 with
    | .null => false
    | .str s => trim s ≠ ""
    | _ => true

/-- `chainFlowMetadata`. -/
def chainFlowMetadata (payout : PayoutResponse) : List (String × Json) :=
  asRecord (property "chainFlow" (asRecord payout.metadata))

/-- `resolveAsset`. -/
def resolveAsset (rawAsset : Json) : Except Exception SettlementAsset :=
  let normalized := toUpperCase ((normalizeIdentifier rawAsset).getD "USDC")
  if normalized = "1" then .ok .usdc
  else if normalized = "2" then .ok .usdt
  else if normalized = "USDC" then .ok .usdc
  else if normalized = "USDT" then .ok .usdt
  else .error (.badRequest "tnMoneda/asset must be 1 (USDC), 2 (USDT), USDC or USDT.")

/-- `assetCode`. -/
def assetCode : SettlementAsset → Int
  | .usdc => 1
  | .usdt => 2

/-- `toChainFlowStatus`. -/
def toChainFlowStatus : PayoutStatus → String
  | .prepared => "PREPARADO"
  | .authorized => "AUTORIZADO"
  | .broadcasted => "ENVIADO_ONCHAIN"
  | .confirmed => "CONFIRMADO"
  | .failed => "FALLIDO"

/-- `toChainFlowResponse`. -/
def toChainFlowResponse (payout : PayoutResponse) (mensaje : String) : ChainFlowResponse :=
  let chainFlow := chainFlowMetadata payout
  { codigo := "00"
    mensaje
    tcTransaccionExterna :=
      (normalizeIdentifier (property "tcTransaccionExterna" chainFlow)).getD payout.externalId
    tnRetiroPago := property "tnRetiroPago" chainFlow
    tnTransferenciaBloque := property "tnTransferenciaBloque" chainFlow
    tnProcesadorPagos := property "tnProcesadorPagos" chainFlow
    tnMoneda := coalesce (property "tnMoneda" chainFlow) (.num (assetCode payout.asset))
    tcCuentaDestino := payout.beneficiaryAddress
    retiroId := payout.externalId
    payoutId := payout.id
    estado := payout.status
    estadoChainFlow := toChainFlowStatus payout.status
    txHash := payout.transactionHash
    red := payout.network
    chainId := payout.chainId
    asset := payout.asset
    monto := payout.amount
    creadoEn := payout.createdAt
    actualizadoEn := payout.updatedAt }

/-- The metadata of a withdrawal, under its `chainFlow` key. -/
def withdrawalMetadata (dto : ChainFlowRetiroDto) : List (String × Json) :=
  spread (asRecord (property "chainFlow" (dto.metadata.getD [])))
    (compactRecord [
      ("tcTransaccionExterna", .ofOption dto.tcTransaccionExterna),
      ("tnRetiroPago", dto.tnRetiroPago),
      ("tnTransferenciaBloque", dto.tnTransferenciaBloque),
      ("tnProcesadorPagos", dto.tnProcesadorPagos),
      ("tnMoneda", dto.tnMoneda),
      ("tcCuentaDestino", .ofOption dto.tcCuentaDestino)])

/-- `toCreatePayoutDto`. -/
def toCreatePayoutDto (dto : ChainFlowRetiroDto) : Except Exception CreatePayoutDto := do
  let externalId := normalizeIdentifier
    (coalesce (.ofOption dto.tcTransaccionExterna) (.ofOption dto.externalId))
  let amount := normalizeIdentifier (coalesce dto.tnMonto (.ofOption dto.amount))
  let asset ← resolveAsset (coalesce dto.tnMoneda (.ofOption dto.asset))
  let beneficiaryAddress := dto.tcCuentaDestino <|> dto.beneficiaryAddress
  let chainFlowRequestId := normalizeIdentifier
    (coalesce dto.tnRetiroPago dto.tnTransferenciaBloque)
  match externalId, amount, truthy beneficiaryAddress with
  | none, _, _ => .error (.badRequest "tcTransaccionExterna or externalId is required.")
  | some _, none, _ => .error (.badRequest "tnMonto or amount is required.")
  | some _, some _, none =>
    .error (.badRequest "tcCuentaDestino or beneficiaryAddress is required.")
  | some externalId, some amount, some beneficiaryAddress =>
    return {
      externalId
      amount
      asset
      beneficiaryAddress
      beneficiaryName := dto.beneficiario
      chainFlowRequestId
      memo := none
      metadata := some (.obj (spread (dto.metadata.getD [])
        [("source", .str "chain-flow-compat"), ("chainFlow", .obj (withdrawalMetadata dto))]))
      executeImmediately := false }

/-- The identifiers of a status request, in the order in which they are tried. -/
def identifiers (dto : ChainFlowEstadoRetiroDto) : List String :=
  [.ofOption dto.tcTransaccionExterna, .ofOption dto.externalId, dto.tnRetiroPago,
    dto.tnTransferenciaBloque].filterMap normalizeIdentifier

/-- The fields of a payout that a lookup compares with. -/
def candidates (payout : PayoutResponse) : List String :=
  let chainFlow := chainFlowMetadata payout
  [.str payout.externalId, .ofOption payout.chainFlowRequestId,
    property "tcTransaccionExterna" chainFlow, property "tnRetiroPago" chainFlow,
    property "tnTransferenciaBloque" chainFlow].filterMap normalizeIdentifier

/-- `matchesChainFlowLookup`. -/
def matchesChainFlowLookup (identifiers : List String) (payout : PayoutResponse) : Bool :=
  (candidates payout).any fun c => decide (c ∈ identifiers)

/-! ## Endpoints -/

/-- `tryGetPayoutByExternalId`. -/
def tryGetPayoutByExternalId (externalId : String) (context : RequestContext) :
    Method (Option PayoutResponse) :=
  Prog.tryCatch (do
    let payout ← getPayoutByExternalId externalId context
    return some payout) fun _ => return none

/-- The loop of `resolvePayout` over the identifiers. -/
def firstByExternalId (context : RequestContext) : List String → Method (Option PayoutResponse)
  | [] => return none
  | id :: ids => do
    match ← tryGetPayoutByExternalId id context with
    | some payout => return some payout
    | none => firstByExternalId context ids

/-- `resolvePayout`. -/
def resolvePayout (dto : ChainFlowEstadoRetiroDto) (context : RequestContext) :
    Method PayoutResponse :=
  match truthy dto.payoutId with
  | some payoutId => getPayout payoutId context
  | none =>
    match identifiers dto with
    | [] => throw (.badRequest ("payoutId, tcTransaccionExterna, externalId, tnRetiroPago or " ++
        "tnTransferenciaBloque is required."))
    | id :: ids => do
      match ← firstByExternalId context (id :: ids) with
      | some payout => return payout
      | none => do
        let payouts ← listPayouts {} context
        match payouts.find? (matchesChainFlowLookup (id :: ids)) with
        | some payout => return payout
        | none => getPayoutByExternalId id context

section
variable (d : Deployment)

/-- `prepararRetiro`. -/
def prepararRetiro (dto : ChainFlowRetiroDto) (context : RequestContext) :
    Method ChainFlowResponse := do
  let createDto ← Prog.ofExcept (toCreatePayoutDto dto)
  let payout ← createPayout d createDto context
  return toChainFlowResponse payout "Retiro preparado."

/-- `autorizarRetiro`. -/
def autorizarRetiro (dto : ChainFlowEstadoRetiroDto) (context : RequestContext) :
    Method ChainFlowResponse := do
  let payout ← resolvePayout dto context
  let authorized ← authorizePayout d payout.id
    { approvedBy := some "chain-flow"
      riskDecisionId := some s!"chain-flow-{payout.externalId}" } context
  return toChainFlowResponse authorized "Retiro autorizado."

/-- `consultarEstadoRetiro`. -/
def consultarEstadoRetiro (dto : ChainFlowEstadoRetiroDto) (context : RequestContext) :
    Method ChainFlowResponse := do
  let payout ← resolvePayout dto context
  return toChainFlowResponse payout "Estado de retiro consultado."

end

end AvaSettle.ChainFlow
