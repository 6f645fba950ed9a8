import AvaSettle.Database.Patch
import AvaSettle.Sql.Insert

/-!
# Rows and records

How records of the pay-in and payout ledgers become the parameters of an insertion and come back from the
rows of a result, and the statements that insert and find them. The fields of a record are JavaScript values,
as they are in the source, where nothing but a type says that they are strings.
-/

namespace AvaSettle.Database
open Sql (Row Schema Reading lex)

/-! ## Values -/

/-- A JavaScript value that is bound to a parameter or stands in a row, over a type of JSON values that are
    not `null`. A date is its milliseconds since the epoch. -/
inductive JsValue (J : Type) : Type where
  | undefined
  | null
  | string (s : String)
  | number (n : Int)
  | date (t : Int)
  | json (v : J)
  deriving DecidableEq

/-- The times that are written with a year of four digits. -/
def isoTime (t : Int) : Prop := -62135596800000 ≤ t ∧ t < 253402300800000

/-- The library functions that the mapper calls. -/
structure Script (J : Type) where
  /-- `JSON.stringify`. -/
  stringify : JsValue J → JsValue J
  /-- `toISOString`. -/
  toISOString : Int → String
  /-- `new Date(s)`, where `none` is an invalid date. -/
  parseDate : String → Option Int
  /-- `Number`. -/
  toNumber : JsValue J → JsValue J
  /-- `new Date()`. -/
  now : Int
  /-- `{}`. -/
  emptyObject : J
  /-- `[]`. -/
  emptyArray : J
  toNumber_number : ∀ n, toNumber (.number n) = .number n
  parseDate_toISOString : ∀ t, isoTime t → parseDate (toISOString t) = some t
  toISOString_ne_empty : ∀ t, isoTime t → toISOString t ≠ ""

section
variable {J : Type} (js : Script J)

/-- `v ?? d`. -/
def nullish : JsValue J → JsValue J → JsValue J
  | .undefined, d => d
  | .null, d => d
  | v, _ => v

/-- `if (v)`, for a value that is no JSON value, or an object or an array. -/
def truthy : JsValue J → Bool
  | .undefined => false
  | .null => false
  | .string s => s ≠ ""
  | .number n => n ≠ 0
  | .date _ => true
  | .json _ => true

/-- `toIso`, which throws on an invalid date. -/
def toIso : JsValue J → Option (JsValue J)
  | .date t => some (.string (js.toISOString t))
  | .string s => if s = "" then some .null else (js.parseDate s).map fun t => .string (js.toISOString t)
  | _ => some .null

/-- `requireIso`. -/
def requireIso (v : JsValue J) : Option (JsValue J) :=
  (toIso js v).map fun iso => nullish iso (.string (js.toISOString js.now))

end

/-! ## Records -/

/-- `PayInRecord`. -/
structure PayInRecord (J : Type) where
  id : JsValue J
  clientId : JsValue J
  externalId : JsValue J
  chainFlowRequestId : JsValue J
  status : JsValue J
  network : JsValue J
  chainId : JsValue J
  asset : JsValue J
  tokenAddress : JsValue J
  expectedAmount : JsValue J
  expectedAmountAtomic : JsValue J
  receivedAmount : JsValue J
  receivedAmountAtomic : JsValue J
  depositAddress : JsValue J
  derivationIndex : JsValue J
  collectionMode : JsValue J
  routerAddress : JsValue J
  routerInvoiceId : JsValue J
  startBlock : JsValue J
  lastScannedBlock : JsValue J
  expiresAt : JsValue J
  metadata : JsValue J
  transfers : JsValue J
  sweepStatus : JsValue J
  sweepTransactionHash : JsValue J
  sweptAmount : JsValue J
  sweptAmountAtomic : JsValue J
  sweptAt : JsValue J
  sweepFailureReason : JsValue J
  createdAt : JsValue J
  updatedAt : JsValue J
  detectedAt : JsValue J
  confirmedAt : JsValue J
  acceptedAt : JsValue J
  acceptanceNote : JsValue J

/-- `PayoutRecord`. -/
structure PayoutRecord (J : Type) where
  id : JsValue J
  clientId : JsValue J
  externalId : JsValue J
  chainFlowRequestId : JsValue J
  status : JsValue J
  network : JsValue J
  chainId : JsValue J
  asset : JsValue J
  tokenAddress : JsValue J
  amount : JsValue J
  amountAtomic : JsValue J
  beneficiaryAddress : JsValue J
  beneficiaryName : JsValue J
  treasuryAddress : JsValue J
  transactionHash : JsValue J
  failureReason : JsValue J
  memo : JsValue J
  metadata : JsValue J
  createdAt : JsValue J
  updatedAt : JsValue J
  authorizedAt : JsValue J
  broadcastedAt : JsValue J
  confirmedAt : JsValue J

section
variable {J : Type} (js : Script J)

/-- `rowToPayIn`. -/
def rowToPayIn (row : String → JsValue J) : Option (PayInRecord J) := do
  some {
    id := row "id"
    clientId := nullish (row "client_id") .null
    externalId := row "external_id"
    chainFlowRequestId := nullish (row "chain_flow_request_id") .null
    status := row "status"
    network := row "network"
    chainId := js.toNumber (row "chain_id")
    asset := row "asset"
    tokenAddress := row "token_address"
    collectionMode := row "collection_mode"
    depositAddress := row "deposit_address"
    derivationIndex := js.toNumber (row "derivation_index")
    routerAddress := nullish (row "router_address") .null
    routerInvoiceId := nullish (row "router_invoice_id") .null
    expectedAmount := row "expected_amount"
    expectedAmountAtomic := row "expected_amount_atomic"
    receivedAmount := row "received_amount"
    receivedAmountAtomic := row "received_amount_atomic"
    sweepStatus := row "sweep_status"
    sweepTransactionHash := nullish (row "sweep_tx_hash") .null
    sweptAmount := row "swept_amount"
    sweptAmountAtomic := row "swept_amount_atomic"
    sweptAt := ← toIso js (row "swept_at")
    sweepFailureReason := nullish (row "sweep_failure_reason") .null
    startBlock := row "start_block"
    lastScannedBlock := nullish (row "last_scanned_block") .null
    expiresAt := ← toIso js (row "expires_at")
    acceptedAt := ← toIso js (row "accepted_at")
    acceptanceNote := nullish (row "acceptance_note") .null
    metadata := nullish (row "metadata") (.json js.emptyObject)
    transfers := nullish (row "transfers") (.json js.emptyArray)
    detectedAt := ← toIso js (row "detected_at")
    confirmedAt := ← toIso js (row "confirmed_at")
    createdAt := ← requireIso js (row "created_at")
    updatedAt := ← requireIso js (row "updated_at") }

/-- `payInToValues`. -/
def payInToValues (p : PayInRecord J) : List (JsValue J) :=
  [p.id, p.clientId, p.externalId, p.chainFlowRequestId, p.status, p.network, p.chainId, p.asset,
    p.tokenAddress, p.collectionMode, p.depositAddress, p.derivationIndex, p.routerAddress,
    p.routerInvoiceId, p.expectedAmount, p.expectedAmountAtomic, p.receivedAmount, p.receivedAmountAtomic,
    p.sweepStatus, p.sweepTransactionHash, p.sweptAmount, p.sweptAmountAtomic, nullish p.sweptAt .null,
    p.sweepFailureReason, p.startBlock, p.lastScannedBlock, nullish p.expiresAt .null,
    nullish p.acceptedAt .null, p.acceptanceNote, js.stringify p.metadata, js.stringify p.transfers,
    nullish p.detectedAt .null, nullish p.confirmedAt .null, p.createdAt, p.updatedAt]

/-- `rowToPayout`. -/
def rowToPayout (row : String → JsValue J) : Option (PayoutRecord J) := do
  some {
    id := row "id"
    clientId := nullish (row "client_id") .null
    externalId := row "external_id"
    chainFlowRequestId := nullish (row "chain_flow_request_id") .null
    status := row "status"
    network := row "network"
    chainId := js.toNumber (row "chain_id")
    asset := row "asset"
    tokenAddress := row "token_address"
    amount := row "amount"
    amountAtomic := row "amount_atomic"
    beneficiaryAddress := row "beneficiary_address"
    beneficiaryName := nullish (row "beneficiary_name") .null
    treasuryAddress := nullish (row "treasury_address") .null
    transactionHash := nullish (row "transaction_hash") .null
    failureReason := nullish (row "failure_reason") .null
    memo := nullish (row "memo") .null
    metadata := nullish (row "metadata") (.json js.emptyObject)
    authorizedAt := ← toIso js (row "authorized_at")
    broadcastedAt := ← toIso js (row "broadcasted_at")
    confirmedAt := ← toIso js (row "confirmed_at")
    createdAt := ← requireIso js (row "created_at")
    updatedAt := ← requireIso js (row "updated_at") }

/-- `payoutToValues`. -/
def payoutToValues (p : PayoutRecord J) : List (JsValue J) :=
  [p.id, p.clientId, p.externalId, p.chainFlowRequestId, p.status, p.network, p.chainId, p.asset,
    p.tokenAddress, p.amount, p.amountAtomic, p.beneficiaryAddress, p.beneficiaryName, p.treasuryAddress,
    p.transactionHash, p.failureReason, p.memo, js.stringify p.metadata, nullish p.authorizedAt .null,
    nullish p.broadcastedAt .null, nullish p.confirmedAt .null, p.createdAt, p.updatedAt]

end

/-! ## Statements -/

/-- How PostgreSQL and its driver read a bound value as one of a type, and show a value of a type. -/
structure Postgres (J V : Type) where
  input : SqlType → JsValue J → Option (Option V)
  output : SqlType → V → JsValue J

/-- A ledger with the texts of its placeholders and how its records are mapped. -/
structure RecordLedger (J R : Type) where
  ledger : Ledger
  placeholders : String
  toValues : Script J → R → List (JsValue J)
  fromRow : Script J → (String → JsValue J) → Option R
  id : R → JsValue J
  clientId : R → JsValue J
  externalId : R → JsValue J

/-- The outcome of `createOrGetExisting`. In `failed` the server or a library function throws, in `conflicted`
    the service does. -/
inductive Created (V R : Type) : Type where
  | returned (after : List (Row V)) (record : R) (existed : Bool)
  | conflicted
  | failed

/-- The placeholders of the insertion of a pay-in. -/
def payInPlaceholders : String :=
  "$1,$2,$3,$4,$5,$6,$7,$8,$9,$10,$11,$12,$13,$14,$15,$16,$17,\n" ++
    "         $18,$19,$20,$21,$22,$23,$24,$25,$26,$27,$28,$29,$30::jsonb,$31::jsonb,$32,$33,$34,$35"

/-- The placeholders of the insertion of a payout. -/
def payoutPlaceholders : String :=
  "$1,$2,$3,$4,$5,$6,$7,$8,$9,$10,$11,$12,$13,$14,$15,$16,$17,$18::jsonb,$19,$20,$21,$22,$23"

/-- `PayInLedgerService`. -/
def payInLedger (J : Type) : RecordLedger J (PayInRecord J) where
  ledger := PayInLedgerService
  placeholders := payInPlaceholders
  toValues := payInToValues
  fromRow := rowToPayIn
  id := PayInRecord.id
  clientId := PayInRecord.clientId
  externalId := PayInRecord.externalId

/-- `PayoutLedgerService`. -/
def payoutLedger (J : Type) : RecordLedger J (PayoutRecord J) where
  ledger := PayoutLedgerService
  placeholders := payoutPlaceholders
  toValues := payoutToValues
  fromRow := rowToPayout
  id := PayoutRecord.id
  clientId := PayoutRecord.clientId
  externalId := PayoutRecord.externalId

/-- The table of a ledger. -/
abbrev RecordLedger.schema {J R : Type} (l : RecordLedger J R) : Schema SqlType := l.ledger.schema

/-- The server's reading of bound values. -/
def Postgres.reading {J V : Type} (pg : Postgres J V) : Reading SqlType (JsValue J) V := ⟨.jsonb, pg.input⟩

/-- A value as the driver shows it. -/
def Postgres.show {J V : Type} (pg : Postgres J V) (type : SqlType) : Option V → JsValue J
  | none => .null
  | some v => pg.output type v

/-- A row of a result, as the driver shows it. -/
def Postgres.fetch {J V : Type} (pg : Postgres J V) (schema : Schema SqlType) (r : List (String × Option V))
    (column : String) : JsValue J :=
  match r.lookup column, schema.type column with
  | some v, some type => pg.show type v
  | _, _ => .undefined

namespace RecordLedger
variable {J V R : Type} [DecidableEq V] (l : RecordLedger J R) (js : Script J) (pg : Postgres J V)

/-- The statement of `createOrGetExisting`. -/
def insertText : String :=
  "INSERT INTO " ++ l.ledger.table ++ " (" ++ columnList l.ledger.lines ++
    ")\n       VALUES (\n         " ++ l.placeholders ++
    "\n       )\n       ON CONFLICT (client_id, external_id) DO NOTHING\n       RETURNING " ++
    columnList l.ledger.lines

/-- The statement of `findById`. -/
def findByIdText (withClient : Bool) : String :=
  "SELECT " ++ columnList l.ledger.lines ++ " FROM " ++ l.ledger.table ++ "\n       WHERE id = $1 " ++
    if withClient then "AND client_id = $2" else ""

/-- The statement of `findByExternalId`. -/
def findByExternalIdText : String :=
  "SELECT " ++ columnList l.ledger.lines ++ " FROM " ++ l.ledger.table ++
    "\n       WHERE external_id = $1 AND client_id IS NOT DISTINCT FROM $2"

/-- Issues a selection and reads its first row, where `some none` is `null` and `none` an error. -/
def find (text : String) (values : List (JsValue J)) (rows : List (Row V)) : Option (Option R) :=
  ((Sql.parseSelect (lex text)).bind fun q => q.exec l.schema pg.reading values rows).bind fun records =>
    match records with
    | [] => some none
    | r :: _ => (l.fromRow js (pg.fetch l.schema r)).map some

/-- `findById`. -/
def findById (id clientId : JsValue J) (rows : List (Row V)) : Option (Option R) :=
  l.find js pg (l.findByIdText (truthy clientId)) (if truthy clientId then [id, clientId] else [id]) rows

/-- `findByExternalId`. -/
def findByExternalId (clientId externalId : JsValue J) (rows : List (Row V)) : Option (Option R) :=
  l.find js pg l.findByExternalIdText [externalId, clientId] rows

/-- `createOrGetExisting`. The clients are those that a row may refer to. -/
def createOrGetExisting (clients : List V) (record : R) (rows : List (Row V)) : Created V R :=
  match (Sql.parseInsert (lex l.insertText)).bind fun i =>
      i.exec l.schema pg.reading (l.toValues js record) (fun row => (row "client_id").all (· ∈ clients)) rows with
  | none => .failed
  | some (after, r :: _) =>
    match l.fromRow js (pg.fetch l.schema r) with
    | some inserted => .returned after inserted false
    | none => .failed
  | some (after, []) =>
    match l.findByExternalId js pg (l.clientId record) (l.externalId record) after with
    | some (some existing) => .returned after existing true
    | some none => .conflicted
    | none => .failed

end RecordLedger

end AvaSettle.Database
