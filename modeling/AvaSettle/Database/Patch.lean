import AvaSettle.Model.Records
import AvaSettle.Sql.Update

/-!
# Updates from patch objects

`buildPatchSet` and the `update` of the pay-in and payout ledgers: the text of an `UPDATE` is put together
from the keys of a patch object, with its values appended to the parameters one by one, and from the lists
of a guard. What the text does is what the server makes of it, in a table that is declared with the types of
its columns and with those that are not null.
-/

namespace AvaSettle.Database
open Sql (Row Schema Source Assignment Test Update Token IsWord reserved lex)

/-! ## Tables -/

/-- The types of the columns. -/
inductive SqlType : Type where
  | uuid
  | text
  | integer
  | timestamptz
  | jsonb
  deriving DecidableEq, Repr

/-- `avasettle_payins`. -/
def payInSchema : Schema SqlType where
  table := "avasettle_payins"
  columns :=
    [("id", .uuid), ("client_id", .uuid), ("external_id", .text), ("chain_flow_request_id", .text),
      ("status", .text), ("network", .text), ("chain_id", .integer), ("asset", .text),
      ("token_address", .text), ("collection_mode", .text), ("deposit_address", .text),
      ("derivation_index", .integer), ("router_address", .text), ("router_invoice_id", .text),
      ("expected_amount", .text), ("expected_amount_atomic", .text), ("received_amount", .text),
      ("received_amount_atomic", .text), ("sweep_status", .text), ("sweep_tx_hash", .text),
      ("swept_amount", .text), ("swept_amount_atomic", .text), ("swept_at", .timestamptz),
      ("sweep_failure_reason", .text), ("start_block", .text), ("last_scanned_block", .text),
      ("expires_at", .timestamptz), ("accepted_at", .timestamptz), ("acceptance_note", .text),
      ("metadata", .jsonb), ("transfers", .jsonb), ("detected_at", .timestamptz),
      ("confirmed_at", .timestamptz), ("created_at", .timestamptz), ("updated_at", .timestamptz)]
  required :=
    ["id", "external_id", "status", "network", "chain_id", "asset", "token_address", "collection_mode",
      "deposit_address", "derivation_index", "expected_amount", "expected_amount_atomic", "received_amount",
      "received_amount_atomic", "sweep_status", "swept_amount", "swept_amount_atomic", "start_block",
      "metadata", "transfers", "created_at", "updated_at"]
  unique := [["id"], ["client_id", "external_id"]]

/-- `avasettle_payouts`. -/
def payoutSchema : Schema SqlType where
  table := "avasettle_payouts"
  columns :=
    [("id", .uuid), ("client_id", .uuid), ("external_id", .text), ("chain_flow_request_id", .text),
      ("status", .text), ("network", .text), ("chain_id", .integer), ("asset", .text),
      ("token_address", .text), ("amount", .text), ("amount_atomic", .text), ("beneficiary_address", .text),
      ("beneficiary_name", .text), ("treasury_address", .text), ("transaction_hash", .text),
      ("failure_reason", .text), ("memo", .text), ("metadata", .jsonb), ("authorized_at", .timestamptz),
      ("broadcasted_at", .timestamptz), ("confirmed_at", .timestamptz), ("created_at", .timestamptz),
      ("updated_at", .timestamptz)]
  required :=
    ["id", "external_id", "status", "network", "chain_id", "asset", "token_address", "amount",
      "amount_atomic", "beneficiary_address", "metadata", "created_at", "updated_at"]
  unique := [["id"], ["client_id", "external_id"]]

/-! ## Patch objects -/

/-- `PatchColumn`. -/
structure PatchColumn where
  column : String
  json : Bool := false
  deriving DecidableEq, Repr

/-- The members that every object literal inherits. -/
def objectPrototype : List String :=
  ["constructor", "__defineGetter__", "__defineSetter__", "hasOwnProperty", "__lookupGetter__",
    "__lookupSetter__", "isPrototypeOf", "propertyIsEnumerable", "toString", "valueOf", "__proto__",
    "toLocaleString"]

/-- `columns[key]` where it is truthy: the member of the literal or else one that it inherits, whose
    `column` and `json` are undefined. -/
def mapping (columns : List (String × PatchColumn)) (key : String) : Option PatchColumn :=
  match columns.lookup key with
  | some m => some m
  | none => if key ∈ objectPrototype then some ⟨"undefined", false⟩ else none

/-- The enumerable members of a patch object in their order, where `none` is `undefined`. -/
structure PatchObject (J : Type) where
  entries : List (String × Option J)
  nodup : (entries.map Prod.fst).Nodup

/-- A value that is bound to a placeholder: one value or an array. -/
inductive Param (J : Type) : Type where
  | one (v : J)
  | many (vs : List J)

/-- The driver and the server: `JSON.stringify`, which may throw, how a bound value is read as one of a type,
    where the value may be `NULL` and `none` is an error, and the time of the statement. -/
structure Driver (J V : Type) where
  stringify : J → Except Exception J
  input : SqlType → J → Option (Option V)
  now : V

variable {J V : Type}

/-- The server: an array is only ever compared with, and each of its members is read. -/
def Driver.server (d : Driver J V) : Sql.Server SqlType (Param J) V where
  jsonb := .jsonb
  input
    | type, .one v => d.input type v
    | _, .many _ => none
  elements
    | _, .one _ => none
    | type, .many vs => vs.mapM (d.input type)
  clock := .timestamptz
  now := d.now

/-- The value that is appended for a key. -/
def Driver.encode (d : Driver J V) (json : Bool) (value : J) : Except Exception J :=
  if json then d.stringify value else .ok value

/-- The loop of `buildPatchSet`, after the assignments and the values so far. -/
def buildPatchSet.loop (d : Driver J V) (columns : List (String × PatchColumn)) :
    List (String × Option J) → List String → List (Param J) → Except Exception (List String × List (Param J))
  | [], sets, values => .ok (sets, values)
  | (_, none) :: entries, sets, values => loop d columns entries sets values
  | (key, some value) :: entries, sets, values =>
    match mapping columns key with
    | none => .error (.error ("Unsupported patch field \"" ++ key ++ "\"."))
    | some m =>
      match d.encode m.json value with
      | .error e => .error e
      | .ok value =>
        let values := values ++ [.one value]
        loop d columns entries
          (sets ++ [m.column ++ " = $" ++ toString values.length ++ if m.json then "::jsonb" else ""]) values

/-- `buildPatchSet`: the text of the assignments and the values after it. -/
def buildPatchSet (d : Driver J V) (patch : PatchObject J) (columns : List (String × PatchColumn))
    (values : List (Param J)) : Except Exception (String × List (Param J)) :=
  (buildPatchSet.loop d columns patch.entries [] values).map fun p =>
    (", ".intercalate (p.1 ++ ["updated_at = now()"]), p.2)

/-! ## Ledgers -/

/-- The text of a list of columns, as the statements spell it out line by line. -/
def columnList (lines : List (List String)) : String :=
  "\n  " ++ ",\n  ".intercalate (lines.map fun line => ", ".intercalate line)

/-- The table of a ledger, the lines of the columns that its statements return and the columns that a
    patch may change. -/
structure Ledger where
  schema : Schema SqlType
  lines : List (List String)
  patchColumns : List (String × PatchColumn)
  tableWord : IsWord schema.table ∧ schema.table ∉ reserved
  words : ∀ c ∈ schema.names, IsWord c ∧ c ∉ reserved
  standard : schema.type "id" = some .uuid ∧ schema.type "updated_at" = some .timestamptz ∧
    "undefined" ∉ schema.names
  keyed : ["id"] ∈ schema.unique ∧ ∀ cs ∈ schema.unique, "updated_at" ∉ cs
  returned : lines ≠ [] ∧ ∀ line ∈ lines, line ≠ [] ∧ ∀ c ∈ line, c ∈ schema.names
  patched : ∀ p ∈ patchColumns, (∃ type ∈ schema.type p.2.column, p.2.json = true → type = .jsonb) ∧
    p.2.column ≠ "updated_at" ∧ ∀ cs ∈ schema.unique, p.2.column ∉ cs
  distinct : (patchColumns.map fun p => p.2.column).Nodup

/-- The name of the table. -/
abbrev Ledger.table (l : Ledger) : String := l.schema.table

/-- A statement with the values of its placeholders. -/
structure Query (J : Type) where
  text : String
  values : List (Param J)

/-- The conjuncts of a guard, each for a column and the list that is expected there, if one is given. -/
def addGuards : List (String × Option (List J)) → String → List (Param J) → String × List (Param J)
  | [], text, values => (text, values)
  | (_, none) :: guards, text, values => addGuards guards text values
  | (column, some expected) :: guards, text, values =>
    let values := values ++ [.many expected]
    addGuards guards (text ++ (" AND " ++ column ++ " = ANY($" ++ toString values.length ++ ")")) values

/-- The statement that `update` issues. -/
def Ledger.query (l : Ledger) (d : Driver J V) (id : J) (patch : PatchObject J)
    (guards : List (String × Option (List J))) : Except Exception (Query J) :=
  (buildPatchSet d patch l.patchColumns [.one id]).map fun p =>
    let q := addGuards guards "id = $1" p.2
    ⟨"UPDATE " ++ l.table ++ " SET " ++ p.1 ++ " WHERE " ++ q.1 ++ " RETURNING " ++ columnList l.lines, q.2⟩

/-- The outcome of a call: thrown before a statement was issued, an error of the server, or the table
    after the statement and the first row it returned. -/
inductive Outcome (V : Type) [DecidableEq V] : Type where
  | threw (e : Exception)
  | failed
  | returned (after : Sql.Table SqlType V) (row : Option (List (String × Option V)))

/-- `update`: issues the statement and returns the first row, if there is one. -/
def Ledger.update [DecidableEq V] (l : Ledger) (d : Driver J V) (id : J) (patch : PatchObject J)
    (guards : List (String × Option (List J))) (t : Sql.Table SqlType V) : Outcome V :=
  match l.query d id patch guards with
  | .error e => .threw e
  | .ok q =>
    match Sql.run d.server q.text q.values t with
    | none => .failed
    | some (after, rows) => .returned after rows.head?

/-- The columns of `avasettle_payins`, in the lines of `PAYIN_COLUMNS`. -/
def payInColumns : List (List String) :=
  [["id", "client_id", "external_id", "chain_flow_request_id", "status", "network", "chain_id", "asset",
      "token_address"],
    ["collection_mode", "deposit_address", "derivation_index", "router_address", "router_invoice_id"],
    ["expected_amount", "expected_amount_atomic", "received_amount", "received_amount_atomic"],
    ["sweep_status", "sweep_tx_hash", "swept_amount", "swept_amount_atomic", "swept_at",
      "sweep_failure_reason"],
    ["start_block", "last_scanned_block", "expires_at", "accepted_at", "acceptance_note"],
    ["metadata", "transfers", "detected_at", "confirmed_at", "created_at", "updated_at"]]

/-- `PATCH_COLUMNS` of the pay-ins. -/
def payInPatchColumns : List (String × PatchColumn) :=
  [("status", { column := "status" }),
    ("receivedAmount", { column := "received_amount" }),
    ("receivedAmountAtomic", { column := "received_amount_atomic" }),
    ("sweepStatus", { column := "sweep_status" }),
    ("sweepTransactionHash", { column := "sweep_tx_hash" }),
    ("sweptAmount", { column := "swept_amount" }),
    ("sweptAmountAtomic", { column := "swept_amount_atomic" }),
    ("sweptAt", { column := "swept_at" }),
    ("sweepFailureReason", { column := "sweep_failure_reason" }),
    ("lastScannedBlock", { column := "last_scanned_block" }),
    ("acceptedAt", { column := "accepted_at" }),
    ("acceptanceNote", { column := "acceptance_note" }),
    ("metadata", { column := "metadata", json := true }),
    ("transfers", { column := "transfers", json := true }),
    ("detectedAt", { column := "detected_at" }),
    ("confirmedAt", { column := "confirmed_at" })]

/-- `PayInLedgerService`. -/
def PayInLedgerService : Ledger where
  schema := payInSchema
  lines := payInColumns
  patchColumns := payInPatchColumns
  tableWord := by decide +kernel
  words := by decide +kernel
  standard := by decide +kernel
  keyed := by decide +kernel
  returned := by decide +kernel
  patched := by decide +kernel
  distinct := by decide +kernel

/-- The columns of `avasettle_payouts`, in the lines of `PAYOUT_COLUMNS`. -/
def payoutColumns : List (List String) :=
  [["id", "client_id", "external_id", "chain_flow_request_id", "status", "network", "chain_id", "asset",
      "token_address"],
    ["amount", "amount_atomic", "beneficiary_address", "beneficiary_name", "treasury_address"],
    ["transaction_hash", "failure_reason", "memo", "metadata"],
    ["authorized_at", "broadcasted_at", "confirmed_at", "created_at", "updated_at"]]

/-- `PATCH_COLUMNS` of the payouts. -/
def payoutPatchColumns : List (String × PatchColumn) :=
  [("status", { column := "status" }),
    ("treasuryAddress", { column := "treasury_address" }),
    ("transactionHash", { column := "transaction_hash" }),
    ("failureReason", { column := "failure_reason" }),
    ("metadata", { column := "metadata", json := true }),
    ("authorizedAt", { column := "authorized_at" }),
    ("broadcastedAt", { column := "broadcasted_at" }),
    ("confirmedAt", { column := "confirmed_at" })]

/-- `PayoutLedgerService`. -/
def PayoutLedgerService : Ledger where
  schema := payoutSchema
  lines := payoutColumns
  patchColumns := payoutPatchColumns
  tableWord := by decide +kernel
  words := by decide +kernel
  standard := by decide +kernel
  keyed := by decide +kernel
  returned := by decide +kernel
  patched := by decide +kernel
  distinct := by decide +kernel

/-- `PayInUpdateGuard`, of values. -/
structure PayInGuard (J : Type) where
  expectedStatus : Option (List J) := none
  expectedSweepStatus : Option (List J) := none

/-- The guard of a payout update. -/
structure PayoutGuard (J : Type) where
  expectedStatus : Option (List J) := none

/-- The conjuncts of a guard. -/
def PayInGuard.conjuncts (g : PayInGuard J) : List (String × Option (List J)) :=
  [("status", g.expectedStatus), ("sweep_status", g.expectedSweepStatus)]

/-- The conjuncts of a guard. -/
def PayoutGuard.conjuncts (g : PayoutGuard J) : List (String × Option (List J)) :=
  [("status", g.expectedStatus)]

/-- `PayInLedgerService.update`. -/
def PayInLedgerService.update [DecidableEq V] (d : Driver J V) (id : J) (patch : PatchObject J)
    (guard : PayInGuard J) (t : Sql.Table SqlType V) : Outcome V :=
  Ledger.update PayInLedgerService d id patch guard.conjuncts t

/-- `PayoutLedgerService.update`. -/
def PayoutLedgerService.update [DecidableEq V] (d : Driver J V) (id : J) (patch : PatchObject J)
    (guard : PayoutGuard J) (t : Sql.Table SqlType V) : Outcome V :=
  Ledger.update PayoutLedgerService d id patch guard.conjuncts t

end AvaSettle.Database
