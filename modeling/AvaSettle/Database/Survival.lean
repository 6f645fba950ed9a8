import AvaSettle.Database.Storage

/-!
# Records survive storage

A well-formed record that is inserted into a table without a conflicting row comes back as it was, from the
insertion and from every selection that asks for it: the mapper reads each column by its name into the field
that was written to it.
-/

namespace AvaSettle.Database
open Sql (Row Schema Placeholder Comparison Select clash lex)

variable {J V R : Type}

/-! ## Well-formed records -/

/-- A UUID in canonical form. -/
def canonicalUuid (s : String) : Bool :=
  s.toList.length == 36 && s.toList.zipIdx.all fun p =>
    if p.2 = 8 || p.2 = 13 || p.2 = 18 || p.2 = 23 then p.1 == '-'
    else p.1.isDigit || ('a' ≤ p.1 && p.1 ≤ 'f')

/-- The value of a field whose column has the type. -/
def Is (js : Script J) : SqlType → JsValue J → Prop
  | .uuid, x => ∃ s, x = .string s ∧ canonicalUuid s = true
  | .text, x => ∃ s, x = .string s ∧ '\x00' ∉ s.toList
  | .integer, x => ∃ n : Int, x = .number n ∧ -2147483648 ≤ n ∧ n < 2147483648
  | .timestamptz, x => ∃ t, x = .string (js.toISOString t) ∧ isoTime t
  | .jsonb, x => ∃ v, x = .json v

/-- The value of a field that may be `null`. -/
def Maybe (js : Script J) (type : SqlType) (x : JsValue J) : Prop := x = .null ∨ Is js type x

/-- Every field has a value of its type: strings that can be stored, 32 bit integers, times in milliseconds
    with a year of four digits, JSON values. -/
structure PayInRecord.WellFormed (js : Script J) (p : PayInRecord J) : Prop where
  id : Is js .uuid p.id
  clientId : Maybe js .uuid p.clientId
  externalId : Is js .text p.externalId
  chainFlowRequestId : Maybe js .text p.chainFlowRequestId
  status : Is js .text p.status
  network : Is js .text p.network
  chainId : Is js .integer p.chainId
  asset : Is js .text p.asset
  tokenAddress : Is js .text p.tokenAddress
  expectedAmount : Is js .text p.expectedAmount
  expectedAmountAtomic : Is js .text p.expectedAmountAtomic
  receivedAmount : Is js .text p.receivedAmount
  receivedAmountAtomic : Is js .text p.receivedAmountAtomic
  depositAddress : Is js .text p.depositAddress
  derivationIndex : Is js .integer p.derivationIndex
  collectionMode : Is js .text p.collectionMode
  routerAddress : Maybe js .text p.routerAddress
  routerInvoiceId : Maybe js .text p.routerInvoiceId
  startBlock : Is js .text p.startBlock
  lastScannedBlock : Maybe js .text p.lastScannedBlock
  expiresAt : Maybe js .timestamptz p.expiresAt
  metadata : Is js .jsonb p.metadata
  transfers : Is js .jsonb p.transfers
  sweepStatus : Is js .text p.sweepStatus
  sweepTransactionHash : Maybe js .text p.sweepTransactionHash
  sweptAmount : Is js .text p.sweptAmount
  sweptAmountAtomic : Is js .text p.sweptAmountAtomic
  sweptAt : Maybe js .timestamptz p.sweptAt
  sweepFailureReason : Maybe js .text p.sweepFailureReason
  createdAt : Is js .timestamptz p.createdAt
  updatedAt : Is js .timestamptz p.updatedAt
  detectedAt : Maybe js .timestamptz p.detectedAt
  confirmedAt : Maybe js .timestamptz p.confirmedAt
  acceptedAt : Maybe js .timestamptz p.acceptedAt
  acceptanceNote : Maybe js .text p.acceptanceNote

/-- Every field has a value of its type. -/
structure PayoutRecord.WellFormed (js : Script J) (p : PayoutRecord J) : Prop where
  id : Is js .uuid p.id
  clientId : Maybe js .uuid p.clientId
  externalId : Is js .text p.externalId
  chainFlowRequestId : Maybe js .text p.chainFlowRequestId
  status : Is js .text p.status
  network : Is js .text p.network
  chainId : Is js .integer p.chainId
  asset : Is js .text p.asset
  tokenAddress : Is js .text p.tokenAddress
  amount : Is js .text p.amount
  amountAtomic : Is js .text p.amountAtomic
  beneficiaryAddress : Is js .text p.beneficiaryAddress
  beneficiaryName : Maybe js .text p.beneficiaryName
  treasuryAddress : Maybe js .text p.treasuryAddress
  transactionHash : Maybe js .text p.transactionHash
  failureReason : Maybe js .text p.failureReason
  memo : Maybe js .text p.memo
  metadata : Is js .jsonb p.metadata
  createdAt : Is js .timestamptz p.createdAt
  updatedAt : Is js .timestamptz p.updatedAt
  authorizedAt : Maybe js .timestamptz p.authorizedAt
  broadcastedAt : Maybe js .timestamptz p.broadcastedAt
  confirmedAt : Maybe js .timestamptz p.confirmedAt

/-- What is bound for a value is shown as another. -/
def Postgres.Echoes (pg : Postgres J V) (type : SqlType) (sent shown : JsValue J) : Prop :=
  ∃ v, pg.input type sent = some (some v) ∧ pg.output type v = shown

/-- PostgreSQL returns text, integers, timestamps and JSON values as they were stored. -/
structure Postgres.Faithful (pg : Postgres J V) (js : Script J) : Prop where
  null : ∀ type, pg.input type .null = some none
  uuid : ∀ s, canonicalUuid s = true → pg.Echoes .uuid (.string s) (.string s)
  text : ∀ s, '\x00' ∉ s.toList → pg.Echoes .text (.string s) (.string s)
  integer : ∀ n : Int, -2147483648 ≤ n → n < 2147483648 → pg.Echoes .integer (.number n) (.number n)
  timestamptz : ∀ t, isoTime t → pg.Echoes .timestamptz (.string (js.toISOString t)) (.date t)
  jsonb : ∀ v : J, pg.Echoes .jsonb (js.stringify (.json v)) (.json v)

/-! ## Reading back -/

/-- The row has the client and the external id of a record. -/
def RecordLedger.SameExternal (l : RecordLedger J R) (pg : Postgres J V) (p : R) (r : Row V) : Prop :=
  pg.input .uuid (l.clientId p) = some (r "client_id") ∧ pg.input .text (l.externalId p) = some (r "external_id")

/-- The row has the id of a record, or its client and its external id. A record without a client has no
    external id of its own. -/
def RecordLedger.Conflicts (l : RecordLedger J R) (pg : Postgres J V) (p : R) (r : Row V) : Prop :=
  pg.input .uuid (l.id p) = some (r "id") ∨ l.clientId p ≠ .null ∧ l.SameExternal pg p r

/-- A record that is inserted into the rows is returned as it is, and found again by its id, with or without
    its client, and by its external id, unless that is shared. -/
def RecordLedger.Survives [DecidableEq V] (l : RecordLedger J R) (js : Script J) (pg : Postgres J V)
    (clients : List V) (p : R) (rows : List (Row V)) : Prop :=
  ∃ after, l.createOrGetExisting js pg clients p rows = .returned after p false ∧
    (∀ c, c = .undefined ∨ c = l.clientId p → l.findById js pg (l.id p) c after = some (some p)) ∧
    ((∀ r ∈ rows, ¬ l.SameExternal pg p r) →
      l.findByExternalId js pg (l.clientId p) (l.externalId p) after = some (some p))

variable {l : RecordLedger J R} {pg : Postgres J V} {js : Script J} {p : R} {shown : List (JsValue J)}

/-- The columns that records are found by. -/
structure RecordLedger.Keyed (l : RecordLedger J R) (js : Script J) (pg : Postgres J V) (p : R) (row : Row V) :
    Prop where
  id : pg.input .uuid (l.id p) = some (row "id")
  clientId : pg.input .uuid (l.clientId p) = some (row "client_id")
  externalId : pg.input .text (l.externalId p) = some (row "external_id")
  idSome : (row "id").isSome
  clientSome : l.clientId p ≠ .null ↔ (row "client_id").isSome
  externalSome : (row "external_id").isSome

/-- The row of a record has the columns that it is found by. -/
lemma keyed (lined : l.Lined) (faithful : pg.Faithful js) (accepted : l.Accepted js pg p shown)
    (id : Is js .uuid (l.id p)) (clientId : Maybe js .uuid (l.clientId p))
    (externalId : Is js .text (l.externalId p)) : l.Keyed js pg p (l.row js pg p) := by
  obtain ⟨s, eq, canonical⟩ := id
  obtain ⟨v, read, -⟩ := faithful.uuid s canonical
  obtain ⟨s', eq', plain⟩ := externalId
  obtain ⟨v', read', -⟩ := faithful.text s' plain
  have rowId := row_at lined lined.id.1 (lined.id.2 js p) (eq ▸ read)
  have rowExternal := row_at lined lined.externalId.1 (lined.externalId.2 js p) (eq' ▸ read')
  obtain ⟨x, y, w, sent, -, read'', -⟩ := accepted_at accepted lined.clientId.1
  cases (lined.clientId.2 js p).symm.trans sent
  have rowClient := row_at lined lined.clientId.1 sent read''
  refine ⟨?_, ?_, ?_, ?_, ?_, ?_⟩
  · rw [eq, rowId, read]
  · rw [rowClient, read'']
  · rw [eq', rowExternal, read']
  · rw [rowId]
    rfl
  · rw [rowClient]
    rcases clientId with null | ⟨s'', eq'', canonical''⟩
    · rw [null, faithful.null] at read''
      cases read''
      exact iff_of_false (fun some' => some' null) Bool.false_ne_true
    · obtain ⟨v'', known, -⟩ := faithful.uuid s'' canonical''
      rw [eq'', known] at read''
      cases read''
      exact iff_of_true (fun null => by cases eq''.symm.trans null) rfl
  · rw [rowExternal]
    rfl

section
variable [DecidableEq V] {rows : List (Row V)} {clients : List V} {row : Row V} {values : List (JsValue J)}
  {tests : List Comparison}

/-- The only row that satisfies the conjuncts is found. -/
lemma find_of_unique (lined : l.Lined) {text : String} (read : lex text = (l.selection tests).tokens)
    (some' : tests ≠ []) (columns : ∀ c ∈ tests, c.column ∈ ["id", "client_id", "external_id"])
    (placed : ∀ c ∈ tests, 1 ≤ c.placeholder ∧ c.placeholder ≤ values.length)
    (bound : ∀ n < values.length, n + 1 ∈ tests.map Comparison.placeholder)
    (inputs : ∀ c ∈ tests, ((l.schema.type c.column).bind fun type =>
      values[c.placeholder - 1]?.bind (pg.input type)) = some (row c.column))
    (holds : ∀ c ∈ tests, c.holds row (row c.column) = true)
    (others : ∀ r ∈ rows, ∃ c ∈ tests, c.holds r (row c.column) = false)
    (back : l.fromRow js (pg.fetch l.schema (l.schema.names.map fun c => (c, row c))) = some p) :
    l.find js pg text values (rows ++ [row]) = some (some p) := by
  have standard : ∀ c ∈ ["id", "client_id", "external_id"], c ∈ l.schema.names := by
    simp only [List.forall_mem_cons]
    exact ⟨mem_names lined.id.1, mem_names lined.clientId.1, mem_names lined.externalId.1, nofun⟩
  have parsed : Sql.parseSelect (l.selection tests).tokens = some (l.selection tests) := by
    apply Sql.parseSelect_tokens (names_ne_nil lined) some' lined.noFrom
    · intro eq
      apply l.ledger.tableWord.2
      rw [show l.ledger.schema.table = "WHERE" from eq]
      decide
    · intro c mem eq
      exact absurd (eq ▸ columns c mem) (by decide)
  have fits : (l.selection tests).Fits l.schema values :=
    ⟨lined.table, fun c mem => mem, fun c mem => standard _ (columns c mem), placed, bound⟩
  have run := Select.exec_of_unique (f := fun c => row c.column) (r := pg.reading) fits inputs holds others
  rw [RecordLedger.find, read, parsed, Option.bind_some, run, Option.bind_some]
  change (l.fromRow js (pg.fetch l.schema (l.schema.names.map fun c => (c, row c)))).map some = _
  rw [back]
  rfl

/-- No row clashes with that of the record in unique columns. -/
lemma no_clash (lined : l.Lined) (keyed : l.Keyed js pg p row) (fresh : ∀ r ∈ rows, ¬ l.Conflicts pg p r) :
    ∀ cs ∈ l.schema.unique, ∀ r ∈ rows, clash cs row r = false := by
  rw [lined.unique]
  intro cs mem r inside
  have free := fresh r inside
  rw [RecordLedger.Conflicts, RecordLedger.SameExternal, keyed.id, keyed.clientId, keyed.externalId] at free
  push Not at free
  rw [Bool.eq_false_iff]
  intro clashes
  rcases List.mem_cons.1 mem with rfl | mem
  · simp only [clash, List.all_cons, List.all_nil, Bool.and_true, Bool.and_eq_true, decide_eq_true_eq] at clashes
    exact free.1 (congrArg some clashes.2)
  · cases List.mem_singleton.1 mem
    simp only [clash, List.all_cons, List.all_nil, Bool.and_true, Bool.and_eq_true, decide_eq_true_eq] at clashes
    exact free.2 (keyed.clientSome.2 clashes.1.1) (congrArg some clashes.1.2) (congrArg some clashes.2.2)

/-- What is accepted and mapped back survives. -/
theorem survives (lined : l.Lined) (accepted : l.Accepted js pg p shown) (keyed : l.Keyed js pg p (l.row js pg p))
    (back : l.fromRow js (pg.fetch l.schema (l.schema.names.map fun c => (c, l.row js pg p c))) = some p)
    (known : ∀ v, pg.input .uuid (l.clientId p) = some (some v) → v ∈ clients)
    (fresh : ∀ r ∈ rows, ¬ l.Conflicts pg p r) : l.Survives js pg clients p rows := by
  have idType : l.schema.type "id" = some .uuid := type_at lined.distinct lined.id.1
  have clientType : l.schema.type "client_id" = some .uuid := type_at lined.distinct lined.clientId.1
  have externalType : l.schema.type "external_id" = some .text := type_at lined.distinct lined.externalId.1
  have allowed : (l.row js pg p "client_id").all (· ∈ clients) = true := by
    cases client : l.row js pg p "client_id" with
    | none => rfl
    | some v => exact decide_eq_true (known v (keyed.clientId.trans (congrArg some client)))
  have inserted := insertion_exec lined accepted allowed (no_clash lined keyed fresh)
  have parsed : Sql.parseInsert l.insertion.tokens = some l.insertion := by
    have some' := names_ne_nil lined
    refine Sql.parseInsert_tokens some' (fun none => ?_) (List.cons_ne_nil _ _) some'
    have numbers : (placeholdersFrom 0 l.schema.columns).map Placeholder.number =
        List.range' 1 l.schema.columns.length := placeholdersFrom_numbers
    rw [show placeholdersFrom 0 l.schema.columns = [] from none] at numbers
    apply some'
    have lengths := congrArg List.length numbers
    rw [List.length_range', List.map_nil, List.length_nil] at lengths
    rw [Schema.names, List.map_eq_nil_iff, List.eq_nil_of_length_eq_zero lengths.symm]
  have other (r : Row V) (mem : r ∈ rows) : (Comparison.eq "id" 1).holds r (l.row js pg p "id") = false := by
    have free := fresh r mem
    rw [RecordLedger.Conflicts, keyed.id] at free
    push Not at free
    simp only [Comparison.holds, keyed.idSome, Bool.true_and, decide_eq_false_iff_not]
    exact fun same => free.1 (congrArg some same.symm)
  have byId : l.find js pg (l.findByIdText false) [l.id p] (rows ++ [l.row js pg p]) = some (some p) := by
    apply find_of_unique lined (lex_findByIdText lined false) (List.cons_ne_nil _ _) (by simp [Comparison.column])
      (by simp [Comparison.placeholder]) (by simp [Comparison.placeholder])
      (by simp [Comparison.column, Comparison.placeholder, idType, keyed.id])
      (by simp [Comparison.column, Comparison.holds, keyed.idSome]) _ back
    intro r mem
    exact ⟨_, List.mem_cons_self, other r mem⟩
  refine ⟨rows ++ [l.row js pg p], ?_, ?_, ?_⟩
  · rw [RecordLedger.createOrGetExisting, lex_insertText lined, parsed, Option.bind_some, inserted]
    simp only [back]
  · intro c which
    rw [RecordLedger.findById]
    cases filtered : truthy c with
    | false => exact byId
    | true =>
      have client : l.clientId p = c := by
        rcases which with rfl | rfl
        · cases filtered
        · rfl
      have some' := keyed.clientSome.1 fun null => by
        rw [← client, null] at filtered
        cases filtered
      apply find_of_unique lined (lex_findByIdText lined true) (List.cons_ne_nil _ _)
        (by simp [Comparison.column]) (by simp [Comparison.placeholder]) _ _ _ _ back
      · intro n lt
        simp only [if_true, List.length_cons, List.length_nil] at lt
        simp only [if_true, List.map_cons, List.map_nil, Comparison.placeholder, List.mem_cons, List.not_mem_nil,
          or_false]
        omega
      · simp [Comparison.column, Comparison.placeholder, idType, clientType, keyed.id, ← client, keyed.clientId]
      · simp [Comparison.column, Comparison.holds, keyed.idSome, some']
      · intro r mem
        exact ⟨_, List.mem_cons_self, other r mem⟩
  · intro apart
    apply find_of_unique lined (lex_findByExternalIdText lined) (List.cons_ne_nil _ _)
      (by simp [Comparison.column]) (by simp [Comparison.placeholder]) _ _ _ _ back
    · intro n lt
      simp only [List.length_cons, List.length_nil] at lt
      simp only [List.map_cons, List.map_nil, Comparison.placeholder, List.mem_cons, List.not_mem_nil, or_false]
      omega
    · simp [Comparison.column, Comparison.placeholder, externalType, clientType, keyed.externalId, keyed.clientId]
    · simp [Comparison.column, Comparison.holds, keyed.externalSome]
    · -- another row differs in the client or else in the external id
      intro r mem
      have free := apart r mem
      rw [RecordLedger.SameExternal, keyed.clientId, keyed.externalId] at free
      by_cases same : r "client_id" = l.row js pg p "client_id"
      · have differ : r "external_id" ≠ l.row js pg p "external_id" := fun same' =>
          free ⟨congrArg some same.symm, congrArg some same'.symm⟩
        refine ⟨_, List.mem_cons_self, ?_⟩
        simp [Comparison.holds, Comparison.column, keyed.externalSome, differ]
      · exact ⟨_, List.mem_cons_of_mem _ List.mem_cons_self, decide_eq_false same⟩

end

/-! ## Fields -/

section
variable {schema : Schema SqlType} {c : String} {type : SqlType} {x : JsValue J}

/-- What the driver shows of a time. -/
def asDate (js : Script J) : JsValue J → JsValue J
  | .string s => match js.parseDate s with
    | some t => .date t
    | none => .undefined
  | x => x

/-- A value of a column that is neither a time nor JSON is shown as it is. -/
lemma Is.accepts (faithful : pg.Faithful js) (is : Is js type x) (plain : type ≠ .timestamptz ∧ type ≠ .jsonb) :
    pg.Accepts schema (c, type) (x, x) := by
  have echoes : pg.Echoes type x x := by
    cases type with
    | uuid =>
      obtain ⟨s, rfl, canonical⟩ := is
      exact faithful.uuid s canonical
    | text =>
      obtain ⟨s, rfl, noNul⟩ := is
      exact faithful.text s noNul
    | integer =>
      obtain ⟨n, rfl, low, high⟩ := is
      exact faithful.integer n low high
    | timestamptz => exact absurd rfl plain.1
    | jsonb => exact absurd rfl plain.2
  obtain ⟨v, read, same⟩ := echoes
  exact ⟨some v, read, same, fun _ => rfl⟩

/-- A time is shown as a date. -/
lemma Is.accepts_time (faithful : pg.Faithful js) (is : Is js .timestamptz x) :
    pg.Accepts schema (c, .timestamptz) (x, asDate js x) := by
  obtain ⟨t, rfl, iso⟩ := is
  obtain ⟨v, read, same⟩ := faithful.timestamptz t iso
  refine ⟨some v, read, same.trans ?_, fun _ => rfl⟩
  rw [asDate, js.parseDate_toISOString t iso]

/-- A JSON value is shown as it is. -/
lemma Is.accepts_json (faithful : pg.Faithful js) (is : Is js .jsonb x) :
    pg.Accepts schema (c, .jsonb) (js.stringify x, x) := by
  obtain ⟨v, rfl⟩ := is
  obtain ⟨w, read, same⟩ := faithful.jsonb v
  exact ⟨some w, read, same, fun _ => rfl⟩

/-- `NULL` is shown as `null`, where it is allowed. -/
lemma accepts_null (faithful : pg.Faithful js) (optional : c ∉ schema.required) :
    pg.Accepts schema (c, type) (.null, .null) :=
  ⟨none, faithful.null type, rfl, fun required => absurd required optional⟩

/-- A value that may be missing is shown as it is. -/
lemma Maybe.accepts (faithful : pg.Faithful js) (is : Maybe js type x)
    (plain : type ≠ .timestamptz ∧ type ≠ .jsonb) (optional : c ∉ schema.required) :
    pg.Accepts schema (c, type) (x, x) := by
  rcases is with rfl | is
  · exact accepts_null faithful optional
  · exact is.accepts faithful plain

/-- A time that may be missing is shown as a date. -/
lemma Maybe.accepts_time (faithful : pg.Faithful js) (is : Maybe js .timestamptz x)
    (optional : c ∉ schema.required) :
    pg.Accepts schema (c, .timestamptz) (nullish x .null, asDate js x) := by
  rcases is with rfl | is
  · exact accepts_null faithful optional
  · have same : nullish x .null = x := by
      obtain ⟨t, rfl, -⟩ := is
      rfl
    rw [same]
    exact is.accepts_time faithful

/-- A time comes back as its text. -/
lemma Is.requireIso (is : Is js .timestamptz x) : requireIso js (asDate js x) = some x := by
  obtain ⟨t, rfl, iso⟩ := is
  simp [asDate, js.parseDate_toISOString t iso, Database.requireIso, toIso, nullish]

/-- The date that is shown for a time is read back. -/
lemma Maybe.toIso (is : Maybe js .timestamptz x) : toIso js (asDate js x) = some x := by
  rcases is with rfl | ⟨t, rfl, iso⟩
  · rfl
  · simp [asDate, js.parseDate_toISOString t iso, Database.toIso]

/-- A value that may be `null` is not `undefined`. -/
lemma Maybe.nullish (is : Maybe js type x) : nullish x .null = x := by
  rcases is with rfl | is
  · rfl
  · cases type <;> obtain ⟨_, rfl, _⟩ := is <;> rfl

/-- A JSON value is not missing. -/
lemma Is.nullish {d : JsValue J} (is : Is js .jsonb x) : nullish x d = x := by
  obtain ⟨v, rfl⟩ := is
  rfl

/-- An integer is a number. -/
lemma Is.toNumber (is : Is js .integer x) : js.toNumber x = x := by
  obtain ⟨n, rfl, -⟩ := is
  exact js.toNumber_number n

end

/-! ## Ledgers -/

/-- What the driver shows of a pay-in. -/
def payInShown (js : Script J) (p : PayInRecord J) : List (JsValue J) :=
  [p.id, p.clientId, p.externalId, p.chainFlowRequestId, p.status, p.network, p.chainId, p.asset,
   p.tokenAddress, p.collectionMode, p.depositAddress, p.derivationIndex, p.routerAddress,
   p.routerInvoiceId, p.expectedAmount, p.expectedAmountAtomic, p.receivedAmount, p.receivedAmountAtomic,
   p.sweepStatus, p.sweepTransactionHash, p.sweptAmount, p.sweptAmountAtomic, asDate js p.sweptAt,
   p.sweepFailureReason, p.startBlock, p.lastScannedBlock, asDate js p.expiresAt, asDate js p.acceptedAt,
   p.acceptanceNote, p.metadata, p.transfers, asDate js p.detectedAt, asDate js p.confirmedAt,
   asDate js p.createdAt, asDate js p.updatedAt]

/-- The values of a well-formed pay-in are accepted. -/
lemma payIn_accepted {p : PayInRecord J} (faithful : pg.Faithful js) (wf : p.WellFormed js) :
    (payInLedger J).Accepted js pg p (payInShown js p) := by
  refine ⟨rfl, ?_⟩
  change List.Forall₂ (pg.Accepts payInSchema) payInSchema.columns _
  refine .cons (wf.id.accepts faithful ⟨nofun, nofun⟩) ?_
  refine .cons (wf.clientId.accepts faithful ⟨nofun, nofun⟩ (by decide)) ?_
  refine .cons (wf.externalId.accepts faithful ⟨nofun, nofun⟩) ?_
  refine .cons (wf.chainFlowRequestId.accepts faithful ⟨nofun, nofun⟩ (by decide)) ?_
  refine .cons (wf.status.accepts faithful ⟨nofun, nofun⟩) ?_
  refine .cons (wf.network.accepts faithful ⟨nofun, nofun⟩) ?_
  refine .cons (wf.chainId.accepts faithful ⟨nofun, nofun⟩) ?_
  refine .cons (wf.asset.accepts faithful ⟨nofun, nofun⟩) ?_
  refine .cons (wf.tokenAddress.accepts faithful ⟨nofun, nofun⟩) ?_
  refine .cons (wf.collectionMode.accepts faithful ⟨nofun, nofun⟩) ?_
  refine .cons (wf.depositAddress.accepts faithful ⟨nofun, nofun⟩) ?_
  refine .cons (wf.derivationIndex.accepts faithful ⟨nofun, nofun⟩) ?_
  refine .cons (wf.routerAddress.accepts faithful ⟨nofun, nofun⟩ (by decide)) ?_
  refine .cons (wf.routerInvoiceId.accepts faithful ⟨nofun, nofun⟩ (by decide)) ?_
  refine .cons (wf.expectedAmount.accepts faithful ⟨nofun, nofun⟩) ?_
  refine .cons (wf.expectedAmountAtomic.accepts faithful ⟨nofun, nofun⟩) ?_
  refine .cons (wf.receivedAmount.accepts faithful ⟨nofun, nofun⟩) ?_
  refine .cons (wf.receivedAmountAtomic.accepts faithful ⟨nofun, nofun⟩) ?_
  refine .cons (wf.sweepStatus.accepts faithful ⟨nofun, nofun⟩) ?_
  refine .cons (wf.sweepTransactionHash.accepts faithful ⟨nofun, nofun⟩ (by decide)) ?_
  refine .cons (wf.sweptAmount.accepts faithful ⟨nofun, nofun⟩) ?_
  refine .cons (wf.sweptAmountAtomic.accepts faithful ⟨nofun, nofun⟩) ?_
  refine .cons (wf.sweptAt.accepts_time faithful (by decide)) ?_
  refine .cons (wf.sweepFailureReason.accepts faithful ⟨nofun, nofun⟩ (by decide)) ?_
  refine .cons (wf.startBlock.accepts faithful ⟨nofun, nofun⟩) ?_
  refine .cons (wf.lastScannedBlock.accepts faithful ⟨nofun, nofun⟩ (by decide)) ?_
  refine .cons (wf.expiresAt.accepts_time faithful (by decide)) ?_
  refine .cons (wf.acceptedAt.accepts_time faithful (by decide)) ?_
  refine .cons (wf.acceptanceNote.accepts faithful ⟨nofun, nofun⟩ (by decide)) ?_
  refine .cons (wf.metadata.accepts_json faithful) ?_
  refine .cons (wf.transfers.accepts_json faithful) ?_
  refine .cons (wf.detectedAt.accepts_time faithful (by decide)) ?_
  refine .cons (wf.confirmedAt.accepts_time faithful (by decide)) ?_
  refine .cons (wf.createdAt.accepts_time faithful) ?_
  refine .cons (wf.updatedAt.accepts_time faithful) ?_
  exact .nil

/-- The mapper gives back what was written. -/
lemma payIn_back {p : PayInRecord J} (faithful : pg.Faithful js) (wf : p.WellFormed js) :
    (payInLedger J).fromRow js (pg.fetch (payInLedger J).schema
      ((payInLedger J).schema.names.map fun c => (c, (payInLedger J).row js pg p c))) = some p := by
  have field (k : Nat) {c : String} {type : SqlType} {y : JsValue J}
      (column : payInSchema.columns[k]? = some (c, type)) (value : (payInShown js p)[k]? = some y) :
      pg.fetch (payInLedger J).schema
        ((payInLedger J).schema.names.map fun c => (c, (payInLedger J).row js pg p c)) c = y :=
    fetch_at payInLedger_lined (payIn_accepted faithful wf) column value
  generalize pg.fetch (payInLedger J).schema
    ((payInLedger J).schema.names.map fun c => (c, (payInLedger J).row js pg p c)) = row at field
  change rowToPayIn js row = some p
  rw [rowToPayIn,
    field 0 rfl rfl, field 1 rfl rfl, field 2 rfl rfl, field 3 rfl rfl, field 4 rfl rfl, field 5 rfl rfl,
    field 6 rfl rfl, field 7 rfl rfl, field 8 rfl rfl, field 9 rfl rfl, field 10 rfl rfl, field 11 rfl rfl,
    field 12 rfl rfl, field 13 rfl rfl, field 14 rfl rfl, field 15 rfl rfl, field 16 rfl rfl,
    field 17 rfl rfl, field 18 rfl rfl, field 19 rfl rfl, field 20 rfl rfl, field 21 rfl rfl,
    field 22 rfl rfl, field 23 rfl rfl, field 24 rfl rfl, field 25 rfl rfl, field 26 rfl rfl,
    field 27 rfl rfl, field 28 rfl rfl, field 29 rfl rfl, field 30 rfl rfl, field 31 rfl rfl,
    field 32 rfl rfl, field 33 rfl rfl, field 34 rfl rfl]
  simp only [wf.clientId.nullish, wf.chainFlowRequestId.nullish, wf.chainId.toNumber, wf.derivationIndex.toNumber,
    wf.routerAddress.nullish, wf.routerInvoiceId.nullish, wf.sweepTransactionHash.nullish,
    wf.sweptAt.toIso, wf.sweepFailureReason.nullish, wf.lastScannedBlock.nullish, wf.expiresAt.toIso,
    wf.acceptedAt.toIso, wf.acceptanceNote.nullish, wf.metadata.nullish, wf.transfers.nullish,
    wf.detectedAt.toIso, wf.confirmedAt.toIso, wf.createdAt.requireIso, wf.updatedAt.requireIso]
  rfl

/-- What the driver shows of a payout. -/
def payoutShown (js : Script J) (p : PayoutRecord J) : List (JsValue J) :=
  [p.id, p.clientId, p.externalId, p.chainFlowRequestId, p.status, p.network, p.chainId, p.asset,
   p.tokenAddress, p.amount, p.amountAtomic, p.beneficiaryAddress, p.beneficiaryName, p.treasuryAddress,
   p.transactionHash, p.failureReason, p.memo, p.metadata, asDate js p.authorizedAt,
   asDate js p.broadcastedAt, asDate js p.confirmedAt, asDate js p.createdAt, asDate js p.updatedAt]

/-- The values of a well-formed payout are accepted. -/
lemma payout_accepted {p : PayoutRecord J} (faithful : pg.Faithful js) (wf : p.WellFormed js) :
    (payoutLedger J).Accepted js pg p (payoutShown js p) := by
  refine ⟨rfl, ?_⟩
  change List.Forall₂ (pg.Accepts payoutSchema) payoutSchema.columns _
  refine .cons (wf.id.accepts faithful ⟨nofun, nofun⟩) ?_
  refine .cons (wf.clientId.accepts faithful ⟨nofun, nofun⟩ (by decide)) ?_
  refine .cons (wf.externalId.accepts faithful ⟨nofun, nofun⟩) ?_
  refine .cons (wf.chainFlowRequestId.accepts faithful ⟨nofun, nofun⟩ (by decide)) ?_
  refine .cons (wf.status.accepts faithful ⟨nofun, nofun⟩) ?_
  refine .cons (wf.network.accepts faithful ⟨nofun, nofun⟩) ?_
  refine .cons (wf.chainId.accepts faithful ⟨nofun, nofun⟩) ?_
  refine .cons (wf.asset.accepts faithful ⟨nofun, nofun⟩) ?_
  refine .cons (wf.tokenAddress.accepts faithful ⟨nofun, nofun⟩) ?_
  refine .cons (wf.amount.accepts faithful ⟨nofun, nofun⟩) ?_
  refine .cons (wf.amountAtomic.accepts faithful ⟨nofun, nofun⟩) ?_
  refine .cons (wf.beneficiaryAddress.accepts faithful ⟨nofun, nofun⟩) ?_
  refine .cons (wf.beneficiaryName.accepts faithful ⟨nofun, nofun⟩ (by decide)) ?_
  refine .cons (wf.treasuryAddress.accepts faithful ⟨nofun, nofun⟩ (by decide)) ?_
  refine .cons (wf.transactionHash.accepts faithful ⟨nofun, nofun⟩ (by decide)) ?_
  refine .cons (wf.failureReason.accepts faithful ⟨nofun, nofun⟩ (by decide)) ?_
  refine .cons (wf.memo.accepts faithful ⟨nofun, nofun⟩ (by decide)) ?_
  refine .cons (wf.metadata.accepts_json faithful) ?_
  refine .cons (wf.authorizedAt.accepts_time faithful (by decide)) ?_
  refine .cons (wf.broadcastedAt.accepts_time faithful (by decide)) ?_
  refine .cons (wf.confirmedAt.accepts_time faithful (by decide)) ?_
  refine .cons (wf.createdAt.accepts_time faithful) ?_
  refine .cons (wf.updatedAt.accepts_time faithful) ?_
  exact .nil

/-- The mapper gives back what was written. -/
lemma payout_back {p : PayoutRecord J} (faithful : pg.Faithful js) (wf : p.WellFormed js) :
    (payoutLedger J).fromRow js (pg.fetch (payoutLedger J).schema
      ((payoutLedger J).schema.names.map fun c => (c, (payoutLedger J).row js pg p c))) = some p := by
  have field (k : Nat) {c : String} {type : SqlType} {y : JsValue J}
      (column : payoutSchema.columns[k]? = some (c, type)) (value : (payoutShown js p)[k]? = some y) :
      pg.fetch (payoutLedger J).schema
        ((payoutLedger J).schema.names.map fun c => (c, (payoutLedger J).row js pg p c)) c = y :=
    fetch_at payoutLedger_lined (payout_accepted faithful wf) column value
  generalize pg.fetch (payoutLedger J).schema
    ((payoutLedger J).schema.names.map fun c => (c, (payoutLedger J).row js pg p c)) = row at field
  change rowToPayout js row = some p
  rw [rowToPayout,
    field 0 rfl rfl, field 1 rfl rfl, field 2 rfl rfl, field 3 rfl rfl, field 4 rfl rfl, field 5 rfl rfl,
    field 6 rfl rfl, field 7 rfl rfl, field 8 rfl rfl, field 9 rfl rfl, field 10 rfl rfl, field 11 rfl rfl,
    field 12 rfl rfl, field 13 rfl rfl, field 14 rfl rfl, field 15 rfl rfl, field 16 rfl rfl,
    field 17 rfl rfl, field 18 rfl rfl, field 19 rfl rfl, field 20 rfl rfl, field 21 rfl rfl,
    field 22 rfl rfl]
  simp only [wf.clientId.nullish, wf.chainFlowRequestId.nullish, wf.chainId.toNumber, wf.beneficiaryName.nullish,
    wf.treasuryAddress.nullish, wf.transactionHash.nullish, wf.failureReason.nullish, wf.memo.nullish,
    wf.metadata.nullish, wf.authorizedAt.toIso, wf.broadcastedAt.toIso, wf.confirmedAt.toIso,
    wf.createdAt.requireIso, wf.updatedAt.requireIso]
  rfl

/-- Well-formed records survive storage in a table without a conflicting row, where the client exists. -/
theorem records_survive [DecidableEq V] (faithful : pg.Faithful js) (clients : List V) :
    (∀ (p : PayInRecord J) (rows : List (Row V)), p.WellFormed js →
      (∀ v, pg.input .uuid p.clientId = some (some v) → v ∈ clients) →
      (∀ r ∈ rows, ¬ (payInLedger J).Conflicts pg p r) → (payInLedger J).Survives js pg clients p rows) ∧
    ∀ (p : PayoutRecord J) (rows : List (Row V)), p.WellFormed js →
      (∀ v, pg.input .uuid p.clientId = some (some v) → v ∈ clients) →
      (∀ r ∈ rows, ¬ (payoutLedger J).Conflicts pg p r) → (payoutLedger J).Survives js pg clients p rows := by
  constructor
  · intro p rows wf known fresh
    have accepted := payIn_accepted faithful wf
    have keys := keyed payInLedger_lined faithful accepted wf.id wf.clientId wf.externalId
    exact survives payInLedger_lined accepted keys (payIn_back faithful wf) known fresh
  · intro p rows wf known fresh
    have accepted := payout_accepted faithful wf
    have keys := keyed payoutLedger_lined faithful accepted wf.id wf.clientId wf.externalId
    exact survives payoutLedger_lined accepted keys (payout_back faithful wf) known fresh

/-- The values `{}` and `[]`. -/
inductive EmptyJson : Type where
  | object
  | array
  deriving DecidableEq

/-- The text of the epoch. -/
def epoch : String := "1970-01-01T00:00:00.000Z"

/-- The first time that is written with a year of four digits. -/
def firstTime : Int := -62135596800000

/-- A numeral is not the text of the epoch. -/
lemma repr_ne_epoch {n : Nat} : n.repr ≠ epoch := by
  intro eq
  have letter : '-' ∈ n.repr.toList := by
    rw [eq]
    decide
  cases Sql.isDigit_of_mem_repr letter

/-- Library functions for the epoch and empty JSON values. Other times are written as their distance to the
    first. -/
def epochScript : Script EmptyJson where
  stringify
    | .json .object => .string "\x7b\x7d"
    | .json .array => .string "[]"
    | x => x
  toISOString t := if t = 0 then epoch else (t - firstTime).toNat.repr
  parseDate s := if s = epoch then some 0 else some (Nat.ofDigitChars 10 s.toList 0 + firstTime)
  toNumber x := x
  now := 0
  emptyObject := .object
  emptyArray := .array
  toNumber_number _ := rfl
  parseDate_toISOString t iso := by
    by_cases zero : t = 0
    · rw [if_pos zero, if_pos rfl, zero]
    · have low := iso.1
      rw [if_neg zero, if_neg repr_ne_epoch, Nat.toList_repr, Nat.ofDigitChars_ten_toDigits]
      simp only [firstTime, Option.some.injEq]
      omega
  toISOString_ne_empty t _ := by
    split
    · decide
    · exact Sql.repr_ne_empty

/-- A server that keeps what it is given. -/
def echoServer : Postgres EmptyJson (JsValue EmptyJson) where
  input
    | _, .null => some none
    | .timestamptz, .string s => (epochScript.parseDate s).map fun t => some (.date t)
    | .jsonb, .string s => some (some (.json (if s = "[]" then .array else .object)))
    | _, x => some (some x)
  output _ x := x

/-- The server that echoes its values is faithful. -/
lemma echoServer_faithful : echoServer.Faithful epochScript where
  null type := by cases type <;> rfl
  uuid s _ := ⟨_, rfl, rfl⟩
  text s _ := ⟨_, rfl, rfl⟩
  integer n _ _ := ⟨_, rfl, rfl⟩
  timestamptz t iso := by
    refine ⟨.date t, ?_, rfl⟩
    change (epochScript.parseDate _).map _ = _
    rw [epochScript.parseDate_toISOString t iso]
    rfl
  jsonb v := by
    cases v with
    | object => exact ⟨.json .object, rfl, rfl⟩
    | array => exact ⟨.json .array, rfl, rfl⟩

/-- A pay-in of a client that was paid at the router at the epoch. -/
def epochPayIn : PayInRecord EmptyJson where
  id := .string "00000000-0000-4000-8000-000000000000"
  clientId := .string "00000000-0000-4000-8000-00000000000a"
  externalId := .string "inv-1"
  chainFlowRequestId := .string "1"
  status := .string "confirmed"
  network := .string "avalanche-fuji"
  chainId := .number 43113
  asset := .string "USDC"
  tokenAddress := .string "0x0a"
  expectedAmount := .string "1"
  expectedAmountAtomic := .string "1000000"
  receivedAmount := .string "1"
  receivedAmountAtomic := .string "1000000"
  depositAddress := .string "0x0b"
  derivationIndex := .number (-1)
  collectionMode := .string "payment-router"
  routerAddress := .string "0x0b"
  routerInvoiceId := .string "0x0c"
  startBlock := .string "7"
  lastScannedBlock := .string "9"
  expiresAt := .string epoch
  metadata := .json .object
  transfers := .json .array
  sweepStatus := .string "not_required"
  sweepTransactionHash := .null
  sweptAmount := .string "0"
  sweptAmountAtomic := .string "0"
  sweptAt := .null
  sweepFailureReason := .null
  createdAt := .string epoch
  updatedAt := .string epoch
  detectedAt := .string epoch
  confirmedAt := .string epoch
  acceptedAt := .null
  acceptanceNote := .null

/-- A pay-in of another client under the same external id. -/
def otherPayIn : PayInRecord EmptyJson :=
  { epochPayIn with
    id := .string "00000000-0000-4000-8000-000000000001"
    clientId := .string "00000000-0000-4000-8000-00000000000b" }

/-- The clients that are known. -/
def clients : List (JsValue EmptyJson) := [epochPayIn.clientId, otherPayIn.clientId]

/-- The epoch is the text of a time. -/
lemma isTime_epoch : Is epochScript .timestamptz (.string epoch) := ⟨0, rfl, by decide, by decide⟩

/-- The sample pay-in is well-formed. -/
lemma epochPayIn_wellFormed : epochPayIn.WellFormed epochScript where
  id := ⟨_, rfl, by decide⟩
  clientId := .inr ⟨_, rfl, by decide⟩
  externalId := ⟨_, rfl, by decide⟩
  chainFlowRequestId := .inr ⟨_, rfl, by decide⟩
  status := ⟨_, rfl, by decide⟩
  network := ⟨_, rfl, by decide⟩
  chainId := ⟨_, rfl, by decide, by decide⟩
  asset := ⟨_, rfl, by decide⟩
  tokenAddress := ⟨_, rfl, by decide⟩
  expectedAmount := ⟨_, rfl, by decide⟩
  expectedAmountAtomic := ⟨_, rfl, by decide⟩
  receivedAmount := ⟨_, rfl, by decide⟩
  receivedAmountAtomic := ⟨_, rfl, by decide⟩
  depositAddress := ⟨_, rfl, by decide⟩
  derivationIndex := ⟨_, rfl, by decide, by decide⟩
  collectionMode := ⟨_, rfl, by decide⟩
  routerAddress := .inr ⟨_, rfl, by decide⟩
  routerInvoiceId := .inr ⟨_, rfl, by decide⟩
  startBlock := ⟨_, rfl, by decide⟩
  lastScannedBlock := .inr ⟨_, rfl, by decide⟩
  expiresAt := .inr isTime_epoch
  metadata := ⟨_, rfl⟩
  transfers := ⟨_, rfl⟩
  sweepStatus := ⟨_, rfl, by decide⟩
  sweepTransactionHash := .inl rfl
  sweptAmount := ⟨_, rfl, by decide⟩
  sweptAmountAtomic := ⟨_, rfl, by decide⟩
  sweptAt := .inl rfl
  sweepFailureReason := .inl rfl
  createdAt := isTime_epoch
  updatedAt := isTime_epoch
  detectedAt := .inr isTime_epoch
  confirmedAt := .inr isTime_epoch
  acceptedAt := .inl rfl
  acceptanceNote := .inl rfl

/-- The row of the other client has another id and another client. -/
lemma not_conflicts_otherPayIn : ¬ (payInLedger EmptyJson).Conflicts echoServer epochPayIn
    ((payInLedger EmptyJson).row epochScript echoServer otherPayIn) := by
  have ids : (payInLedger EmptyJson).row epochScript echoServer otherPayIn "id" = some otherPayIn.id ∧
      (payInLedger EmptyJson).row epochScript echoServer otherPayIn "client_id" = some otherPayIn.clientId := by
    decide +kernel
  rw [RecordLedger.Conflicts, RecordLedger.SameExternal, ids.1, ids.2]
  rintro (same | ⟨-, same, -⟩)
  · exact absurd same (by decide)
  · exact absurd same (by decide)

/-- A payout of nobody, prepared at the epoch. -/
def epochPayout : PayoutRecord EmptyJson where
  id := .string "00000000-0000-4000-8000-000000000000"
  clientId := .null
  externalId := .string "a"
  chainFlowRequestId := .null
  status := .string "prepared"
  network := .string "avalanche-fuji"
  chainId := .number 43113
  asset := .string "USDC"
  tokenAddress := .string "0x0a"
  amount := .string "1"
  amountAtomic := .string "1000000"
  beneficiaryAddress := .string "0x0b"
  beneficiaryName := .null
  treasuryAddress := .null
  transactionHash := .null
  failureReason := .null
  memo := .null
  metadata := .json .object
  createdAt := .string epoch
  updatedAt := .string epoch
  authorizedAt := .null
  broadcastedAt := .null
  confirmedAt := .null

/-- The sample payout is well-formed. -/
lemma epochPayout_wellFormed : epochPayout.WellFormed epochScript where
  id := ⟨_, rfl, by decide⟩
  clientId := .inl rfl
  externalId := ⟨_, rfl, by decide⟩
  chainFlowRequestId := .inl rfl
  status := ⟨_, rfl, by decide⟩
  network := ⟨_, rfl, by decide⟩
  chainId := ⟨_, rfl, by decide, by decide⟩
  asset := ⟨_, rfl, by decide⟩
  tokenAddress := ⟨_, rfl, by decide⟩
  amount := ⟨_, rfl, by decide⟩
  amountAtomic := ⟨_, rfl, by decide⟩
  beneficiaryAddress := ⟨_, rfl, by decide⟩
  beneficiaryName := .inl rfl
  treasuryAddress := .inl rfl
  transactionHash := .inl rfl
  failureReason := .inl rfl
  memo := .inl rfl
  metadata := ⟨_, rfl⟩
  createdAt := isTime_epoch
  updatedAt := isTime_epoch
  authorizedAt := .inl rfl
  broadcastedAt := .inl rfl
  confirmedAt := .inl rfl

/-- A pay-in is inserted beside one of another client, and a payout of nobody into an empty table. -/
theorem epoch_records_survive :
    (payInLedger EmptyJson).Survives epochScript echoServer clients epochPayIn
        [(payInLedger EmptyJson).row epochScript echoServer otherPayIn] ∧
      (payoutLedger EmptyJson).Survives epochScript echoServer clients epochPayout [] := by
  constructor
  · refine (records_survive echoServer_faithful clients).1 epochPayIn _ epochPayIn_wellFormed
      (fun v read => ?_) fun r mem => ?_
    · cases read
      exact List.mem_cons_self
    · rw [List.mem_singleton.1 mem]
      exact not_conflicts_otherPayIn
  · exact (records_survive echoServer_faithful clients).2 epochPayout [] epochPayout_wellFormed
      (fun _ read => by cases read) nofun

end AvaSettle.Database
