import AvaSettle.Async.Schedule
import AvaSettle.Clients.Records
import AvaSettle.Model.Records

/-!
# The world of the clients

The table of the clients and the API key cache of one instance of `ClientsService`. `Call` lists the
queries that the service awaits, each one atomic step, and the pieces of code that use the cache, each
of which runs without an await in between. `journal` records, in their order, what has been written to
the table and what has been done to the cache; the service does not read it.
-/

namespace AvaSettle.Clients
open Async (Sig Prog Hist Event Machine)
open Data (Table Patch)

/-- The table of the clients. -/
abbrev ClientTable := Table (ρ := ClientRow) (fun r => r.id)

/-- An entry of `apiKeyCache`. -/
structure CacheEntry where
  client : ClientRecord
  expiresAt : Timestamp

/-- What is recorded of a run. -/
inductive Note : Type where
  /-- A row has been written, and this is what it is. -/
  | wrote (row : ClientRow)
  /-- A client has been put into the cache. -/
  | cached (hash : String) (client : ClientRecord)
  /-- The cache has been cleared. -/
  | cleared

/-- The table, and one instance. -/
structure World where
  clients : ClientTable
  apiKeyCache : String → Option CacheEntry
  now : Timestamp
  /-- What the random source of the instance yields next. -/
  nextUuid : Uuid
  nextBytes : String
  journal : List Note

/-- The patch of `ClientsRepository.update`. -/
structure ClientPatch where
  name : Option String := none
  status : Option ClientStatus := none
  webhookUrl : Option (Option String) := none
  webhookSecret : Option (Option String) := none
  metadata : Option Json := none

/-- The input of `ClientsRepository.insert`. -/
structure ClientInsert where
  id : Uuid
  name : String
  apiKeyHash : String
  apiKeyPrefix : String
  webhookUrl : Option String
  webhookSecret : Option String
  metadata : Json

/-! ## Awaited calls -/

/-- The operations of the service. -/
inductive Call : Type where
  | randomUUID
  | randomBytes
  | insert (input : ClientInsert)
  | findById (id : Uuid)
  | findActiveByApiKeyHash (apiKeyHash : String)
  | list
  | update (id : Uuid) (patch : ClientPatch)
  | rotateApiKey (id : Uuid) (apiKeyHash apiKeyPrefix : String)
  | cacheGet (hash : String)
  | cacheSet (hash : String) (client : ClientRecord)
  | cacheDelete (hash : String)
  | cacheClear

/-- The answer to each operation. -/
@[reducible] def Call.Res : Call → Type
  | .randomUUID => Uuid
  | .randomBytes => String
  | .insert _ => ClientRecord
  | .findById _ => Option ClientRecord
  | .findActiveByApiKeyHash _ => Option ClientRecord
  | .list => List ClientRecord
  | .update _ _ => Option ClientRecord
  | .rotateApiKey _ _ _ => Option ClientRecord
  | .cacheGet _ => Option ClientRecord
  | .cacheSet _ _ => Unit
  | .cacheDelete _ => Unit
  | .cacheClear => Unit

/-- The operations that are queries of the database. -/
def Call.isQuery : Call → Bool
  | .insert _ => true
  | .findById _ => true
  | .findActiveByApiKeyHash _ => true
  | .list => true
  | .update _ _ => true
  | .rotateApiKey _ _ _ => true
  | _ => false

/-- The signature of the service. -/
abbrev Api : Sig := ⟨Call, Call.Res, Exception⟩

/-- A method of the service. -/
abbrev Method (α : Type) := Prog Api α

/-- Await a call. -/
def request (c : Call) : Method c.Res :=
  @Prog.await Api c

/-- What a call can throw: a query throws the errors of the driver. -/
def Call.raises (c : Call) (e : Exception) : Bool := c.isQuery && e.isForeign

/-! ## Effects -/

/-- `API_KEY_CACHE_TTL_MS`. -/
def apiKeyCacheTtlMs : Nat := 30000

/-- `SET name = COALESCE($2, name), …`. -/
def ClientPatch.toPatch (p : ClientPatch) (now : Timestamp) :
    Patch (fun r : ClientRow => r.id) where
  apply r := { r with
    name := p.name.getD r.name
    status := p.status.getD r.status
    webhookUrl := p.webhookUrl.getD r.webhookUrl
    webhookSecret := p.webhookSecret.getD r.webhookSecret
    metadata := p.metadata.getD r.metadata
    updatedAt := now }
  key_apply _ := rfl

/-- `SET api_key_hash = $2, api_key_prefix = $3`. -/
def ClientRow.rekey (apiKeyHash apiKeyPrefix : String) (now : Timestamp) :
    Patch (fun r : ClientRow => r.id) where
  apply r := { r with apiKeyHash, apiKeyPrefix, updatedAt := now }
  key_apply _ := rfl

/-- The row that an insert writes. -/
def ClientInsert.toRow (i : ClientInsert) (now : Timestamp) : ClientRow where
  id := i.id
  name := i.name
  status := .active
  apiKeyHash := i.apiKeyHash
  apiKeyPrefix := i.apiKeyPrefix
  webhookUrl := i.webhookUrl
  webhookSecret := i.webhookSecret
  metadata := i.metadata
  createdAt := now
  updatedAt := now

namespace World

/-- `UPDATE avasettle_clients … WHERE id = $1 RETURNING …`. -/
def updateClient (w : World) (id : Uuid) (p : Patch (fun r : ClientRow => r.id)) :
    Option ClientRecord × World :=
  let r := w.clients.update id (fun _ => true) p
  (r.1.map ClientRow.toClientRecord,
    { w with clients := r.2, journal := w.journal ++ r.1.toList.map .wrote })

/-- Another client has the hash. -/
def isTaken (w : World) (id : Uuid) (apiKeyHash : String) : Bool :=
  w.clients.rows.any fun r => decide (r.apiKeyHash = apiKeyHash) && decide (r.id ≠ id)

/-- The row of an active client with the hash. -/
def findActive (w : World) (apiKeyHash : String) : Option ClientRow :=
  w.clients.rows.find? fun r => decide (r.apiKeyHash = apiKeyHash) && decide (r.status = .active)

/-- The effect and the answer of each operation; `none` where the operation can only throw. -/
def exec : (c : Call) → World → Option (c.Res × World)
  | .randomUUID, w => some (w.nextUuid, w)
  | .randomBytes, w => some (w.nextBytes, w)
  | .insert i, w =>
    if w.isTaken i.id i.apiKeyHash then none
    else (w.clients.insert (i.toRow w.now)).map fun t =>
      ((i.toRow w.now).toClientRecord,
        { w with clients := t, journal := w.journal ++ [.wrote (i.toRow w.now)] })
  | .findById id, w => some ((w.clients.find? id).map ClientRow.toClientRecord, w)
  | .findActiveByApiKeyHash hash, w => some ((w.findActive hash).map ClientRow.toClientRecord, w)
  | .list, w => some (w.clients.rows.map ClientRow.toClientRecord, w)
  | .update id p, w => some (w.updateClient id (p.toPatch w.now))
  | .rotateApiKey id hash keyPrefix, w =>
    if w.isTaken id hash && (w.clients.find? id).isSome then none
    else some (w.updateClient id (ClientRow.rekey hash keyPrefix w.now))
  | .cacheGet hash, w =>
    some (((w.apiKeyCache hash).filter fun e => decide (w.now < e.expiresAt)).map
      CacheEntry.client, w)
  | .cacheSet hash client, w =>
    some ((), { w with
      apiKeyCache := Function.update w.apiKeyCache hash
        (some ⟨client, w.now + apiKeyCacheTtlMs⟩)
      journal := w.journal ++ [.cached hash client] })
  | .cacheDelete hash, w =>
    some ((), { w with apiKeyCache := Function.update w.apiKeyCache hash none })
  | .cacheClear, w =>
    some ((), { w with
      apiKeyCache := fun _ => none
      journal := w.journal ++ [.cleared] })

/-- The environment moves: the clock and the random source change. -/
structure Env (w w' : World) : Prop where
  clients : w'.clients = w.clients
  apiKeyCache : w'.apiKeyCache = w.apiKeyCache
  journal : w'.journal = w.journal

end World

end AvaSettle.Clients
