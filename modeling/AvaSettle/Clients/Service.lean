import AvaSettle.Clients.World

/-!
# ClientsService

Creating, updating and reading clients, rotating their API keys, and resolving a key to the client that
it belongs to, through the cache of the instance.
-/

namespace AvaSettle.Clients
open Async (Prog Hist Event Machine)

/-- `CreateClientDto`. -/
structure CreateClientDto where
  name : String
  webhookUrl : Option String
  webhookSecret : Option String
  metadata : Option Json

/-- `UpdateClientDto`. -/
abbrev UpdateClientDto := ClientPatch

/-- `ClientResponse`. -/
structure ClientResponse where
  id : Uuid
  name : String
  status : ClientStatus
  apiKeyPrefix : String
  webhookUrl : Option String
  metadata : Json
  createdAt : Timestamp
  updatedAt : Timestamp
  webhookSecretConfigured : Bool

/-- `ClientWithApiKey`. -/
structure ClientWithApiKey extends ClientResponse where
  apiKey : String

/-- `toResponse`. -/
def toResponse (client : ClientRecord) : ClientResponse where
  id := client.id
  name := client.name
  status := client.status
  apiKeyPrefix := client.apiKeyPrefix
  webhookUrl := client.webhookUrl
  metadata := client.metadata
  createdAt := client.createdAt
  updatedAt := client.updatedAt
  webhookSecretConfigured := (truthy client.webhookSecret).isSome

/-- What `generateApiKey` returns. -/
structure GeneratedKey where
  apiKey : String
  apiKeyHash : String
  apiKeyPrefix : String

/-- `API_KEY_PREFIX`. -/
def keyPrefix : String := "avk_"

section
variable (hashApiKey : String → String)

/-- `generateApiKey`, where the random bytes are in hexadecimal. -/
def generateApiKey : Method GeneratedKey := do
  let bytes ← request .randomBytes
  let apiKey := keyPrefix ++ bytes
  return ⟨apiKey, hashApiKey apiKey, String.ofList (apiKey.toList.take (keyPrefix.length + 8))⟩

/-- `requireClient`. -/
def requireClient (id : Uuid) : Method ClientRecord := do
  let client ← request (.findById id)
  Prog.orThrow (.notFound "Client not found.") client

/-- `createClient`. -/
def createClient (dto : CreateClientDto) : Method ClientWithApiKey := do
  let key ← generateApiKey hashApiKey
  let id ← request .randomUUID
  let client ← request (.insert {
    id
    name := dto.name
    apiKeyHash := key.apiKeyHash
    apiKeyPrefix := key.apiKeyPrefix
    webhookUrl := dto.webhookUrl
    webhookSecret := dto.webhookSecret
    metadata := dto.metadata.getD (.obj []) })
  return { toResponse client with apiKey := key.apiKey }

/-- `listClients`. -/
def listClients : Method (List ClientResponse) := do
  let clients ← request .list
  return clients.map toResponse

/-- `getClient`. -/
def getClient (id : Uuid) : Method ClientResponse := do
  let client ← requireClient id
  return toResponse client

/-- `updateClient`. -/
def updateClient (id : Uuid) (dto : UpdateClientDto) : Method ClientResponse := do
  let _ ← requireClient id
  let updated ← request (.update id dto)
  let updated ← Prog.orThrow (.notFound "Client not found.") updated
  request .cacheClear
  return toResponse updated

/-- `rotateApiKey`. -/
def rotateApiKey (id : Uuid) : Method ClientWithApiKey := do
  let _ ← requireClient id
  let key ← generateApiKey hashApiKey
  let updated ← request (.rotateApiKey id key.apiKeyHash key.apiKeyPrefix)
  let updated ← Prog.orThrow (.notFound "Client not found.") updated
  request .cacheClear
  return { toResponse updated with apiKey := key.apiKey }

/-- `resolveActiveClientByApiKey`. -/
def resolveActiveClientByApiKey (apiKey : String) : Method (Option ClientRecord) := do
  let hash := hashApiKey apiKey
  match ← request (.cacheGet hash) with
  | some cached => return some cached
  | none =>
    let client ← request (.findActiveByApiKeyHash hash)
    match client with
    | some client => request (.cacheSet hash client)
    | none => request (.cacheDelete hash)
    return client

/-- The calls that are made on the instance. -/
inductive Entry : Method Unit → Prop where
  | create {dto} : Entry (Prog.discard (createClient hashApiKey dto))
  | list : Entry (Prog.discard listClients)
  | get {id} : Entry (Prog.discard (getClient id))
  | update {id dto} : Entry (Prog.discard (updateClient id dto))
  | rotate {id} : Entry (Prog.discard (rotateApiKey hashApiKey id))
  | resolve {apiKey} : Entry (Prog.discard (resolveActiveClientByApiKey hashApiKey apiKey))

/-- The calls on one instance. -/
def machine : Machine Api World where
  exec := World.exec
  raises := Call.raises
  env := World.Env
  entry := Entry hashApiKey

end

end AvaSettle.Clients
