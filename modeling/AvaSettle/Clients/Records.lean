import AvaSettle.Data.Table
import AvaSettle.Model.Basic

/-!
# Clients

The records of the clients: a client as `ClientsRepository` returns it, and the row of
`avasettle_clients`, which also holds the hash of its API key.
-/

namespace AvaSettle.Clients

/-- `ClientStatus`. -/
inductive ClientStatus : Type where
  | active
  | disabled
  deriving DecidableEq, Repr

/-- `ClientRecord`. -/
structure ClientRecord where
  id : Uuid
  name : String
  status : ClientStatus
  apiKeyPrefix : String
  webhookUrl : Option String
  webhookSecret : Option String
  metadata : Json
  createdAt : Timestamp
  updatedAt : Timestamp

/-- A row of `avasettle_clients`. -/
structure ClientRow extends ClientRecord where
  apiKeyHash : String

/-- The client in the first example runs. -/
def ClientRow.sample : ClientRow where
  id := "client"
  name := "Client A"
  status := .active
  apiKeyPrefix := "avk_00000000"
  webhookUrl := some "https://example.com/webhook"
  webhookSecret := none
  metadata := .obj []
  createdAt := 0
  updatedAt := 0
  apiKeyHash := "hash"

/-- The ids of the sample table differ. -/
lemma ClientRow.nodup_sample : ([ClientRow.sample].map fun r => r.id).Nodup := by simp

end AvaSettle.Clients
