import AvaSettle.Async.Yields
import AvaSettle.Data.Lists
import AvaSettle.Data.Shared
import AvaSettle.Model.Frame
import AvaSettle.Payins.Service

/-!
# Operations of one client

What a request of a client may do to the ledgers: look rows up within the client, insert rows of the
client, and write to rows that are under no other client. Such operations leave the rows of the other
clients alone, and answer with the client's rows only. An idempotency key is looked up by its text, so
that it matters that every stored key stands for a pay-in of the client in its prefix.
-/

namespace AvaSettle.Isolation
open Async
open Data (Table)
open Payins (namespacedKey)

/-! ## Client ids -/

/-- The text of a UUID. -/
def IsUuid (s : String) : Prop :=
  s.toList.length = 36 ∧ ∀ c ∈ s.toList, c ∈ "0123456789abcdef-".toList

instance {s : String} : Decidable (IsUuid s) :=
  inferInstanceAs (Decidable (_ ∧ _))

/-- A UUID is not empty. -/
lemma IsUuid.truthy {s : String} (uuid : IsUuid s) : truthy (some s) = some s := by
  have nonempty : s ≠ "" := by
    rintro rfl
    cases uuid.1
  simp [AvaSettle.truthy, nonempty]

/-- A UUID has no colon in it. -/
lemma IsUuid.colon_notMem {s : String} (uuid : IsUuid s) : ':' ∉ s.toList := fun mem =>
  absurd (uuid.2 _ mem) (by decide)

/-- The prefix of a key says whose it is. -/
lemma client_of_namespacedKey {a b k k' : String} (ha : IsUuid a) (hb : IsUuid b)
    (eq : namespacedKey (some a) k = namespacedKey (some b) k') : a = b := by
  have text (c k : String) : (namespacedKey (some c) k).toList = c.toList ++ ':' :: k.toList := by
    simp only [namespacedKey, Option.getD_some, String.toList_append, List.append_assoc]
    rfl
  have scope (c k : String) (uuid : IsUuid c) :
      (namespacedKey (some c) k).toList.takeWhile (· ≠ ':') = c.toList := by
    rw [text, List.takeWhile_append_of_pos, List.takeWhile_cons_of_neg (by simp), List.append_nil]
    intro x mem
    have ne : x ≠ ':' := fun colon => uuid.colon_notMem (colon ▸ mem)
    simpa using ne
  apply String.toList_inj.1
  rw [← scope a k ha, eq, scope b k' hb]

/-! ## What a client leaves alone -/

/-- The rows and keys of all other clients are the same. -/
structure Tended (A : String) (w w' : World) : Prop where
  payouts : Table.Tended PayoutRecord.clientId (some A) w.payouts w'.payouts
  payins : Table.Tended PayInRecord.clientId (some A) w.payins w'.payins
  settlements : Table.Tended PrivateSettlementRecord.clientId (some A) w.settlements w'.settlements
  keys : ∀ p, (∀ key, p.1 ≠ namespacedKey (some A) key) →
    (p ∈ w'.idempotencyKeys ↔ p ∈ w.idempotencyKeys)

/-- Every idempotency key stands for a pay-in of the client in its prefix. -/
def KeysOwned (w : World) : Prop :=
  ∀ p ∈ w.idempotencyKeys, ∃ c key r, IsUuid c ∧ p.1 = namespacedKey (some c) key ∧
    w.payins.find? p.2 = some r ∧ r.clientId = some c

section
variable {A : String} {w w' w₀ w₁ w₂ w₃ : World}

/-- A client tends its rows by doing nothing. -/
lemma Tended.refl : Tended A w w := ⟨.refl, .refl, .refl, fun _ _ => Iff.rfl⟩

/-- Tending the rows of a client twice is tending them. -/
lemma Tended.trans (h₁ : Tended A w₁ w₂) (h₂ : Tended A w₂ w₃) : Tended A w₁ w₃ where
  payouts := h₁.payouts.trans h₂.payouts
  payins := h₁.payins.trans h₂.payins
  settlements := h₁.settlements.trans h₂.settlements
  keys p other := (h₂.keys p other).trans (h₁.keys p other)

/-- Keys stay owned where they and the owners of the rows stay. -/
lemma KeysOwned.persist (owned : KeysOwned w) (keys : w'.idempotencyKeys = w.idempotencyKeys)
    (rows : Table.Persists PayInRecord.clientId w.payins w'.payins) : KeysOwned w' := by
  intro p mem
  obtain ⟨c, key, r, uuid, eq, found, client⟩ := owned p (keys ▸ mem)
  obtain ⟨r', found, same⟩ := rows _ _ found
  exact ⟨c, key, r', uuid, eq, found, same.trans client⟩

/-- The world has written to the ledgers at most as the client may. -/
structure Moves (A : String) (w w' : World) : Prop where
  tended : Tended A w w'
  persists : Table.Persists PayInRecord.clientId w.payins w'.payins
  owned : KeysOwned w → KeysOwned w'

/-- Nothing has been written to the ledgers. -/
lemma moves_of_same (payouts : w'.payouts = w.payouts) (payins : w'.payins = w.payins)
    (settlements : w'.settlements = w.settlements)
    (keys : w'.idempotencyKeys = w.idempotencyKeys) : Moves A w w' where
  tended := by
    refine ⟨?_, ?_, ?_, fun _ _ => by rw [keys]⟩
    · exact payouts ▸ .refl
    · exact payins ▸ .refl
    · exact settlements ▸ .refl
  persists := payins ▸ .refl
  owned owned := owned.persist keys (payins ▸ .refl)

/-- A move among the payouts of a client is one of the client. -/
lemma moves_of_payouts {t} (tended : Table.Tended PayoutRecord.clientId (some A) w.payouts t) :
    Moves A w { w with payouts := t } where
  tended := ⟨tended, .refl, .refl, fun _ _ => Iff.rfl⟩
  persists := .refl
  owned owned := owned.persist rfl .refl

/-- A move among the pay-ins of a client is one of the client. -/
lemma moves_of_payins {t} (tended : Table.Tended PayInRecord.clientId (some A) w.payins t)
    (persists : Table.Persists PayInRecord.clientId w.payins t) :
    Moves A w { w with payins := t } where
  tended := ⟨.refl, tended, .refl, fun _ _ => Iff.rfl⟩
  persists := persists
  owned owned := owned.persist rfl persists

/-- A move among the settlements of a client is one of the client. -/
lemma moves_of_settlements {t}
    (tended : Table.Tended PrivateSettlementRecord.clientId (some A) w.settlements t) :
    Moves A w { w with settlements := t } where
  tended := ⟨.refl, .refl, tended, fun _ _ => Iff.rfl⟩
  persists := .refl
  owned owned := owned.persist rfl .refl

end

/-! ## Operations within a client -/

section
variable (A : String) (w₀ : World)

/-- No other client has a payout under the id. -/
abbrev FreePayout (id : Uuid) : Prop := Table.Free PayoutRecord.clientId (some A) w₀.payouts id

/-- No other client has a pay-in under the id. -/
abbrev FreePayIn (id : Uuid) : Prop := Table.Free PayInRecord.clientId (some A) w₀.payins id

/-- No other client has a settlement under the id. -/
abbrev FreeSettlement (id : Uuid) : Prop :=
  Table.Free PrivateSettlementRecord.clientId (some A) w₀.settlements id

/-- The payout is the client's, and its id was no other client's. -/
structure OwnPayout (r : PayoutRecord) : Prop where
  client : r.clientId = some A
  free : FreePayout A w₀ r.id

/-- The pay-in is the client's, and its id was no other client's. -/
structure OwnPayIn (r : PayInRecord) : Prop where
  client : r.clientId = some A
  free : FreePayIn A w₀ r.id

/-- The settlement is the client's, and its id was no other client's. -/
structure OwnSettlement (r : PrivateSettlementRecord) : Prop where
  client : r.clientId = some A
  free : FreeSettlement A w₀ r.id

/-- The operation stays within the client. -/
def Within : Call → Prop
  | .payoutInsert r => r.clientId = some A
  | .payoutFindById _ c => c = some A
  | .payoutFindByExternalId c _ => c = some A
  | .payoutList f => f.clientId = some A
  | .payoutUpdate id _ _ => FreePayout A w₀ id
  | .payInInsert r => r.clientId = some A
  | .payInFindById id c => c = some A ∨ c = none ∧ FreePayIn A w₀ id
  | .payInFindByExternalId c _ => c = some A
  | .payInList f => f.clientId = some A
  | .payInUpdate id _ _ => FreePayIn A w₀ id
  | .payInSweepCandidates _ _ => False
  | .idempotencyKeyFind key => ∃ k, key = namespacedKey (some A) k
  | .idempotencyKeyStore _ _ => False
  | .settlementInsert r => r.clientId = some A
  | .settlementFindById _ c => c = some A
  | .settlementFindByExternalId c _ => c = some A
  | .settlementList c _ _ => c = some A
  | .settlementUpdate id _ => FreeSettlement A w₀ id
  | .settlementDelete id => FreeSettlement A w₀ id
  | _ => True

/-- The answer of an operation that stays within the client: rows of the client, if any. -/
def Answers : (c : Call) → c.Res → Prop
  | .payoutInsert _, o => ∀ r, o = some r → OwnPayout A w₀ r
  | .payoutFindById id _, o => ∀ r, o = some r → OwnPayout A w₀ r ∧ r.id = id
  | .payoutFindByExternalId _ _, o => ∀ r, o = some r → OwnPayout A w₀ r
  | .payoutList _, rows => ∀ r ∈ rows, OwnPayout A w₀ r
  | .payoutUpdate _ _ _, o => ∀ r, o = some r → OwnPayout A w₀ r
  | .payInInsert _, o => ∀ r, o = some r → OwnPayIn A w₀ r
  | .payInFindById id _, o => ∀ r, o = some r → OwnPayIn A w₀ r ∧ r.id = id
  | .payInFindByExternalId _ _, o => ∀ r, o = some r → OwnPayIn A w₀ r
  | .payInList _, rows => ∀ r ∈ rows, OwnPayIn A w₀ r
  | .payInUpdate _ _ _, o => ∀ r, o = some r → OwnPayIn A w₀ r
  | .idempotencyKeyFind _, o => ∀ id, o = some id → FreePayIn A w₀ id
  | .settlementInsert _, o => ∀ r, o = some r → OwnSettlement A w₀ r
  | .settlementFindById id _, o => ∀ r, o = some r → OwnSettlement A w₀ r ∧ r.id = id
  | .settlementFindByExternalId _ _, o => ∀ r, o = some r → OwnSettlement A w₀ r
  | .settlementList _ _ _, rows => ∀ r ∈ rows, OwnSettlement A w₀ r
  | .settlementUpdate _ _, o => ∀ r, o = some r → OwnSettlement A w₀ r
  | _, _ => True

end

section
variable {A : String} {w w' w₀ : World} {c : Call} {b : c.Res}

/-- A payout of the client that is found is its own. -/
lemma Tended.ownPayout {r : PayoutRecord} {id : Uuid} (tended : Tended A w₀ w)
    (found : w.payouts.find? id = some r) (client : r.clientId = some A) : OwnPayout A w₀ r := by
  obtain rfl := Table.key_of_find? found
  exact ⟨client, tended.payouts.free_of_found found client⟩

/-- A pay-in of the client that is found is its own. -/
lemma Tended.ownPayIn {r : PayInRecord} {id : Uuid} (tended : Tended A w₀ w)
    (found : w.payins.find? id = some r) (client : r.clientId = some A) : OwnPayIn A w₀ r := by
  obtain rfl := Table.key_of_find? found
  exact ⟨client, tended.payins.free_of_found found client⟩

/-- A settlement of the client that is found is its own. -/
lemma Tended.ownSettlement {r : PrivateSettlementRecord} {id : Uuid} (tended : Tended A w₀ w)
    (found : w.settlements.find? id = some r) (client : r.clientId = some A) :
    OwnSettlement A w₀ r := by
  obtain rfl := Table.key_of_find? found
  exact ⟨client, tended.settlements.free_of_found found client⟩

/-- A filter by a client finds the client's rows only. -/
lemma client_of_filter {client : Option String} (uuid : IsUuid A)
    (found : ((truthy (some A)).all fun c => decide (client = some c)) = true) :
    client = some A := by
  simpa [uuid.truthy] using found

/-- An operation that stays within a client writes to the ledgers at most as the client may. -/
lemma moves_of_within (tended : Tended A w₀ w) (within : Within A w₀ c)
    (run : World.exec c w = some (b, w')) : Moves A w w' := by
  cases c
  case payoutInsert r =>
    obtain ⟨-, rfl, -⟩ | ⟨t, -, rfl, inserted, -⟩ := World.insertPayout_cases run
    · exact moves_of_same rfl rfl rfl rfl
    · exact moves_of_payouts (Table.tended_insert inserted within)
  case payInInsert r =>
    obtain ⟨-, rfl, -⟩ | ⟨t, -, rfl, inserted, -⟩ := World.insertPayIn_cases run
    · exact moves_of_same rfl rfl rfl rfl
    · exact moves_of_payins (Table.tended_insert inserted within) (Table.persists_insert inserted)
  case settlementInsert r =>
    obtain ⟨-, rfl⟩ | ⟨t, -, rfl, inserted⟩ := World.insertSettlement_cases run
    · exact moves_of_same rfl rfl rfl rfl
    · exact moves_of_settlements (Table.tended_insert inserted within)
  case payoutUpdate id patch guard =>
    cases run
    exact moves_of_payouts (Table.tended_update (tended.payouts.free within) fun _ => rfl)
  case payInUpdate id patch guard =>
    cases run
    exact moves_of_payins (Table.tended_update (tended.payins.free within) fun _ => rfl)
      (Table.persists_update fun _ => rfl)
  case settlementUpdate id patch =>
    cases run
    exact moves_of_settlements (Table.tended_update (tended.settlements.free within) fun _ => rfl)
  case settlementDelete id =>
    cases run
    exact moves_of_settlements (Table.tended_erase (tended.settlements.free within))
  case payInSweepCandidates => exact within.elim
  case idempotencyKeyStore => exact within.elim
  all_goals
    have frame := World.exec_frame run
    exact moves_of_same (frame.payouts nofun) (frame.payins nofun) (frame.settlements nofun)
      (frame.idempotencyKeys nofun)

/-- What an update of a free id returns is under that id. -/
lemma free_of_update {ρ : Type} {key : ρ → Uuid} {client : ρ → Option String} {t₀ t : Table key}
    {id : Uuid} {guard : ρ → Bool} {p : Data.Patch key} {r : ρ}
    (free : Table.Free client (some A) t₀ id) (written : (t.update id guard p).1 = some r) :
    Table.Free client (some A) t₀ (key r) := by
  obtain ⟨r₀, found, -, rfl⟩ := Table.of_update written
  rwa [p.key_apply, Table.key_of_find? found]

/-- An operation that stays within a client answers with rows of the client. -/
lemma answers_of_within (uuid : IsUuid A) (tended : Tended A w₀ w) (owned : KeysOwned w)
    (within : Within A w₀ c) (run : World.exec c w = some (b, w')) : Answers A w₀ c b := by
  cases c
  case payoutInsert r =>
    rintro r' rfl
    obtain ⟨eq, -⟩ | ⟨t, eq, rfl, inserted, -⟩ := World.insertPayout_cases run
    · cases eq
    · cases eq
      have found : t.find? r.id = some r := by rw [Table.find?_insert inserted, if_pos rfl]
      exact (tended.trans (moves_of_within tended within run).tended).ownPayout found within
  case payInInsert r =>
    rintro r' rfl
    obtain ⟨eq, -⟩ | ⟨t, eq, rfl, inserted, -⟩ := World.insertPayIn_cases run
    · cases eq
    · cases eq
      have found : t.find? r.id = some r := by rw [Table.find?_insert inserted, if_pos rfl]
      exact (tended.trans (moves_of_within tended within run).tended).ownPayIn found within
  case settlementInsert r =>
    rintro r' rfl
    obtain ⟨eq, -⟩ | ⟨t, eq, rfl, inserted⟩ := World.insertSettlement_cases run
    · cases eq
    · cases eq
      have found := Table.find?_insert inserted r.id
      rw [if_pos rfl] at found
      exact (tended.trans (moves_of_within tended within run).tended).ownSettlement found within
  case payoutFindById id client =>
    obtain rfl : client = some A := within
    cases run
    intro r found
    obtain ⟨found, filter⟩ := Option.filter_eq_some_iff.1 found
    exact ⟨tended.ownPayout found (client_of_filter uuid filter), Table.key_of_find? found⟩
  case payoutFindByExternalId client externalId =>
    obtain rfl : client = some A := within
    cases run
    intro r found
    have key := List.find?_some found
    exact tended.ownPayout (Table.find?_of_mem (List.mem_of_find?_eq_some found))
      (of_decide_eq_true key).2
  case payoutList filters =>
    cases run
    intro r mem
    obtain ⟨mem, filter⟩ := List.mem_filter.1 (mem_of_page mem)
    simp only [ListFilters.matches, Bool.and_eq_true, show filters.clientId = some A from within]
      at filter
    exact tended.ownPayout (Table.find?_of_mem mem) (client_of_filter uuid filter.1.1)
  case payoutUpdate id patch guard =>
    cases run
    intro r written
    exact ⟨Table.owner_of_update (tended.payouts.free within) (fun _ => rfl) written,
      free_of_update within written⟩
  case payInFindById id client =>
    cases run
    obtain rfl | ⟨-, free⟩ := within
    · intro r found
      obtain ⟨found, filter⟩ := Option.filter_eq_some_iff.1 found
      exact ⟨tended.ownPayIn found (client_of_filter uuid filter), Table.key_of_find? found⟩
    · intro r found
      obtain ⟨found, -⟩ := Option.filter_eq_some_iff.1 found
      exact ⟨tended.ownPayIn found (tended.payins.free free r found), Table.key_of_find? found⟩
  case payInFindByExternalId client externalId =>
    obtain rfl : client = some A := within
    cases run
    intro r found
    have key := List.find?_some found
    exact tended.ownPayIn (Table.find?_of_mem (List.mem_of_find?_eq_some found))
      (of_decide_eq_true key).2
  case payInList filters =>
    cases run
    intro r mem
    obtain ⟨mem, filter⟩ := List.mem_filter.1 (mem_of_page mem)
    simp only [ListFilters.matches, Bool.and_eq_true, show filters.clientId = some A from within]
      at filter
    exact tended.ownPayIn (Table.find?_of_mem mem) (client_of_filter uuid filter.1.1)
  case payInUpdate id patch guard =>
    cases run
    intro r written
    exact ⟨Table.owner_of_update (tended.payins.free within) (fun _ => rfl) written,
      free_of_update within written⟩
  case idempotencyKeyFind key =>
    obtain ⟨k, rfl⟩ := within
    cases run
    intro id found
    obtain ⟨p, first, rfl⟩ := Option.map_eq_some_iff.1 found
    have eq : p.1 = namespacedKey (some A) k := by simpa using List.find?_some first
    obtain ⟨c, key, r, uuid', eq', row, client⟩ := owned p (List.mem_of_find?_eq_some first)
    obtain rfl := client_of_namespacedKey uuid uuid' (eq.symm.trans eq')
    exact tended.payins.free_of_found row client
  case settlementFindById id client =>
    obtain rfl : client = some A := within
    cases run
    intro r found
    obtain ⟨found, filter⟩ := Option.filter_eq_some_iff.1 found
    exact ⟨tended.ownSettlement found (client_of_filter uuid filter), Table.key_of_find? found⟩
  case settlementFindByExternalId client externalId =>
    obtain rfl : client = some A := within
    cases run
    intro r found
    have key := List.find?_some found
    simp only [sameKey, Bool.and_eq_true, decide_eq_true_eq] at key
    exact tended.ownSettlement (Table.find?_of_mem (List.mem_of_find?_eq_some found)) key.2.1
  case settlementList client limit offset =>
    obtain rfl : client = some A := within
    cases run
    intro r mem
    obtain ⟨mem, filter⟩ := List.mem_filter.1 (mem_of_page mem)
    exact tended.ownSettlement (Table.find?_of_mem mem) (client_of_filter uuid filter)
  case settlementUpdate id patch =>
    cases run
    intro r written
    exact ⟨Table.owner_of_update (tended.settlements.free within) (fun _ => rfl) written,
      free_of_update within written⟩
  all_goals trivial

end

/-! ## The upkeep of a client -/

section
variable {chain : Chain → Chain → Prop} {entry : Method Unit → Prop}
  {cond : Hist Api → World → Event Api → Prop} {A : String} {w₀ : World}

/-- What a client keeps, from a world on. -/
def upkeep (A : String) (w₀ : World) : Upkeep (machine chain entry cond) where
  inv w := Tended A w₀ w ∧ KeysOwned w
  le w w' := Table.Persists PayInRecord.clientId w.payins w'.payins
  le_refl _ := .refl
  le_trans := .trans
  env := fun ⟨tended, owned⟩ move =>
    have moves := moves_of_same (A := A) move.payouts move.payins move.settlements move.idempotencyKeys
    ⟨⟨tended.trans moves.tended, moves.owned owned⟩, moves.persists⟩

/-- An operation that stays within the client keeps what the client keeps. -/
lemma tends_within (uuid : IsUuid A) {c : Call} (within : Within A w₀ c) :
    (upkeep A w₀ : Upkeep (machine chain entry cond)).Tends c (Answers A w₀ c) := by
  rintro w b w' ⟨tended, owned⟩ run
  have moves := moves_of_within tended within run
  exact ⟨⟨tended.trans moves.tended, moves.owned owned⟩, moves.persists,
    answers_of_within uuid tended owned within run⟩

end

end AvaSettle.Isolation
