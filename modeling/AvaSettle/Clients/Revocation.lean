import AvaSettle.Async.Yields
import AvaSettle.Clients.Service

/-!
# Revoked keys

When a key that has been revoked on an instance is still resolved on it. The revoking call writes the
row and then clears the cache; a resolving call that has read the row before the write may put it into
the cache after the clear, and then the key lives on for as long as the entry does.
-/

namespace AvaSettle.Clients
open Async (Prog Hist Event Machine Upkeep Spec)
open Data (Table Patch)

variable {hashApiKey : String → String} {id : Uuid} {hash : String} {w w' : World}

/-! ## What is recorded -/

/-- The key with the hash is the key of an active client. -/
def ClientRow.IsLive (hash : String) (row : ClientRow) : Prop :=
  row.status = .active ∧ row.apiKeyHash = hash

/-- The client is enabled with the key. -/
def Note.Enables (id : Uuid) (hash : String) : Note → Prop
  | .wrote row => row.id = id ∧ row.IsLive hash
  | _ => False

/-- The client is put into the cache under the key. -/
def Note.Caches (id : Uuid) (hash : String) : Note → Prop
  | .cached hash' client => hash' = hash ∧ client.id = id
  | _ => False

/-- Since a place in the journal the client has not been enabled with the key. -/
def Unenabled (id : Uuid) (hash : String) (m : Nat) (w : World) : Prop :=
  ∀ note ∈ w.journal.drop (m + 1), ¬note.Enables id hash

/-- Since a place in the journal the client has not been put into the cache under the key. -/
def Uncached (id : Uuid) (hash : String) (n : Nat) (w : World) : Prop :=
  ∀ note ∈ w.journal.drop (n + 1), ¬note.Caches id hash

/-- At a place in the journal the client has been written, without the key. -/
def RevokedAt (id : Uuid) (hash : String) (m : Nat) (w : World) : Prop :=
  ∃ row, w.journal[m]? = some (.wrote row) ∧ row.id = id ∧ ¬row.IsLive hash

/-- At a place in the journal the cache has been cleared. -/
def ClearedAt (n : Nat) (w : World) : Prop := w.journal[n]? = some .cleared

/-- The journal grows. -/
def Grows (w w' : World) : Prop := w.journal <+: w'.journal

/-- A note stays where it is. -/
lemma Grows.getElem? {n : Nat} {note : Note} (grows : Grows w w')
    (noted : w.journal[n]? = some note) : w'.journal[n]? = some note := by
  obtain ⟨rest, eq⟩ := grows
  obtain ⟨bound, -⟩ := List.getElem?_eq_some_iff.1 noted
  rw [← eq, List.getElem?_append_left bound]
  exact noted

/-- What has been revoked stays so. -/
lemma RevokedAt.grows {m : Nat} (grows : Grows w w') (revoked : RevokedAt id hash m w) :
    RevokedAt id hash m w' := by
  obtain ⟨row, noted, dead⟩ := revoked
  exact ⟨row, grows.getElem? noted, dead⟩

/-- What has been cleared stays so. -/
lemma ClearedAt.grows {n : Nat} (grows : Grows w w') (cleared : ClearedAt n w) : ClearedAt n w' :=
  Grows.getElem? grows cleared

/-- What is missing in the longer journal is missing in the shorter one. -/
lemma drop_of_grows {n : Nat} {P : Note → Prop} (grows : Grows w w')
    (missing : ∀ note ∈ w'.journal.drop n, ¬P note) : ∀ note ∈ w.journal.drop n, ¬P note := by
  obtain ⟨rest, eq⟩ := grows
  intro note mem
  refine missing note ?_
  rw [← eq, List.drop_append]
  exact List.mem_append_left _ mem

/-- A key that is enabled nowhere later was enabled nowhere before. -/
lemma Unenabled.of_grows {m : Nat} (grows : Grows w w') (unenabled : Unenabled id hash m w') :
    Unenabled id hash m w :=
  drop_of_grows grows unenabled

/-- A key that is cached nowhere later was cached nowhere before. -/
lemma Uncached.of_grows {n : Nat} (grows : Grows w w') (uncached : Uncached id hash n w') :
    Uncached id hash n w :=
  drop_of_grows grows uncached

section
variable {note : Note} (snoc : w'.journal = w.journal ++ [note])
include snoc

/-- The journal grows by a note. -/
lemma grows_snoc : Grows w w' := ⟨[note], snoc.symm⟩

/-- What is recorded last is recorded after everything else. -/
lemma mem_drop_snoc {n : Nat} (before : n < w.journal.length) : note ∈ w'.journal.drop (n + 1) := by
  rw [snoc, List.drop_append_of_le_length before]
  exact List.mem_append_right _ (List.mem_singleton_self note)

/-- A place in the longer journal is one in the shorter journal, or the last one. -/
lemma getElem?_snoc {n : Nat} {note' : Note} (noted : w'.journal[n]? = some note') :
    n < w.journal.length ∧ w.journal[n]? = some note' ∨ n = w.journal.length ∧ note' = note := by
  rw [snoc] at noted
  by_cases before : n < w.journal.length
  · exact .inl ⟨before, by rwa [List.getElem?_append_left before] at noted⟩
  · obtain ⟨bound, eq⟩ := List.getElem?_eq_some_iff.1 noted
    have last : n = w.journal.length := by
      rw [List.length_append, List.length_singleton] at bound
      omega
    subst last
    refine .inr ⟨rfl, ?_⟩
    rw [← eq, List.getElem_append_right (Nat.le_refl _)]
    simp

end

/-! ## The invariant -/

/-- What the table and the cache hold of a key that has been revoked. -/
structure Kept (id : Uuid) (hash : String) (w : World) : Prop where
  /-- The client that has been written without the key, and not with it since, is not live with it. -/
  table : ∀ m, RevokedAt id hash m w → Unenabled id hash m w →
    ∀ row, w.clients.find? id = some row → ¬row.IsLive hash
  /-- The client is not in the cache under the key, when it has not been put there since a clear. -/
  cache : ∀ n, ClearedAt n w → Uncached id hash n w →
    ∀ e, w.apiKeyCache hash = some e → e.client.id ≠ id

/-- Nothing is recorded, and nothing is put into the cache. -/
lemma Kept.quiet (kept : Kept id hash w) (journal : w'.journal = w.journal)
    (clients : w'.clients = w.clients)
    (cache : ∀ e, w'.apiKeyCache hash = some e → w.apiKeyCache hash = some e) :
    Kept id hash w' := by
  constructor
  · intro m revoked unenabled row found
    refine kept.table m ?_ ?_ row (clients ▸ found)
    · rwa [RevokedAt, journal] at revoked
    · rwa [Unenabled, journal] at unenabled
  · intro n cleared uncached e found
    refine kept.cache n ?_ ?_ e (cache e found)
    · rwa [ClearedAt, journal] at cleared
    · rwa [Uncached, journal] at uncached

/-- A row is written. -/
lemma Kept.wrote (row : ClientRow) (kept : Kept id hash w)
    (journal : w'.journal = w.journal ++ [.wrote row]) (cache : w'.apiKeyCache = w.apiKeyCache)
    (clients : ∀ k, w'.clients.find? k = if k = row.id then some row else w.clients.find? k) :
    Kept id hash w' := by
  constructor
  · intro m revoked unenabled row' found
    rw [clients] at found
    obtain ⟨last, noted, same, dead⟩ := revoked
    split at found
    case isTrue eq =>
      cases found
      rcases getElem?_snoc journal noted with ⟨before, -⟩ | ⟨-, eq'⟩
      · exact fun live => unenabled _ (mem_drop_snoc journal before) ⟨eq.symm, live⟩
      · cases eq'
        exact dead
    case isFalse ne =>
      rcases getElem?_snoc journal noted with ⟨-, noted⟩ | ⟨-, eq'⟩
      · exact kept.table m ⟨last, noted, same, dead⟩ (unenabled.of_grows (grows_snoc journal)) row'
          found
      · cases eq'
        exact absurd same.symm ne
  · intro n cleared uncached e found
    rcases getElem?_snoc journal cleared with ⟨-, noted⟩ | ⟨-, eq⟩
    · exact kept.cache n noted (uncached.of_grows (grows_snoc journal)) e (cache ▸ found)
    · cases eq

/-- The table stays, and the cache changes as it is recorded. -/
lemma Kept.table_of_snoc {note : Note} (kept : Kept id hash w)
    (journal : w'.journal = w.journal ++ [note]) (unwritten : ∀ row, note ≠ .wrote row)
    (clients : w'.clients = w.clients) {m : Nat} (revoked : RevokedAt id hash m w')
    (unenabled : Unenabled id hash m w') {row : ClientRow} (found : w'.clients.find? id = some row) :
    ¬row.IsLive hash := by
  obtain ⟨last, noted, dead⟩ := revoked
  rcases getElem?_snoc journal noted with ⟨-, noted⟩ | ⟨-, eq⟩
  · exact kept.table m ⟨last, noted, dead⟩ (unenabled.of_grows (grows_snoc journal)) row
      (clients ▸ found)
  · exact absurd eq.symm (unwritten last)

/-- A client is put into the cache. -/
lemma Kept.cached {hash' : String} {e : CacheEntry} (kept : Kept id hash w)
    (journal : w'.journal = w.journal ++ [.cached hash' e.client]) (clients : w'.clients = w.clients)
    (cache : w'.apiKeyCache = Function.update w.apiKeyCache hash' (some e)) : Kept id hash w' := by
  constructor
  · intro m revoked unenabled row found
    exact kept.table_of_snoc journal (fun _ => nofun) clients revoked unenabled found
  · intro n cleared uncached e' found
    rcases getElem?_snoc journal cleared with ⟨before, noted⟩ | ⟨-, eq⟩
    · rw [cache] at found
      by_cases same : hash' = hash
      · subst same
        rw [Function.update_self] at found
        cases found
        exact fun eq => uncached _ (mem_drop_snoc journal before) ⟨rfl, eq⟩
      · rw [Function.update_of_ne (Ne.symm same)] at found
        exact kept.cache n noted (uncached.of_grows (grows_snoc journal)) e' found
    · cases eq

/-- The cache is cleared. -/
lemma Kept.cleared (kept : Kept id hash w) (journal : w'.journal = w.journal ++ [.cleared])
    (clients : w'.clients = w.clients) (cache : w'.apiKeyCache = fun _ => none) :
    Kept id hash w' := by
  constructor
  · intro m revoked unenabled row found
    exact kept.table_of_snoc journal (fun _ => nofun) clients revoked unenabled found
  · intro n _ _ e found
    rw [cache] at found
    cases found

/-- What an update of the table does to the rows. -/
lemma find?_updateClient {id : Uuid} {p : Patch (fun r : ClientRow => r.id)} {row : ClientRow}
    (written : (w.clients.update id (fun _ => true) p).1 = some row) (k : Uuid) :
    (w.updateClient id p).2.clients.find? k = if k = row.id then some row else w.clients.find? k := by
  obtain ⟨old, found, -, rfl⟩ := Table.of_update written
  have same := Table.key_of_find? found
  have key : (p.apply old).id = id := (p.key_apply old).trans same
  refine (Table.find?_update _ _ _ _ _).trans ?_
  rw [key]
  by_cases eq : k = id
  · subst eq
    simp [found]
  · simp [eq]

/-- An update of a client keeps the journal in step. -/
lemma Kept.updateClient {k : Uuid} {p : Patch (fun r : ClientRow => r.id)} (kept : Kept id hash w) :
    Kept id hash (w.updateClient k p).2 := by
  cases written : (w.clients.update k (fun _ => true) p).1 with
  | none =>
    -- no row is written: the rows stay what they are
    have same : ∀ k', (w.updateClient k p).2.clients.find? k' = w.clients.find? k' :=
      fun k' => Table.find?_update_of_none written k'
    have journal : (w.updateClient k p).2.journal = w.journal := by
      simp [World.updateClient, written]
    constructor
    · intro m revoked unenabled row found
      rw [RevokedAt, journal] at revoked
      rw [Unenabled, journal] at unenabled
      exact kept.table m revoked unenabled row (same id ▸ found)
    · intro n cleared uncached e found
      rw [ClearedAt, journal] at cleared
      rw [Uncached, journal] at uncached
      exact kept.cache n cleared uncached e found
  | some row =>
    exact kept.wrote row (by simp [World.updateClient, written]) rfl
      (find?_updateClient written)

/-- The invariant and the journal, over every operation. -/
lemma kept_exec {c : Call} {b : c.Res} (kept : Kept id hash w)
    (run : World.exec c w = some (b, w')) : Kept id hash w' ∧ Grows w w' := by
  cases c
  case insert input =>
    simp only [World.exec] at run
    split at run
    case isTrue => cases run
    case isFalse =>
      obtain ⟨t, inserted, eq⟩ := Option.map_eq_some_iff.1 run
      cases eq
      refine ⟨kept.wrote _ rfl rfl fun k => ?_, grows_snoc rfl⟩
      exact Table.find?_insert inserted k
  case update k p =>
    cases run
    exact ⟨kept.updateClient, List.prefix_append _ _⟩
  case rotateApiKey k apiKeyHash keyPrefix =>
    simp only [World.exec] at run
    split at run
    case isTrue => cases run
    case isFalse =>
      cases run
      exact ⟨kept.updateClient, List.prefix_append _ _⟩
  case cacheSet hash' client =>
    cases run
    exact ⟨kept.cached (e := ⟨client, _⟩) rfl rfl rfl, grows_snoc rfl⟩
  case cacheDelete hash' =>
    cases run
    refine ⟨kept.quiet rfl rfl fun e found => ?_, List.prefix_rfl⟩
    by_cases same : hash' = hash
    · subst same
      simp at found
    · simpa [Function.update_of_ne (Ne.symm same)] using found
  case cacheClear =>
    cases run
    exact ⟨kept.cleared rfl rfl rfl, grows_snoc rfl⟩
  all_goals
    cases run
    exact ⟨kept, List.prefix_rfl⟩

/-- The revoked key, among all calls on the instance. -/
def upkeep (hashApiKey : String → String) (id : Uuid) (hash : String) :
    Upkeep (machine hashApiKey) where
  inv := Kept id hash
  le := Grows
  le_refl _ := List.prefix_rfl
  le_trans := List.IsPrefix.trans
  env kept move := ⟨kept.quiet move.journal move.clients fun e found => move.apiKeyCache ▸ found,
    [], by rw [List.append_nil, move.journal]⟩

/-- Every operation keeps the journal in step. -/
lemma tends {op : Call} : (upkeep hashApiKey id hash).Tends op fun _ => True := by
  intro w b w' kept run
  obtain ⟨kept, grows⟩ := kept_exec kept run
  exact ⟨kept, grows, trivial⟩

/-! ## The calls -/

/-- A program that starts nothing in the background. -/
abbrev Plain {α : Type} (p : Method α) : Prop := p.Uses (fun _ => True) fun _ => True

/-- Any operation may be used. -/
lemma plain_request {c : Call} : Plain (request c) := Prog.uses_await trivial

/-- `requireClient` uses operations only. -/
lemma plain_requireClient : Plain (requireClient id) :=
  Prog.uses_bind plain_request fun _ => Prog.uses_orThrow trivial

/-- `generateApiKey` uses operations only. -/
lemma plain_generateApiKey : Plain (generateApiKey hashApiKey) :=
  Prog.uses_bind plain_request fun _ => Prog.uses_pure _

/-- `createClient` uses operations only. -/
lemma plain_createClient {dto : CreateClientDto} : Plain (createClient hashApiKey dto) :=
  Prog.uses_bind plain_generateApiKey fun _ => Prog.uses_bind plain_request fun _ =>
    Prog.uses_bind plain_request fun _ => Prog.uses_pure _

/-- `updateClient` uses operations only. -/
lemma plain_updateClient {dto : UpdateClientDto} : Plain (updateClient id dto) :=
  Prog.uses_bind plain_requireClient fun _ => Prog.uses_bind plain_request fun _ =>
    Prog.uses_bind (Prog.uses_orThrow trivial) fun _ => Prog.uses_bind plain_request fun _ =>
      Prog.uses_pure _

/-- `rotateApiKey` uses operations only. -/
lemma plain_rotateApiKey : Plain (rotateApiKey hashApiKey id) :=
  Prog.uses_bind plain_requireClient fun _ => Prog.uses_bind plain_generateApiKey fun _ =>
    Prog.uses_bind plain_request fun _ => Prog.uses_bind (Prog.uses_orThrow trivial) fun _ =>
      Prog.uses_bind plain_request fun _ => Prog.uses_pure _

/-- `resolveActiveClientByApiKey` uses operations only. -/
lemma plain_resolve {apiKey : String} : Plain (resolveActiveClientByApiKey hashApiKey apiKey) := by
  refine Prog.uses_bind plain_request fun found => ?_
  cases found with
  | some cached => exact Prog.uses_pure _
  | none =>
    refine Prog.uses_bind plain_request fun client => ?_
    cases client with
    | some client => exact Prog.uses_bind plain_request fun _ => Prog.uses_pure _
    | none => exact Prog.uses_bind plain_request fun _ => Prog.uses_pure _

/-- Every call uses operations only. -/
lemma plain_entry {p : Method Unit} (entry : Entry hashApiKey p) : Plain p := by
  cases entry with
  | create => exact Prog.uses_bind plain_createClient fun _ => Prog.uses_pure _
  | list =>
    exact Prog.uses_bind (Prog.uses_bind plain_request fun _ => Prog.uses_pure _) fun _ =>
      Prog.uses_pure _
  | get =>
    exact Prog.uses_bind (Prog.uses_bind plain_requireClient fun _ => Prog.uses_pure _) fun _ =>
      Prog.uses_pure _
  | update => exact Prog.uses_bind plain_updateClient fun _ => Prog.uses_pure _
  | rotate => exact Prog.uses_bind plain_rotateApiKey fun _ => Prog.uses_pure _
  | resolve => exact Prog.uses_bind plain_resolve fun _ => Prog.uses_pure _

/-- What uses operations only keeps the journal in step. -/
lemma yields_plain {α : Type} {p : Method α} (plain : Plain p) :
    (upkeep hashApiKey id hash).Yields p (fun _ => True) fun _ => True :=
  Upkeep.yields_of_uses (fun _ _ => tends) (fun _ _ _ _ => trivial) plain

/-- The journal is in step in every state. -/
lemma upkeep_sound (id : Uuid) (hash : String) : (upkeep hashApiKey id hash).Sound := fun _ entry =>
  ⟨_, yields_plain (plain_entry entry)⟩

/-! ## Revoking -/

/-- A call that revokes the key of a client, with the key that it issues in its place. -/
inductive Revoking (hashApiKey : String → String) (id : Uuid) : Method (Option String) → Prop where
  | disable {dto : UpdateClientDto} (disabled : dto.status = some .disabled) :
      Revoking hashApiKey id (do let _ ← updateClient id dto; return none)
  | rotate : Revoking hashApiKey id (do
      let rotated ← rotateApiKey hashApiKey id
      return some rotated.apiKey)

/-- The row is disabled, or has the key that has been issued. -/
def Withdrawn (hashApiKey : String → String) (row : ClientRow) : Option String → Prop
  | none => row.status = .disabled
  | some issued => row.apiKeyHash = hashApiKey issued

/-- Since a length of the journal the client has been written, with a row that satisfies `P`. -/
def Written (id : Uuid) (L : Nat) (P : ClientRow → Prop) (w : World) : Prop :=
  ∃ m row, L ≤ m ∧ w.journal[m]? = some (.wrote row) ∧ row.id = id ∧ P row

/-- And after that the cache has been cleared. -/
def WrittenCleared (id : Uuid) (L : Nat) (P : ClientRow → Prop) (w : World) : Prop :=
  ∃ m n row, L ≤ m ∧ m < n ∧ w.journal[m]? = some (.wrote row) ∧ row.id = id ∧ P row ∧ ClearedAt n w

/-- What has been written stays in the journal. -/
lemma Written.grows {L : Nat} {P : ClientRow → Prop} (grows : Grows w w')
    (written : Written id L P w) : Written id L P w' := by
  obtain ⟨m, row, after, noted, holds⟩ := written
  exact ⟨m, row, after, grows.getElem? noted, holds⟩

/-- What has been written and cleared stays in the journal. -/
lemma WrittenCleared.grows {L : Nat} {P : ClientRow → Prop} (grows : Grows w w')
    (written : WrittenCleared id L P w) : WrittenCleared id L P w' := by
  obtain ⟨m, n, row, after, next, noted, same, holds, cleared⟩ := written
  exact ⟨m, n, row, after, next, grows.getElem? noted, same, holds, cleared.grows grows⟩

/-- An update that finds its client is written to the journal. -/
lemma written_updateClient {L : Nat} {p : Patch (fun r : ClientRow => r.id)} {b : ClientRecord}
    {P : ClientRow → Prop} (later : L ≤ w.journal.length) (holds : ∀ old, P (p.apply old))
    (found : (w.updateClient id p).1 = some b) : Written id L P (w.updateClient id p).2 := by
  obtain ⟨row, written, -⟩ := Option.map_eq_some_iff.1 found
  obtain ⟨old, found, -, rfl⟩ := Table.of_update written
  have same := Table.key_of_find? found
  refine ⟨w.journal.length, p.apply old, later, ?_, (p.key_apply old).trans same, holds old⟩
  simp [World.updateClient, written]

section
variable {L : Nat} {P : ClientRow → Prop} {a : ℕ} {h : Hist Api}

/-- Clearing the cache, at the end of a revoking call. -/
lemma wp_cacheClear (written : Written id L P w) :
    (upkeep hashApiKey id hash).spec.wp (request .cacheClear)
      (fun r _ w _ => ∀ u, r = .ok u → WrittenCleared id L P w) a w h := by
  refine Spec.wp_await (Upkeep.op_shown (u := upkeep hashApiKey id hash) (a := a) Call.cacheClear
    (K := Written id L P) (R := fun r w => ∀ u : Unit, r = .ok u → WrittenCleared id L P w)
    Written.grows written ?_ ?_)
  · intro w b w' kept written run
    obtain ⟨kept, grows⟩ := kept_exec (c := .cacheClear) kept run
    refine ⟨kept, grows, fun _ _ => ?_⟩
    obtain ⟨m, row, after, noted, holds⟩ := written
    obtain ⟨bound, -⟩ := List.getElem?_eq_some_iff.1 noted
    cases run
    exact ⟨m, w.journal.length, row, after, bound, Grows.getElem? grows noted, holds.1, holds.2,
      by simp [ClearedAt]⟩
  · intro e w _ u eq
    cases eq

/-- What follows the write of a revoking call. -/
lemma wp_finish {α : Type} {e : Exception} {updated : Option ClientRecord} {f : ClientRecord → α}
    (written : ∀ b, updated = some b → Written id L P w) :
    (upkeep hashApiKey id hash).spec.wp (do
        let updated ← Prog.orThrow (S := Api) e updated
        request .cacheClear
        return f updated)
      (fun r _ w _ => ∀ x, r = .ok x → WrittenCleared id L P w ∧ ∃ b, x = f b) a w h := by
  cases updated with
  | none =>
    intro x eq
    cases eq
  | some b =>
    change Spec.wp _ (request .cacheClear >>= fun _ => return f b) _ a w h
    refine Spec.wp_bind_of (wp_cacheClear (written b rfl)) (fun u a w h cleared x eq => ?_) ?_
    · cases eq
      exact ⟨cleared u rfl, b, rfl⟩
    · intro e a w h _ x eq
      cases eq

/-- The journal has a length, whatever a plain program does. -/
lemma wp_plain {α : Type} {p : Method α} (plain : Plain p) (later : L ≤ w.journal.length) :
    (upkeep hashApiKey id hash).spec.wp p (fun _ _ w _ => L ≤ w.journal.length) a w h :=
  Spec.wp_mono (fun _ _ _ _ post => post.2) (Spec.wp_frame (R := fun w => L ≤ w.journal.length)
    (fun grows later => Nat.le_trans later (List.IsPrefix.length_le grows)) later
    (yields_plain plain a w h))

/-- Disabling a client has withdrawn its key and cleared the cache when it returns. -/
lemma wp_updateClient {dto : UpdateClientDto} (disabled : dto.status = some .disabled)
    (later : L ≤ w.journal.length) :
    (upkeep hashApiKey id hash).spec.wp (updateClient id dto) (fun r _ w _ =>
      ∀ x, r = .ok x → WrittenCleared id L (Withdrawn hashApiKey · none) w) a w h := by
  refine Spec.wp_bind_of (wp_plain plain_requireClient later) (fun _ a w h later => ?_)
    fun e a w h _ x eq => by cases eq
  refine Spec.wp_bind_of (P := fun r _ w _ => ∀ b, r = .ok (some b) →
    Written id L (Withdrawn hashApiKey · none) w) (Spec.wp_await (Upkeep.op_shown
      (u := upkeep hashApiKey id hash) (a := a) (Call.update id dto)
      (K := fun w => L ≤ w.journal.length) (R := fun r w => ∀ b : ClientRecord, r = .ok (some b) →
        Written id L (Withdrawn hashApiKey · none) w)
      (fun grows later => Nat.le_trans later (List.IsPrefix.length_le grows)) later ?_ ?_)) ?_ ?_
  · intro w b w' kept later run
    obtain ⟨kept, grows⟩ := kept_exec (c := .update id dto) kept run
    refine ⟨kept, grows, fun client eq => ?_⟩
    cases run
    exact written_updateClient later (fun old => by simp [Withdrawn, ClientPatch.toPatch, disabled])
      (Except.ok.inj eq)
  · intro e w _ b eq
    cases eq
  · intro updated a w h written
    refine Spec.wp_mono (fun r a w h post x eq => (post x eq).1) (wp_finish fun b eq => ?_)
    exact written b (congrArg Except.ok eq)
  · intro e a w h _ x eq
    cases eq

/-- The hash that is generated is the hash of the key. -/
lemma wp_generateApiKey (later : L ≤ w.journal.length) :
    (upkeep hashApiKey id hash).spec.wp (generateApiKey hashApiKey) (fun r _ w _ =>
      L ≤ w.journal.length ∧ ∀ key, r = .ok key → key.apiKeyHash = hashApiKey key.apiKey) a w h := by
  refine Spec.wp_bind_of (wp_plain (p := request .randomBytes) plain_request later)
    (fun bytes a w h later => ⟨later, fun key eq => ?_⟩) fun e a w h later => ⟨later, fun key eq => ?_⟩
  · cases eq
    rfl
  · cases eq

/-- Rotating a key has withdrawn the old one and cleared the cache when it returns. -/
lemma wp_rotateApiKey (later : L ≤ w.journal.length) :
    (upkeep hashApiKey id hash).spec.wp (rotateApiKey hashApiKey id) (fun r _ w _ =>
      ∀ x, r = .ok x → WrittenCleared id L (Withdrawn hashApiKey · (some x.apiKey)) w) a w h := by
  refine Spec.wp_bind_of (wp_plain plain_requireClient later) (fun _ a w h later => ?_)
    fun e a w h _ x eq => by cases eq
  refine Spec.wp_bind_of (wp_generateApiKey later) (fun key a w h post => ?_)
    fun e a w h _ x eq => by cases eq
  obtain ⟨later, hashed⟩ := post
  refine Spec.wp_bind_of (P := fun r _ w _ => ∀ b, r = .ok (some b) →
    Written id L (Withdrawn hashApiKey · (some key.apiKey)) w) (Spec.wp_await
      (Upkeep.op_shown (u := upkeep hashApiKey id hash) (a := a) (Call.rotateApiKey id _ _)
      (K := fun w => L ≤ w.journal.length) (R := fun r w => ∀ b : ClientRecord, r = .ok (some b) →
        Written id L (Withdrawn hashApiKey · (some key.apiKey)) w)
      (fun grows later => Nat.le_trans later (List.IsPrefix.length_le grows)) later ?_ ?_)) ?_ ?_
  · intro w b w' kept later run
    obtain ⟨kept, grows⟩ := kept_exec (c := .rotateApiKey id _ _) kept run
    refine ⟨kept, grows, fun client eq => ?_⟩
    rcases Option.ite_none_left_eq_some.1 run with ⟨-, eq'⟩
    cases eq'
    exact written_updateClient later (fun old => hashed key rfl) (Except.ok.inj eq)
  · intro e w _ b eq
    cases eq
  · intro updated a w h written
    refine Spec.wp_mono (fun r a w h post x eq => ?_)
      (wp_finish (L := L) (P := (Withdrawn hashApiKey · (some key.apiKey))) fun b eq => ?_)
    · obtain ⟨cleared, b, rfl⟩ := post x eq
      exact cleared
    · exact written b (congrArg Except.ok eq)
  · intro e a w h _ x eq
    cases eq

/-- A revoking call that returns has written the client and then cleared the cache. -/
lemma wp_revoking {p : Method (Option String)} (revoking : Revoking hashApiKey id p)
    (later : L ≤ w.journal.length) :
    (upkeep hashApiKey id hash).spec.wp p (fun r _ w _ =>
      ∀ x, r = .ok x → WrittenCleared id L (Withdrawn hashApiKey · x) w) a w h := by
  cases revoking with
  | disable disabled =>
    refine Spec.wp_bind_of (wp_updateClient disabled later) (fun x a w h post y eq => ?_)
      fun e a w h _ x eq => by cases eq
    cases eq
    exact post x rfl
  | rotate =>
    refine Spec.wp_bind_of (wp_rotateApiKey later) (fun x a w h post y eq => ?_)
      fun e a w h _ x eq => by cases eq
    cases eq
    exact post x rfl

end

/-! ## Resolving -/

/-- The client has been revoked at one place, the cache has been cleared at another one. -/
def Purged (id : Uuid) (hash : String) (m n : Nat) (w : World) : Prop :=
  RevokedAt id hash m w ∧ ClearedAt n w

/-- What is resolved is not the client, unless something has been done with the key since then. -/
def Rejected (id : Uuid) (hash : String) (m n : Nat) (found : Option ClientRecord) (w : World) : Prop :=
  ∀ client, found = some client → client.id = id → ¬(Unenabled id hash m w ∧ Uncached id hash n w)

section
variable {m n : Nat} {a : ℕ} {h : Hist Api}

/-- A key that is purged stays so. -/
lemma Purged.grows (grows : Grows w w') (purged : Purged id hash m n w) : Purged id hash m n w' :=
  ⟨purged.1.grows grows, purged.2.grows grows⟩

/-- A key that is rejected stays so. -/
lemma Rejected.grows {found : Option ClientRecord} (grows : Grows w w')
    (rejected : Rejected id hash m n found w) : Rejected id hash m n found w' :=
  fun client eq same clean => rejected client eq same
    ⟨clean.1.of_grows grows, clean.2.of_grows grows⟩

/-- What the cache holds. -/
lemma Kept.cacheGet (kept : Kept id hash w) (purged : Purged id hash m n w) :
    Rejected id hash m n (((w.apiKeyCache hash).filter fun e => decide (w.now < e.expiresAt)).map
      CacheEntry.client) w := by
  intro client eq same clean
  obtain ⟨e, entry, rfl⟩ := Option.map_eq_some_iff.1 eq
  exact kept.cache n purged.2 clean.2 e (Option.filter_eq_some_iff.1 entry).1 same

/-- What the table holds. -/
lemma Kept.findActive (kept : Kept id hash w) (purged : Purged id hash m n w) :
    Rejected id hash m n ((w.findActive hash).map ClientRow.toClientRecord) w := by
  intro client eq same clean
  obtain ⟨row, found, rfl⟩ := Option.map_eq_some_iff.1 eq
  have live : row.IsLive hash := by
    have holds := List.find?_some found
    simp only [Bool.and_eq_true, decide_eq_true_eq] at holds
    exact ⟨holds.2, holds.1⟩
  have row_of : w.clients.find? row.id = some row := Table.find?_of_mem (List.mem_of_find?_eq_some found)
  exact kept.table m purged.1 clean.1 row (same ▸ row_of) live

/-- A query or a look into the cache, after the revocation. -/
lemma wp_lookup {c : Call} {f : c.Res → Option ClientRecord}
    (found : ∀ {w b w'}, Kept id hash w → Purged id hash m n w → World.exec c w = some (b, w') →
      Rejected id hash m n (f b) w') (purged : Purged id hash m n w) :
    (upkeep hashApiKey id hash).spec.wp (request c) (fun r _ w _ =>
      Purged id hash m n w ∧ ∀ b, r = .ok b → Rejected id hash m n (f b) w) a w h := by
  refine Spec.wp_await (Upkeep.op_shown (u := upkeep hashApiKey id hash) (a := a) c
    (K := Purged id hash m n) (R := fun r w =>
      Purged id hash m n w ∧ ∀ b, r = .ok b → Rejected id hash m n (f b) w) Purged.grows purged ?_ ?_)
  · intro w b w' kept purged run
    obtain ⟨kept', grows⟩ := kept_exec (c := c) kept run
    refine ⟨kept', grows, purged.grows grows, fun b' eq => ?_⟩
    cases eq
    exact found kept purged run
  · intro e w purged
    exact ⟨purged, fun b eq => by cases eq⟩

/-- A key that has been revoked, with the cache cleared since, does not resolve to the client unless
    the client has been enabled with it, or put into the cache under it. -/
lemma wp_resolve {apiKey : String} (purged : Purged id (hashApiKey apiKey) m n w) :
    (upkeep hashApiKey id (hashApiKey apiKey)).spec.wp (resolveActiveClientByApiKey hashApiKey apiKey)
      (fun r _ w _ => ∀ found, r = .ok found → Rejected id (hashApiKey apiKey) m n found w) a w h := by
  refine Spec.wp_bind_of (wp_lookup (c := .cacheGet _) (f := fun found => found) ?_ purged)
    (fun cached a w h looked => ?_) fun e a w h _ found eq => by cases eq
  · intro w b w' kept purged run
    cases run
    exact kept.cacheGet purged
  obtain ⟨purged, rejected⟩ := looked
  cases cached with
  | some client =>
    intro found eq
    cases eq
    exact rejected _ rfl
  | none =>
    refine Spec.wp_bind_of (wp_lookup (c := .findActiveByApiKeyHash _) (f := fun found => found) ?_
      purged) (fun client a w h looked => ?_) fun e a w h _ found eq => by cases eq
    · intro w b w' kept purged run
      cases run
      exact kept.findActive purged
    -- what follows only uses the cache, and returns what has been found
    have rejected := looked.2 client rfl
    have put {c : Call} : (upkeep hashApiKey id (hashApiKey apiKey)).spec.wp
        (request c >>= fun _ => return client) (fun r _ w _ =>
          ∀ found, r = .ok found → Rejected id (hashApiKey apiKey) m n found w) a w h := by
      refine Spec.wp_bind_of (P := fun _ _ w _ => Rejected id (hashApiKey apiKey) m n client w)
        (Spec.wp_mono (fun _ _ _ _ post => post.2) (Spec.wp_frame Rejected.grows rejected
          (yields_plain plain_request a w h))) (fun _ a w h rejected found eq => ?_)
        fun e a w h _ found eq => by cases eq
      cases eq
      exact rejected
    cases client with
    | some client => exact put
    | none => exact put

end

/-! ## Revoked keys -/

/-- The journal is in step at the start. -/
lemma kept_of_start (start : w.journal = []) : Kept id hash w := by
  constructor
  · rintro m ⟨row, noted, -⟩
    simp [start] at noted
  · intro n cleared
    simp [ClearedAt, start] at cleared

/-- A revoking call uses operations only. -/
lemma plain_revoking {p : Method (Option String)} (revoking : Revoking hashApiKey id p) : Plain p := by
  cases revoking with
  | disable => exact Prog.uses_bind plain_updateClient fun _ => Prog.uses_pure _
  | rotate => exact Prog.uses_bind plain_rotateApiKey fun _ => Prog.uses_pure _

/-- What has been withdrawn is not live with any key but the one that has been issued. -/
lemma Withdrawn.dead {row : ClientRow} {issued : Option String}
    (withdrawn : Withdrawn hashApiKey row issued)
    (other : ∀ k, issued = some k → hash ≠ hashApiKey k) : ¬row.IsLive hash := by
  intro live
  cases issued with
  | none =>
    have disabled : row.status = .disabled := withdrawn
    rw [live.1] at disabled
    cases disabled
  | some k =>
    have key : row.apiKeyHash = hashApiKey k := withdrawn
    exact other k rfl (live.2 ▸ key)

/-- A call that revokes the key of a client writes the client and then clears the cache. From then on no
    call that is made after it has returned resolves a key other than the one it has issued to the
    client, unless the client is enabled with that key again, or a call that has read the client before
    puts it into the cache after the clear. -/
theorem revoked_key_rejected {p : Method (Option String)} {w₀ : World} {s s₁ : Async.Sys Api World}
    {issued : Option String} {h₁ : Hist Api} (start : w₀.journal = [])
    (reach : (machine hashApiKey).Reachable w₀ s) (revoking : Revoking hashApiKey id p)
    (revoked : (machine hashApiKey).Returns p s [] (.ok issued) s₁ h₁) :
    ∃ m n row, s.world.journal.length ≤ m ∧ m < n ∧ s₁.world.journal[m]? = some (.wrote row) ∧
      row.id = id ∧ Withdrawn hashApiKey row issued ∧ ClearedAt n s₁.world ∧
      ∀ apiKey s₂ client s₃ h₂, (machine hashApiKey).Steps s₁ s₂ →
        (machine hashApiKey).Returns (resolveActiveClientByApiKey hashApiKey apiKey) s₂ []
          (.ok (some client)) s₃ h₂ →
        (∀ k, issued = some k → hashApiKey apiKey ≠ hashApiKey k) →
        Unenabled id (hashApiKey apiKey) m s₃.world → Uncached id (hashApiKey apiKey) n s₃.world →
          client.id ≠ id := by
  -- the call writes and clears
  have beside := Spec.beside_of_reachable (upkeep_sound id "").spec
    (kept_of_start start) reach
  obtain ⟨-, -, written⟩ := beside.returns (upkeep_sound _ _).spec revoked
    (Q := fun r _ w _ => ∀ x, r = .ok x →
      WrittenCleared id s.world.journal.length (Withdrawn hashApiKey · x) w)
    (fun r a w w' h grows post x eq => (post x eq).grows grows) (wp_revoking revoking (Nat.le_refl _))
  obtain ⟨m, n, row, after, next, noted, same, withdrawn, cleared⟩ := written issued rfl
  refine ⟨m, n, row, after, next, noted, same, withdrawn, cleared, ?_⟩
  intro apiKey s₂ client s₃ h₂ later resolved other unenabled uncached eq
  -- the other calls, before, during and after it, keep what is known of the key
  have beside := Spec.beside_of_reachable (upkeep_sound id (hashApiKey apiKey)).spec
    (kept_of_start start) reach
  obtain ⟨a, beside, -⟩ := beside.returns (upkeep_sound _ _).spec revoked (Q := Spec.triv)
    (fun _ _ _ _ _ _ _ => trivial) (Spec.wp_mono (fun _ _ _ _ _ => trivial)
      (yields_plain (plain_revoking revoking) _ _ _))
  obtain ⟨beside, grows⟩ := beside.steps (upkeep_sound _ _).spec later
  have purged : Purged id (hashApiKey apiKey) m n s₁.world :=
    ⟨⟨row, noted, same, withdrawn.dead other⟩, cleared⟩
  obtain ⟨-, -, rejected⟩ := beside.returns (upkeep_sound _ _).spec resolved
    (fun r a w w' h grows post found eq => (post found eq).grows grows)
    (wp_resolve (purged.grows grows))
  exact rejected (some client) rfl client rfl eq ⟨unenabled, uncached⟩

/-! ## Concrete runs -/

/-- One client, whose key has the hash `hash`, and an instance with an empty cache. -/
def World.sample : World where
  clients := ⟨[.sample], ClientRow.nodup_sample⟩
  apiKeyCache _ := none
  now := 0
  nextUuid := ""
  nextBytes := "00"
  journal := []

/-- The rotation of its key. -/
def rotation : Method (Option String) := do
  let rotated ← rotateApiKey (fun key => key) "client"
  return some rotated.apiKey

/-- A call that is played returns. -/
lemma returns_of_watch {α : Type} {p : Method α} (fates : List (Async.Fate Exception))
    {s s' : Async.Sys Api World} {r} {h : Hist Api}
    (res : (machine fun key => key).watch (fun _ _ _ => true) p fates s [] = some (r, s', h)) :
    (machine fun key => key).Returns p s [] r s' h :=
  Machine.returns_of_watch (fun _ _ _ _ => trivial) res

/-- A key that is rotated away is rejected from then on. -/
theorem revoked_key_rejected_after_rotation : ∃ (s₁ : Async.Sys Api World) (m n : Nat),
    m < n ∧ ClearedAt n s₁.world ∧ ∀ s₂ client s₃ h₂,
      (machine fun key => key).Steps s₁ s₂ →
        (machine fun key => key).Returns (resolveActiveClientByApiKey (fun key => key) "hash") s₂ []
          (.ok (some client)) s₃ h₂ →
        Unenabled "client" "hash" m s₃.world → Uncached "client" "hash" n s₃.world →
          client.id ≠ "client" := by
  have run : (machine fun key => key).Returns rotation ⟨.sample, []⟩ [] (.ok (some "avk_00")) _ _ :=
    returns_of_watch [.done, .done, .done, .done] rfl
  obtain ⟨m, n, row, -, next, -, -, -, cleared, rejected⟩ :=
    revoked_key_rejected rfl .refl .rotate run
  refine ⟨_, m, n, next, cleared, fun s₂ client s₃ h₂ later resolved => ?_⟩
  refine rejected "hash" s₂ client s₃ h₂ later resolved fun k eq => ?_
  cases eq
  decide

instance {id : Uuid} {hash : String} : DecidablePred (Note.Enables id hash)
  | .wrote row => inferInstanceAs (Decidable (row.id = id ∧ row.status = .active ∧ row.apiKeyHash = hash))
  | .cached _ _ => inferInstanceAs (Decidable False)
  | .cleared => inferInstanceAs (Decidable False)

/-- A legal schedule is a run. -/
lemma steps_of_schedule (cs : List (Async.Choice Api World)) {s s' : Async.Sys Api World}
    (legal : ∀ c ∈ cs, c.Legal (machine fun key => key))
    (res : (machine fun key => key).run (fun _ _ _ => true) cs s = some s') :
    (machine fun key => key).Steps s s' :=
  Machine.steps_of_run (fun _ _ _ _ => trivial) legal res

/-- A call reads the client before its key is rotated, and puts it into the cache after the call that
    rotates the key has cleared the cache: the old key still resolves to the client. -/
theorem revoked_key_resolved : ¬∀ (hashApiKey : String → String) (id : Uuid)
    (p : Method (Option String)) (issued : Option String) (apiKey : String) (client : ClientRecord)
    (w₀ : World) (s s₁ s₂ s₃ : Async.Sys Api World) (h₁ h₂ : Hist Api), w₀.journal = [] →
      (machine hashApiKey).Reachable w₀ s → Revoking hashApiKey id p →
      (machine hashApiKey).Returns p s [] (.ok issued) s₁ h₁ → (machine hashApiKey).Steps s₁ s₂ →
      (machine hashApiKey).Returns (resolveActiveClientByApiKey hashApiKey apiKey) s₂ []
        (.ok (some client)) s₃ h₂ →
      (∀ k, issued = some k → hashApiKey apiKey ≠ hashApiKey k) →
      (∀ note ∈ s₃.world.journal.drop s.world.journal.length,
        ¬note.Enables id (hashApiKey apiKey)) → client.id ≠ id := by
  intro claim
  have legal : ∀ c ∈ (.enter (Prog.discard (resolveActiveClientByApiKey (fun key => key) "hash")) ::
      Async.Choice.steps 0 2 : List (Async.Choice Api World)), c.Legal (machine fun key => key) := by
    intro c mem
    rcases List.mem_cons.1 mem with rfl | mem
    · exact .resolve
    · exact Async.Choice.legal_steps c mem
  refine claim (fun key => key) "client" rotation (some "avk_00") "hash" _ .sample _ _ _ _ _ _ rfl
    (steps_of_schedule _ legal rfl) .rotate
    (returns_of_watch [.done, .done, .done, .done] rfl)
    (steps_of_schedule (Async.Choice.steps 0 1) Async.Choice.legal_steps rfl)
    (returns_of_watch [.done] rfl) ?_ ?_ rfl
  · intro k eq
    cases eq
    decide
  · decide

end AvaSettle.Clients
