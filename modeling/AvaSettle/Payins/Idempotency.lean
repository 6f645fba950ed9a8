import AvaSettle.Model.Steps
import AvaSettle.Payins.Runs

/-!
# Idempotency keys

`createPayIn` looks its idempotency key up first, but stores it only where it inserts a row. A request
that is answered from the row of its external id leaves its key unknown, so that a later request with
the key may be answered from another row, or insert one.
-/

namespace AvaSettle.Payins.Idempotency
open Async
open Blockchain
open Data (Table)

/-- The requests of one client. -/
inductive Entry (d : Deployment) (A : Option String) : Method Unit → Prop where
  | createPayIn {dto context} (client : context.clientId = A) :
      Entry d A (createPayIn d dto context).discard

/-- The client's requests, in which any operation may fail. -/
abbrev requests (d : Deployment) (chain : Chain → Chain → Prop) (A : Option String) :
    Machine Api World :=
  machine chain (Entry d A) fun _ _ _ => True

/-- The row that a key of the client stands for. An empty key is none. -/
def keyed (w : World) (A : Option String) (key : Option String) : Option Uuid :=
  (truthy key).bind fun key =>
    (w.idempotencyKeys.find? fun r => decide (r.1 = namespacedKey A key)).map (·.2)

/-- The row of an external id of the client. -/
def existing (w : World) (A : Option String) (externalId : String) : Option PayInRecord :=
  w.payins.rows.find? fun r => sameKey A externalId r.clientId r.externalId

/-- The ids of the rows. -/
def ids (w : World) : List Uuid := w.payins.rows.map PayInRecord.id

/-! ## Growth -/

/-- Rows and keys are added. A key is added with the id of a row that is added. -/
structure Grows (w w' : World) : Prop where
  rows : w.payins.rows <+: w'.payins.rows
  keys : ∃ new, w'.idempotencyKeys = w.idempotencyKeys ++ new ∧
    ∀ p ∈ new, p.2 ∈ ids w' ∧ p.2 ∉ ids w

/-- Rows and keys are the same. -/
structure Same (w w' : World) : Prop where
  payins : w'.payins = w.payins
  keys : w'.idempotencyKeys = w.idempotencyKeys

section
variable {w w' w₁ w₂ w₃ : World} {A : Option String} {key : Option String} {id : Uuid}
  {externalId : String} {r : PayInRecord}

/-- Nothing has changed at first. -/
lemma Same.refl : Same w w := ⟨rfl, rfl⟩

/-- What is the same twice is the same. -/
lemma Same.trans (h₁ : Same w₁ w₂) (h₂ : Same w₂ w₃) : Same w₁ w₃ :=
  ⟨h₂.payins.trans h₁.payins, h₂.keys.trans h₁.keys⟩

/-- Where nothing changes, rows and keys have grown by nothing. -/
lemma Same.grows (same : Same w w') : Grows w w' where
  rows := same.payins ▸ List.prefix_rfl
  keys := ⟨[], by simp [same.keys]⟩

/-- Ids stay. -/
lemma Grows.mem_ids (grows : Grows w w') (mem : id ∈ ids w) : id ∈ ids w' :=
  (grows.rows.map _).subset mem

/-- What grows twice has grown. -/
lemma Grows.trans (h₁ : Grows w₁ w₂) (h₂ : Grows w₂ w₃) : Grows w₁ w₃ where
  rows := h₁.rows.trans h₂.rows
  keys := by
    obtain ⟨new₁, eq₁, fresh₁⟩ := h₁.keys
    obtain ⟨new₂, eq₂, fresh₂⟩ := h₂.keys
    refine ⟨new₁ ++ new₂, by rw [eq₂, eq₁, List.append_assoc], fun p mem => ?_⟩
    rcases List.mem_append.1 mem with mem | mem
    · exact ⟨h₂.mem_ids (fresh₁ p mem).1, (fresh₁ p mem).2⟩
    · exact ⟨(fresh₂ p mem).1, fun old => (fresh₂ p mem).2 (h₁.mem_ids old)⟩

/-- A key keeps its row. -/
lemma Grows.keeps_key (grows : Grows w w') (known : keyed w A key = some id) :
    keyed w' A key = some id := by
  obtain ⟨new, eq, -⟩ := grows.keys
  obtain ⟨k, nonempty, found⟩ := Option.bind_eq_some_iff.1 known
  obtain ⟨p, first, rfl⟩ := Option.map_eq_some_iff.1 found
  simp [keyed, nonempty, eq, List.find?_append, first]

/-- A key that has become known stands for a row that has been added. -/
lemma Grows.adds_key (grows : Grows w w') (unknown : keyed w A key = none)
    (known : keyed w' A key = some id) : id ∈ ids w' ∧ id ∉ ids w := by
  obtain ⟨new, eq, fresh⟩ := grows.keys
  obtain ⟨k, nonempty, found⟩ := Option.bind_eq_some_iff.1 known
  obtain ⟨p, first, rfl⟩ := Option.map_eq_some_iff.1 found
  rw [keyed, nonempty, Option.bind_some, Option.map_eq_none_iff] at unknown
  rw [eq, List.find?_append, unknown, Option.none_or] at first
  exact fresh p (List.mem_of_find?_eq_some first)

/-- The row of an external id stays. -/
lemma Grows.keeps_row (grows : Grows w w') (found : existing w A externalId = some r) :
    existing w' A externalId = some r := by
  obtain ⟨new, eq⟩ := grows.rows
  unfold existing at found ⊢
  rw [← eq, List.find?_append, found, Option.some_or]

end

/-! ## One request -/

/-- How a request is answered, and what it leaves of the world it has met. -/
inductive Answered (A : Option String) (key : Option String) (externalId : String) (w w' : World)
    (id : Uuid) : Prop where
  | found (known : keyed w A key = some id) (same : Same w w')
  | replayed {r} (unknown : keyed w A key = none) (found : existing w A externalId = some r)
      (eq : r.id = id) (same : Same w w')
  | created {r} (unknown : keyed w A key = none) (new : existing w A externalId = none)
      (row : w'.payins.rows = w.payins.rows ++ [r]) (eq : r.id = id) (grows : Grows w w')
      (external : r.externalId = externalId) (client : r.clientId = A)
      (stored : truthy key ≠ none → keyed w' A key = some id)

section
variable {d : Deployment} {chain : Chain → Chain → Prop} {A : Option String}
  {dto : CreatePayInDto} {context : RequestContext} {w w₀ w' : World} {h : Hist Api} {α : Type}
  {record : PayInRecord}

/-- What a request leaves, whether it is answered or not. -/
def Leaves (context : RequestContext) (externalId : String) (w₀ : World) :
    End Api World PayInResponse
  | .ok response, w, _ =>
    Answered context.clientId context.idempotencyKey externalId w₀ w response.id
  | .error _, w, _ => Grows w₀ w

/-- An answer leaves rows and keys grown. -/
lemma Answered.grows {key : Option String} {externalId : String} {id : Uuid}
    (answered : Answered A key externalId w w' id) : Grows w w' := by
  cases answered with
  | found known same => exact same.grows
  | replayed unknown found eq same => exact same.grows
  | created unknown new row eq grows external client stored => exact grows

/-- Rows and keys stay the same however the world moves by itself. -/
lemma steady_same : Steady chain Same where
  refl _ := .refl
  trans := .trans
  env move := ⟨move.payins, move.idempotencyKeys⟩

/-- The operations that leave rows and keys alone. -/
def IsCalm (c : Call) : Prop :=
  (decide (c.writes = some .payins) || decide (c.writes = some .idempotencyKeys)) = false

/-- A calm operation leaves rows and keys. -/
lemma same_of_calm {c : Call} {b : c.Res} (calm : IsCalm c) (run : World.exec c w = some (b, w')) :
    Same w w' := by
  have writes := Bool.or_eq_false_iff.1 calm
  exact ⟨(World.exec_frame run).payins (of_decide_eq_false writes.1),
    (World.exec_frame run).idempotencyKeys (of_decide_eq_false writes.2)⟩

/-- A calm operation whose error ends the program. -/
lemma wp_calm {c : Call} (calm : IsCalm c) {f : c.Res → Method α} {Q : End Api World α}
    (error : ∀ e w₁ h, Same w w₁ → Q (.error e) w₁ h)
    (next : ∀ w₁ b w₂ h, Same w w₁ → Same w w₂ → World.exec c w₁ = some (b, w₂) →
      (requests d chain A).wp (requests d chain A).Alone (f b) Q w₂ h) :
    (requests d chain A).wp (requests d chain A).Alone (request c >>= f) Q w h :=
  steady_same.wp (same_of_calm calm) error fun w₁ b w₂ => next w₁ b w₂ _

/-- The response to a row does not change rows and keys. -/
lemma wp_toResponse {b : Bool} {Q : End Api World PayInResponse}
    (ok : ∀ response w₁ h, Same w w₁ → response.id = record.id → Q (.ok response) w₁ h)
    (error : ∀ e w₁ h, Same w w₁ → Q (.error e) w₁ h) :
    (requests d chain A).wp (requests d chain A).Alone (toResponse record b) Q w h :=
  wp_calm (c := .auditListBySubject record.id) rfl error fun _ trail w₂ h _ same _ =>
    ok (responseOf record b trail) w₂ h same rfl

/-- The first row of the client with an external id. -/
lemma find_of_sameKey {c : Option String} {e : String}
    (taken : w.payins.rows.any fun r => sameKey c e r.clientId r.externalId) :
    (w.payins.rows.find? fun r => decide (r.externalId = e ∧ r.clientId = c)) = existing w c e := by
  obtain ⟨r, -, same⟩ := List.any_eq_true.1 taken
  have known : c.isSome = true := (Bool.and_eq_true_iff.1 same).1
  refine congrArg (List.find? · w.payins.rows) (funext fun r => ?_)
  simp [sameKey, known, and_comm]

/-- A row has been added. -/
structure Adds (record : PayInRecord) (w w' : World) : Prop where
  new : existing w record.clientId record.externalId = none
  fresh : record.id ∉ ids w
  rows : w'.payins.rows = w.payins.rows ++ [record]

/-- What an insertion leaves. -/
def Inserted (record : PayInRecord) (w₀ : World) : End Api World (PayInRecord × Bool)
  | .ok (r, true), w, _ => Same w₀ w ∧ existing w₀ record.clientId record.externalId = some r
  | .ok (r, false), w, _ => r = record ∧ Adds record w₀ w ∧ w.idempotencyKeys = w₀.idempotencyKeys
  | .error _, w, _ => Grows w₀ w

/-- The insertion answers with its own row or with the one that is there. -/
lemma wp_createOrGetExisting (same : Same w₀ w) :
    (requests d chain A).wp (requests d chain A).Alone (createOrGetExisting record)
      (Inserted record w₀) w h := by
  refine Machine.wp_bind (Machine.wp_await fun w₁ o w₂ move reply _ => ?_)
  have before := same.trans (steady_same.of_alone move)
  have performed {b : Option PayInRecord} (run : w₁.insertPayIn record = some (b, w₂)) :
      Grows w₀ w₂ := by
    obtain ⟨-, rfl, -⟩ | ⟨t, -, rfl, inserted, -⟩ := World.insertPayIn_cases run
    · exact before.grows
    · exact ⟨before.payins ▸ Table.rows_insert inserted ▸ List.prefix_append _ _, [], by simp [before.keys]⟩
  cases o with
  | refused e =>
    obtain ⟨-, rfl⟩ := reply
    exact before.grows
  | lost b e => exact performed reply.1
  | done b =>
    obtain ⟨rfl, rfl, taken⟩ | ⟨t, rfl, rfl, inserted, new⟩ := World.insertPayIn_cases reply
    · refine wp_calm (c := .payInFindByExternalId record.clientId record.externalId) rfl
        (fun e w h after => (before.trans after).grows) fun w₃ b w₄ h after later run => ?_
      refine Machine.wp_bind (Machine.wp_orThrow (fun r eq => ?_) fun _ => (before.trans later).grows)
      subst eq
      have found := (Prod.mk.inj (Option.some.inj run)).1
      have same := before.trans after
      rw [same.payins, find_of_sameKey (before.payins ▸ taken)] at found
      exact ⟨before.trans later, found⟩
    · refine ⟨rfl, ⟨?_, ?_, ?_⟩, before.keys⟩
      · rw [before.payins] at new
        exact List.find?_eq_none.2 (List.any_eq_false.1 new)
      · have fresh := Table.find?_eq_none_iff.1 (Table.fresh_of_insert inserted)
        rwa [before.payins] at fresh
      · rw [Table.rows_insert inserted, before.payins]

/-- A row that is added with its key is growth. -/
lemma Adds.grows {id : Uuid} (adds : Adds record w w') (mine : id = record.id)
    (keys : w'.idempotencyKeys = w.idempotencyKeys ∨
      ∃ k, w'.idempotencyKeys = w.idempotencyKeys ++ [(k, id)]) : Grows w w' := by
  refine ⟨adds.rows ▸ List.prefix_append _ _, ?_⟩
  rcases keys with keys | ⟨k, keys⟩
  · exact ⟨[], by simp [keys]⟩
  · refine ⟨_, keys, fun p mem => ?_⟩
    obtain rfl := List.mem_singleton.1 mem
    obtain rfl := mine
    exact ⟨by simp [ids, adds.rows], adds.fresh⟩

/-- The row has been added, and is what the key stands for. -/
structure Stored (record : PayInRecord) (context : RequestContext) (w w' : World) : Prop where
  adds : Adds record w w'
  grows : Grows w w'
  stored : truthy context.idempotencyKey ≠ none →
    keyed w' context.clientId context.idempotencyKey = some record.id

/-- What has been stored stays while nothing changes. -/
lemma Stored.same (stored : Stored record context w₀ w) (same : Same w w') :
    Stored record context w₀ w' where
  adds := ⟨stored.adds.new, stored.adds.fresh, same.payins ▸ stored.adds.rows⟩
  grows := stored.grows.trans same.grows
  stored := by
    unfold keyed
    rw [same.keys]
    exact stored.stored

/-- The key has been stored, or something has failed. -/
lemma stored_exec {key : String} {b : Unit} {w₁ w₂ : World} (nonempty : truthy context.idempotencyKey = some key)
    (unknown : keyed w₀ context.clientId context.idempotencyKey = none) (adds : Adds record w₀ w₁)
    (keys : w₁.idempotencyKeys = w₀.idempotencyKeys)
    (run : World.exec (.idempotencyKeyStore (namespacedKey context.clientId key) record.id) w₁ =
      some (b, w₂)) : Stored record context w₀ w₂ := by
  rw [keyed, nonempty, Option.bind_some, Option.map_eq_none_iff, ← keys] at unknown
  have absent : (w₁.idempotencyKeys.any fun p =>
      decide (p.1 = namespacedKey context.clientId key)) = false :=
    List.any_eq_false.2 (List.find?_eq_none.1 unknown)
  simp only [World.exec, absent, Bool.false_eq_true, if_false] at run
  cases run
  refine ⟨⟨adds.new, adds.fresh, adds.rows⟩, ?_, fun _ => ?_⟩
  · exact Adds.grows ⟨adds.new, adds.fresh, adds.rows⟩ rfl (.inr ⟨_, by rw [keys]⟩)
  · simp [keyed, nonempty, List.find?_append, unknown]

/-- The insertion, for a request whose key is not known. -/
lemma wp_insertPayIn (client : record.clientId = context.clientId) (same : Same w₀ w)
    (unknown : keyed w₀ context.clientId context.idempotencyKey = none) :
    (requests d chain A).wp (requests d chain A).Alone (insertPayIn context record)
      (Leaves context record.externalId w₀) w h := by
  refine Machine.wp_bind_of (P := Inserted record w₀) (wp_createOrGetExisting same) (fun p w h post => ?_)
    fun e w h grows => grows
  obtain ⟨r, existed⟩ := p
  cases existed with
  | true =>
    obtain ⟨same, found⟩ := post
    refine wp_toResponse (fun response w₁ h after id => ?_) fun e w₁ h after => ?_
    · exact .replayed unknown (client ▸ found) id.symm (same.trans after)
    · exact (same.trans after).grows
  | false =>
    obtain ⟨rfl, adds, keys⟩ := post
    have rest {input : AuditInput} {w h} (stored : Stored r context w₀ w) :
        (requests d chain A).wp (requests d chain A).Alone
          (request (.auditInsert input) >>= fun _ => toResponse r)
          (Leaves context r.externalId w₀) w h := by
      refine wp_calm (c := .auditInsert input) rfl (fun e w₁ h same => (stored.same same).grows)
        fun w₁ _ w₂ h _ same _ => ?_
      refine wp_toResponse (fun response w₃ h after id => ?_)
        fun e w₃ h after => (stored.same (same.trans after)).grows
      obtain ⟨adds, grows, stored⟩ := stored.same (same.trans after)
      exact .created unknown (client ▸ adds.new) adds.rows id.symm grows rfl client
        (id ▸ stored)
    dsimp only
    rw [if_neg Bool.false_ne_true]
    split
    case h_1 key nonempty =>
      refine Machine.wp_bind (Machine.wp_await fun w₁ o w₂ move reply _ => ?_)
      have waiting := steady_same.of_alone move
      have adds : Adds r w₀ w₁ := ⟨adds.new, adds.fresh, waiting.payins ▸ adds.rows⟩
      have keys := waiting.keys.trans keys
      cases o with
      | refused e =>
        obtain ⟨-, rfl⟩ := reply
        exact adds.grows rfl (.inl keys)
      | lost b e => exact (stored_exec nonempty unknown adds keys reply.1).grows
      | done b => exact rest (stored_exec nonempty unknown adds keys reply)
    case h_2 empty =>
      exact rest ⟨adds, adds.grows rfl (.inl keys), fun nonempty => absurd empty nonempty⟩

/-- A computation that yields a value changes nothing. -/
lemma wp_compute {β : Type} {x : Except Exception β} {f : β → Method PayInResponse}
    {externalId : String} (same : Same w₀ w)
    (next : ∀ b, (requests d chain A).wp (requests d chain A).Alone (f b)
      (Leaves context externalId w₀) w h) :
    (requests d chain A).wp (requests d chain A).Alone (Prog.ofExcept (S := Api) x >>= f)
      (Leaves context externalId w₀) w h := by
  refine Machine.wp_bind (Machine.wp_ofExcept.2 ?_)
  cases x with
  | ok b => exact next b
  | error e => exact same.grows

/-- A calm operation of a request that has not written yet. -/
lemma wp_read {c : Call} (calm : IsCalm c) {f : c.Res → Method PayInResponse} {externalId : String}
    (same : Same w₀ w)
    (next : ∀ b w h, Same w₀ w → (requests d chain A).wp (requests d chain A).Alone (f b)
      (Leaves context externalId w₀) w h) :
    (requests d chain A).wp (requests d chain A).Alone (request c >>= f)
      (Leaves context externalId w₀) w h :=
  wp_calm calm (fun _ _ _ after => (same.trans after).grows)
    fun _ b w h _ after _ => next b w h (same.trans after)

/-- A request whose key is not known. -/
lemma wp_createNewPayIn (same : Same w₀ w)
    (unknown : keyed w₀ context.clientId context.idempotencyKey = none) :
    (requests d chain A).wp (requests d chain A).Alone (createNewPayIn d dto context)
      (Leaves context dto.externalId w₀) w h := by
  refine wp_compute same fun amount => ?_
  dsimp only
  split
  case h_1 =>
    refine wp_compute same fun router => ?_
    refine wp_read (c := .getBlockNumber) rfl same fun startBlock w h same => ?_
    refine wp_read (c := .clock) rfl same fun now w h same => ?_
    refine wp_read (c := .randomUUID) rfl same fun id w h same => ?_
    exact wp_insertPayIn rfl same unknown
  case h_2 =>
    refine wp_read (c := .getBlockNumber) rfl same fun startBlock w h same => ?_
    refine wp_read (c := .clock) rfl same fun now w h same => ?_
    refine wp_read (c := .claimNextPayInIndex) rfl same fun derivationIndex w h same => ?_
    refine wp_compute same fun depositAddress => ?_
    refine wp_read (c := .randomUUID) rfl same fun id w h same => ?_
    exact wp_insertPayIn rfl same unknown

/-- One request, in a world in which every key stands for a row. -/
lemma wp_createPayIn (rows : ∀ p ∈ w.idempotencyKeys, p.2 ∈ ids w) :
    (requests d chain A).wp (requests d chain A).Alone (createPayIn d dto context)
      (Leaves context dto.externalId w) w h := by
  unfold createPayIn
  split
  case h_1 empty => exact wp_createNewPayIn .refl (by rw [keyed, empty, Option.bind_none])
  case h_2 key nonempty =>
    refine Machine.wp_bind (wp_calm (c := .idempotencyKeyFind (namespacedKey context.clientId key)) rfl
      (fun e w h same => same.grows) fun w₁ b w₂ h before same run => ?_)
    have lookup := (Prod.mk.inj (Option.some.inj run)).1
    rw [before.keys] at lookup
    cases b with
    | none => exact wp_createNewPayIn same (by rw [keyed, nonempty, Option.bind_some, lookup])
    | some id =>
      have known : keyed w context.clientId context.idempotencyKey = some id := by
        rw [keyed, nonempty, Option.bind_some, lookup]
      obtain ⟨p, first, rfl⟩ := Option.map_eq_some_iff.1 lookup
      refine steady_same.wp_request (c := .payInFindById p.2 none) (same_of_calm rfl)
        (fun e w h later => (same.trans later).grows) fun w₃ prior w₄ waiting later run => ?_
      have found := (Prod.mk.inj (Option.some.inj run)).1
      obtain ⟨row, there⟩ := Option.ne_none_iff_exists'.1 fun absent =>
        Table.find?_eq_none_iff.1 absent (rows p (List.mem_of_find?_eq_some first))
      rw [World.findPayIn, (same.trans waiting).payins, there] at found
      obtain rfl : some row = prior := found
      have same := same.trans later
      refine wp_toResponse (fun response w h after mine => .found ?_ (same.trans after))
        fun e w h after => (same.trans after).grows
      rw [known, mine, Table.key_of_find? there]

/-- What a run of a request leaves. -/
lemma leaves_of_runs {r : Except Exception PayInResponse} {w₁ : World} {h₁ : Hist Api}
    (rows : ∀ p ∈ w.idempotencyKeys, p.2 ∈ ids w)
    (run : (requests d chain A).Runs (requests d chain A).Alone (createPayIn d dto context) w h r w₁ h₁) :
    Leaves context dto.externalId w r w₁ h₁ :=
  Machine.wp_sound run (wp_createPayIn rows)

end

/-! ## Histories -/

section
variable {d : Deployment} {chain : Chain → Chain → Prop} {A : Option String} {w w' : World}

/-- Keys go on standing for rows. -/
lemma Grows.keys_rows (grows : Grows w w') (rows : ∀ p ∈ w.idempotencyKeys, p.2 ∈ ids w) :
    ∀ p ∈ w'.idempotencyKeys, p.2 ∈ ids w' := by
  obtain ⟨new, eq, fresh⟩ := grows.keys
  intro p mem
  rw [eq] at mem
  rcases List.mem_append.1 mem with mem | mem
  · exact grows.mem_ids (rows p mem)
  · exact (fresh p mem).1

/-- Requests only add rows, and keys with rows that they add. -/
theorem grows_of_session (rows : ∀ p ∈ w.idempotencyKeys, p.2 ∈ ids w)
    (session : (requests d chain A).Session w w') : Grows w w' := by
  refine Machine.session_induction (I := Grows w)
    (fun w₁ w₂ (move : World.Env chain w₁ w₂) grows => grows.trans
      (Same.grows ⟨move.payins, move.idempotencyKeys⟩))
    (fun p r w₁ w₂ h entry run grows => grows.trans ?_) session Same.refl.grows
  cases entry with
  | createPayIn client =>
    refine Machine.wp_sound (Q := fun _ w₂ _ => Grows w₁ w₂) run (Machine.wp_bind (Machine.wp_mono
      (fun r w h leaves => ?_) (wp_createPayIn (grows.keys_rows rows))))
    cases r with
    | ok response => exact Answered.grows leaves
    | error e => exact leaves

/-- The row of an external id has it, and is the client's. -/
lemma of_existing {externalId : String} {r : PayInRecord} (found : existing w A externalId = some r) :
    r ∈ w.payins.rows ∧ r.externalId = externalId ∧ A ≠ none := by
  have same := List.find?_some found
  obtain ⟨known, eq⟩ := Bool.and_eq_true_iff.1 same
  exact ⟨List.mem_of_find?_eq_some found, (of_decide_eq_true eq).2, Option.isSome_iff_ne_none.1 known⟩

/-- An inserted row is the row of its external id, if it has a client. -/
lemma existing_of_created {externalId : String} {r : PayInRecord}
    (row : w'.payins.rows = w.payins.rows ++ [r]) (new : existing w A externalId = none)
    (external : r.externalId = externalId) (client : r.clientId = A) (known : A ≠ none) :
    existing w' A externalId = some r := by
  rw [existing, row, List.find?_append, ← existing, new, Option.none_or]
  simp [sameKey, external, client, Option.isSome_iff_ne_none, known]

/-- A request whose key is not known is answered from a row just when it names the row's external
    id. -/
lemma answered_from_iff {key : Option String} {externalId externalId' : String} {id : Uuid}
    {r : PayInRecord} (answered : Answered A key externalId' w w' id) (unknown : keyed w A key = none)
    (mem : r ∈ w.payins.rows) (external : r.externalId = externalId)
    (found : A ≠ none → existing w A externalId = some r) :
    id = r.id ∧ w'.payins = w.payins ↔ externalId' = externalId ∧ A ≠ none := by
  cases answered with
  | found known same =>
    rw [unknown] at known
    cases known
  | @replayed r' _ found' eq same =>
    obtain ⟨mem', external', client⟩ := of_existing found'
    constructor
    · rintro ⟨mine, -⟩
      obtain rfl : r' = r := List.inj_on_of_nodup_map w.payins.nodup mem' mem (eq.trans mine)
      exact ⟨external'.symm.trans external, client⟩
    · rintro ⟨rfl, -⟩
      obtain rfl := Option.some.inj (found'.symm.trans (found client))
      exact ⟨eq.symm, same.payins⟩
  | @created r' _ new row eq grows external' client stored =>
    constructor
    · rintro ⟨-, same⟩
      rw [same] at row
      simp at row
    · rintro ⟨rfl, client⟩
      rw [found client] at new
      cases new

end

/-- Two requests of a client that carry one key, in any history. They are answered from one row, and
    the second inserts none, just when the key is known before the first, or the first inserts a row,
    or nobody has used the key in between and the second names the external id of the first. -/
theorem key_honoured_iff {d : Deployment} {chain : Chain → Chain → Prop} {A : Option String}
    {c : Chain} {now : Timestamp} {nextUuid : Uuid} {nextBytes32 : Hex} {w₁ w₂ w₃ w₄ : World}
    {dto₁ dto₂ : CreatePayInDto} {context₁ context₂ : RequestContext} {key : String}
    {response₁ response₂ : PayInResponse} {h₁ h₂ : Hist Api}
    (before : (requests d chain A).Session (.fresh c now nextUuid nextBytes32) w₁)
    (first : (requests d chain A).Runs (requests d chain A).Alone (createPayIn d dto₁ context₁) w₁ []
      (.ok response₁) w₂ h₁)
    (between : (requests d chain A).Session w₂ w₃)
    (second : (requests d chain A).Runs (requests d chain A).Alone (createPayIn d dto₂ context₂) w₃ []
      (.ok response₂) w₄ h₂)
    (client₁ : context₁.clientId = A) (client₂ : context₂.clientId = A)
    (key₁ : context₁.idempotencyKey = some key) (key₂ : context₂.idempotencyKey = some key) :
    response₂.id = response₁.id ∧ w₄.payins = w₃.payins ↔
      (keyed w₁ A (some key)).isSome ∨ (existing w₁ A dto₁.externalId = none ∧ key ≠ "") ∨
        (keyed w₃ A (some key) = none ∧ dto₂.externalId = dto₁.externalId ∧ A ≠ none) := by
  have rows₁ := (grows_of_session (by simp [World.fresh]) before).keys_rows (by simp [World.fresh])
  have answered₁ : Answered A (some key) dto₁.externalId w₁ w₂ response₁.id := by
    have leaves := leaves_of_runs rows₁ first
    rwa [Leaves, client₁, key₁] at leaves
  have rows₂ := answered₁.grows.keys_rows rows₁
  have grows := grows_of_session rows₂ between
  have answered₂ : Answered A (some key) dto₂.externalId w₃ w₄ response₂.id := by
    have leaves := leaves_of_runs (grows.keys_rows rows₂) second
    rwa [Leaves, client₂, key₂] at leaves
  -- a key that is known before the second request stands for its answer
  have of_known {id : Uuid} (known : keyed w₃ A (some key) = some id) :
      response₂.id = id ∧ w₄.payins = w₃.payins := by
    cases answered₂ with
    | found known' same => exact ⟨Option.some.inj (known'.symm.trans known), same.payins⟩
    | replayed unknown => rw [known] at unknown; cases unknown
    | created unknown => rw [known] at unknown; cases unknown
  cases answered₁ with
  | found known same =>
    have still := grows.keeps_key (same.grows.keeps_key known)
    exact ⟨fun _ => .inl (by simp [known]), fun _ => of_known still⟩
  | @replayed r unknown found eq same =>
    obtain ⟨mem, external, client⟩ := of_existing found
    have later := same.grows.trans grows
    rw [unknown, found]
    cases known : keyed w₃ A (some key) with
    | some id =>
      have own := of_known known
      refine ⟨fun honoured => ?_, by simp⟩
      have fresh := (later.adds_key unknown known).2
      rw [← own.1, honoured.1, ← eq] at fresh
      exact absurd (List.mem_map_of_mem mem) fresh
    | none =>
      have iff := answered_from_iff answered₂ known (later.rows.subset mem) external
        fun _ => later.keeps_row found
      rw [← eq, iff]
      simp
  | @created r unknown new row eq created external client stored =>
    have mem : r ∈ w₃.payins.rows := grows.rows.subset (by simp [row])
    by_cases empty : key = ""
    · subst empty
      have none (w : World) : keyed w A (some "") = none := rfl
      have iff := answered_from_iff answered₂ (none w₃) mem external
        fun known => grows.keeps_row (existing_of_created row new external client known)
      rw [← eq, iff, none, none]
      simp
    · have known := stored (by simp [truthy, empty])
      exact ⟨fun _ => .inr (.inl ⟨new, empty⟩), fun _ => of_known (grows.keeps_key known)⟩

/-! ## Concrete requests -/

/-- The requests of the client of the concrete runs. -/
abbrev sampleRequests : Machine Api World := requests .sample Advances (some "client")

/-- A request that carries a key. -/
def keyedCreate (externalId : String) : Method PayInResponse :=
  createPayIn .sample { sampleDto .derivedAddress with externalId }
    { RequestContext.sample with idempotencyKey := some "key" }

/-- A request that carries the key, with its response. -/
def attempt (externalId : String) (w : World) : Option (PayInResponse × World × Hist Api) :=
  match sampleRequests.play Machine.always (keyedCreate externalId) (.replicate 9 .done) w [] with
  | some (.ok response, w, h) => some (response, w, h)
  | _ => none

/-- A request that is evaluated is a run. -/
lemma runs_of_attempt {externalId : String} {w w' : World} {r : PayInResponse} {h : Hist Api}
    (res : attempt externalId w = some (r, w', h)) :
    sampleRequests.Runs sampleRequests.Alone (keyedCreate externalId) w [] (.ok r) w' h := by
  unfold attempt at res
  split at res
  case h_1 played =>
    cases res
    exact Machine.runs_of_play (fun _ _ _ _ => trivial) (fun _ _ => .refl) played
  case h_2 => cases res

/-- Two requests that carry the key, after a session. -/
lemma exists_requests (parts : List (Part Api World)) (e e' : String)
    (P : PayInResponse → PayInResponse → World → World → World → Bool)
    (legal : ∀ p ∈ parts, p.Legal sampleRequests)
    (res : ((sampleRequests.session Machine.always parts .sample).any fun w =>
      (attempt e w).any fun r₁ => (attempt e' (redraw otherId r₁.2.1)).any fun r₂ =>
        P r₁.1 r₂.1 w (redraw otherId r₁.2.1) r₂.2.1) = true) :
    ∃ w₁ w₂ w₃ w₄ r₁ r₂ h₁ h₂, sampleRequests.Session .sample w₁ ∧
      sampleRequests.Runs sampleRequests.Alone (keyedCreate e) w₁ [] (.ok r₁) w₂ h₁ ∧
      sampleRequests.Session w₂ w₃ ∧
      sampleRequests.Runs sampleRequests.Alone (keyedCreate e') w₃ [] (.ok r₂) w₄ h₂ ∧
      P r₁ r₂ w₁ w₃ w₄ = true := by
  obtain ⟨w₁, before, res⟩ := (Option.any_eq_true _ _).1 res
  obtain ⟨⟨r₁, w₂, h₁⟩, first, res⟩ := (Option.any_eq_true _ _).1 res
  obtain ⟨⟨r₂, w₄, h₂⟩, second, holds⟩ := (Option.any_eq_true _ _).1 res
  exact ⟨w₁, w₂, redraw otherId w₂, w₄, r₁, r₂, h₁, h₂,
    Machine.session_of_eval (fun _ _ _ _ => trivial) legal before, runs_of_attempt first,
    .single (.env (env_redraw w₂)), runs_of_attempt second, holds⟩

/-- A key that is used for two external ids, first on a new one: one row answers both requests. -/
theorem key_honoured_of_new : ∃ w₁ w₂ w₃ w₄ r₁ r₂ h₁ h₂, sampleRequests.Session .sample w₁ ∧
    sampleRequests.Runs sampleRequests.Alone (keyedCreate "inv-1") w₁ [] (.ok r₁) w₂ h₁ ∧
    sampleRequests.Session w₂ w₃ ∧
    sampleRequests.Runs sampleRequests.Alone (keyedCreate "inv-2") w₃ [] (.ok r₂) w₄ h₂ ∧
    r₂.id = r₁.id ∧ w₄.payins = w₃.payins := by
  obtain ⟨w₁, w₂, w₃, w₄, r₁, r₂, h₁, h₂, before, first, between, second, new⟩ :=
    exists_requests [] "inv-1" "inv-2"
      (fun _ _ w₁ _ _ => (existing w₁ (some "client") "inv-1").isNone) (by simp) (by decide +kernel)
  exact ⟨w₁, w₂, w₃, w₄, r₁, r₂, h₁, h₂, before, first, between, second,
    (key_honoured_iff before first between second rfl rfl rfl rfl).2
      (.inr (.inl ⟨Option.isNone_iff_eq_none.1 new, by decide⟩))⟩

/-- A key that is used for two external ids, first on one that has a row: the second request inserts
    another row. -/
theorem key_dishonoured : ∃ w₁ w₂ w₃ w₄ r₁ r₂ h₁ h₂, sampleRequests.Session .sample w₁ ∧
    sampleRequests.Runs sampleRequests.Alone (keyedCreate "inv-1") w₁ [] (.ok r₁) w₂ h₁ ∧
    sampleRequests.Session w₂ w₃ ∧
    sampleRequests.Runs sampleRequests.Alone (keyedCreate "inv-2") w₃ [] (.ok r₂) w₄ h₂ ∧
    r₂.id ≠ r₁.id ∧ w₄.payins.rows.length = w₃.payins.rows.length + 1 := by
  obtain ⟨w₁, w₂, w₃, w₄, r₁, r₂, h₁, h₂, before, first, between, second, res⟩ :=
    exists_requests [.call (sampleCreate .derivedAddress) (.replicate 7 .done)] "inv-1" "inv-2"
      (fun r₁ r₂ _ w₃ w₄ => decide (r₂.id ≠ r₁.id) &&
        decide (w₄.payins.rows.length = w₃.payins.rows.length + 1))
      (by simp only [List.forall_mem_cons]; exact ⟨.createPayIn rfl, by simp⟩) (by decide +kernel)
  simp only [Bool.and_eq_true, decide_eq_true_eq] at res
  exact ⟨w₁, w₂, w₃, w₄, r₁, r₂, h₁, h₂, before, first, between, second, res⟩

end AvaSettle.Payins.Idempotency
