import AvaSettle.Async.Possible
import AvaSettle.ChainFlow.Lookup
import AvaSettle.Model.Frame

/-!
# Finding a withdrawal again

A lookup by one identifier asks for the payout with that external id first. Where there is none it
compares the identifier with what is recorded of the newest payouts, as many as one page of the listing
holds. So a withdrawal is found by its external id always, and by anything else only while its payout is
on that page. Identifiers are normalized both where they are recorded and where they are compared, so a
number finds what the same digits find.
-/

namespace AvaSettle.ChainFlow.Retrieval
open Async Payouts Blockchain
open Data (Table)

/-! ## What a withdrawal is known by -/

/-- The fields of a withdrawal that identify it. -/
inductive Field where
  | tcTransaccionExterna
  | externalId
  | tnRetiroPago
  | tnTransferenciaBloque

/-- The value of the field in the request that prepares the withdrawal. -/
def Field.value (dto : ChainFlowRetiroDto) : Field → Json
  | .tcTransaccionExterna => .ofOption dto.tcTransaccionExterna
  | .externalId => .ofOption dto.externalId
  | .tnRetiroPago => dto.tnRetiroPago
  | .tnTransferenciaBloque => dto.tnTransferenciaBloque

/-- The request is about the identifier alone. -/
def AsksFor (q : ChainFlowEstadoRetiroDto) (v : String) : Prop :=
  truthy q.payoutId = none ∧ identifiers q = [v]

/-- The payout has what the request says of it. -/
def Prepares (dto : ChainFlowRetiroDto) (r : PayoutRecord) : Prop :=
  ∃ createDto, toCreatePayoutDto dto = .ok createDto ∧ r.externalId = createDto.externalId ∧
    r.chainFlowRequestId = createDto.chainFlowRequestId ∧
    r.metadata = createDto.metadata.getD (.obj [])

/-- The identifiers that are recorded of a payout. -/
def names (r : PayoutRecord) : List String := candidates (responseOf r false [])

/-- The payouts that a caller sees. -/
def visible (context : RequestContext) (t : Table PayoutRecord.id) : List PayoutRecord :=
  t.select fun r => (ListFilters.mk context.clientId none none none none).matches r.clientId r.status
    r.externalId

/-- The payouts that a lookup compares. -/
def firstPage (context : RequestContext) (t : Table PayoutRecord.id) : List PayoutRecord :=
  page PayoutRecord.createdAt 200 0 (visible context t)

/-- No two payouts that a caller sees have an identifier in common. -/
def Unshared (context : RequestContext) (t : Table PayoutRecord.id) : Prop :=
  ∀ r₁ ∈ visible context t, ∀ r₂ ∈ visible context t, ∀ v ∈ names r₁, v ∈ names r₂ → r₁ = r₂

/-- The payout can be found by the identifier `v`, the value of its field `f`. -/
def Findable (context : RequestContext) (t : Table PayoutRecord.id) (r : PayoutRecord) (f : Field)
    (v : String) : Prop :=
  v = r.externalId ∨ (f = .externalId → v ∈ names r) ∧ r ∈ firstPage context t

/-! ## The machines -/

/-- Withdrawals are prepared, by the requests `asked`. -/
abbrev preparing (d : Deployment) (chain : Chain → Chain → Prop)
    (asked : ChainFlowRetiroDto → RequestContext → Prop) : Machine Api World :=
  machine chain (fun p => ∃ dto context, asked dto context ∧ p = (prepararRetiro d dto context).discard)
    fun _ _ _ => True

/-- Every operation is answered. -/
abbrev answering : Machine Api World :=
  machine (fun _ _ => True) (fun _ => False) fun _ _ e => e.outcome.threw = false

/-- Nobody else writes payouts. -/
def Unmoved (_ : Hist Api) (w w' : World) : Prop := w'.payouts = w.payouts

/-! ## What is recorded -/

section
variable {dto : ChainFlowRetiroDto} {createDto : CreatePayoutDto} {r : PayoutRecord} {f : Field} {v : String}
  {a b : List (String × Json)} {key : String} {value : Json}

/-- A field is found by its key where keys differ. -/
lemma lookup_of_mem {l : List (String × Json)} (nodup : (l.map Prod.fst).Nodup) (mem : (key, value) ∈ l) :
    l.lookup key = some value := by
  induction l with
  | nil => cases mem
  | cons e l ih =>
    obtain ⟨k, x⟩ := e
    obtain ⟨fresh, nodup⟩ := List.nodup_cons.1 nodup
    rcases List.mem_cons.1 mem with eq | mem
    · cases eq
      simp
    · have ne : key ≠ k := fun eq => fresh (List.mem_map.2 ⟨_, mem, eq⟩)
      rw [List.lookup_cons, beq_eq_false_iff_ne.2 ne]
      exact ih nodup mem

/-- The later of two objects has the last word. -/
lemma property_spread (nodup : (b.map Prod.fst).Nodup) (mem : (key, value) ∈ b) :
    property key (spread a b) = value := by
  have inj : ∀ x ∈ b, ∀ y ∈ b, x.1 = y.1 → x = y := fun x hx y hy eq =>
    List.inj_on_of_nodup_map nodup hx hy eq
  rw [property, spread, lookup_of_mem Data.nodup_byKey (Data.mem_byKey_append_right inj mem)]
  rfl

/-- What identifies a withdrawal is not compacted away. -/
lemma mem_compactRecord {l : List (String × Json)} (mem : (key, value) ∈ l)
    (normal : normalizeIdentifier value = some v) : (key, value) ∈ compactRecord l := by
  refine List.mem_filter.2 ⟨mem, ?_⟩
  cases value with
  | str s =>
    have kept : truthy (some (trim s)) = some v := normal
    obtain ⟨eq, nonempty⟩ := Option.filter_eq_some_iff.1 kept
    cases eq
    simpa using nonempty
  | num n => rfl
  | _ => cases normal

/-- Leaving out fields keeps the keys different. -/
lemma nodup_compactRecord {l : List (String × Json)} (nodup : (l.map Prod.fst).Nodup) :
    ((compactRecord l).map Prod.fst).Nodup :=
  nodup.sublist (List.filter_sublist.map _)

/-- The recorded value of a field of the request. -/
lemma property_withdrawalMetadata (key : String) (mem : (key, value) ∈ [
      ("tcTransaccionExterna", .ofOption dto.tcTransaccionExterna),
      ("tnRetiroPago", dto.tnRetiroPago),
      ("tnTransferenciaBloque", dto.tnTransferenciaBloque),
      ("tnProcesadorPagos", dto.tnProcesadorPagos),
      ("tnMoneda", dto.tnMoneda),
      ("tcCuentaDestino", .ofOption dto.tcCuentaDestino)])
    (normal : normalizeIdentifier value = some v) : property key (withdrawalMetadata dto) = value :=
  property_spread (nodup_compactRecord (by simp)) (mem_compactRecord mem normal)

/-- The request that a payout is made from. -/
lemma metadata_of_toCreatePayoutDto (made : toCreatePayoutDto dto = .ok createDto) :
    (∃ v, normalizeIdentifier (coalesce (.ofOption dto.tcTransaccionExterna) (.ofOption dto.externalId)) =
      some v ∧ createDto.externalId = v) ∧ createDto.executeImmediately = false ∧
    property "chainFlow" (asRecord (createDto.metadata.getD (.obj []))) = .obj (withdrawalMetadata dto) := by
  unfold toCreatePayoutDto at made
  generalize resolveAsset _ = asset at made
  cases asset with
  | error e => cases made
  | ok asset =>
    simp only [bind, Except.bind, pure, Except.pure] at made
    split at made
    case h_4 externalId amount beneficiary isExternalId _ _ =>
      cases made
      exact ⟨⟨externalId, isExternalId, rfl⟩, rfl, property_spread (by simp) (by simp)⟩
    all_goals cases made

/-- The external id of a withdrawal is an identifier. -/
lemma externalId_normal (prepares : Prepares dto r) :
    normalizeIdentifier (.str r.externalId) = some r.externalId := by
  obtain ⟨createDto, made, eq, -⟩ := prepares
  obtain ⟨⟨v, normal, rfl⟩, -⟩ := metadata_of_toCreatePayoutDto made
  rw [eq]
  exact normalizeIdentifier_of normal

/-- The external id of a withdrawal is recorded. -/
lemma externalId_mem_names (prepares : Prepares dto r) : r.externalId ∈ names r :=
  List.mem_filterMap.2 ⟨.str r.externalId, List.mem_cons_self, externalId_normal prepares⟩

/-- The metadata of a prepared payout is that of its withdrawal. -/
lemma chainFlowMetadata_of_prepares (prepares : Prepares dto r) :
    chainFlowMetadata (responseOf r false []) = withdrawalMetadata dto := by
  obtain ⟨createDto, made, -, -, metadata⟩ := prepares
  change asRecord (property "chainFlow" (asRecord r.metadata)) = _
  rw [metadata, (metadata_of_toCreatePayoutDto made).2.2]
  rfl

/-- What else identifies a withdrawal is recorded. -/
lemma value_mem_names (prepares : Prepares dto r) (other : f ≠ .externalId)
    (normal : normalizeIdentifier (f.value dto) = some v) : v ∈ names r := by
  refine List.mem_filterMap.2 ⟨f.value dto, ?_, normal⟩
  rw [chainFlowMetadata_of_prepares prepares]
  cases f with
  | externalId => exact absurd rfl other
  | tcTransaccionExterna =>
    rw [property_withdrawalMetadata "tcTransaccionExterna" (by simp [Field.value]) normal]
    simp
  | tnRetiroPago =>
    rw [property_withdrawalMetadata "tnRetiroPago" (by simp [Field.value]) normal]
    simp
  | tnTransferenciaBloque =>
    rw [property_withdrawalMetadata "tnTransferenciaBloque" (by simp [Field.value]) normal]
    simp

end

/-! ## The lookup -/

/-- The payout of a caller with the external id. -/
def byExternalId (context : RequestContext) (t : Table PayoutRecord.id) (i : String) : Option PayoutRecord :=
  t.rows.find? fun r => decide (r.externalId = i ∧ r.clientId = context.clientId)

/-- The payout that a lookup by one identifier finds. -/
def found (context : RequestContext) (t : Table PayoutRecord.id) (v : String) : Option PayoutRecord :=
  byExternalId context t v <|> (firstPage context t).find? fun r => decide (v ∈ names r)

/-- The response of a payout that has been found, or an exception. -/
def Responds (o : Option PayoutRecord) : Except Exception PayoutResponse → Prop
  | .ok p => ∃ r trail, o = some r ∧ p = responseOf r false trail
  | .error _ => o = none

/-- What has been found, or nothing. -/
def Tried (o : Option PayoutRecord) : Except Exception (Option PayoutResponse) → Prop
  | .ok (some p) => Responds o (.ok p)
  | .ok none => o = none
  | .error _ => False

section
variable {context : RequestContext} {t : Table PayoutRecord.id} {w : World} {h : Hist Api} {r : PayoutRecord}
  {i v : String} {q : ChainFlowEstadoRetiroDto}

/-- An operation that only reads. -/
lemma leads_read {c : Call} {f : World → c.Res} {K : Outcome Api.Err (Api.Res c) → World → Hist Api → Prop}
    (reads : ∀ w, World.exec c w = some (f w, w)) (same : w.payouts = t)
    (post : ∀ w', w'.payouts = t → K (.done (f w')) w' (h ++ [⟨c, .done (f w')⟩])) :
    answering.Leads Unmoved c K w h := by
  intro w₁ o w₂ move reply ok
  cases o with
  | done b =>
    cases (reads w₁).symm.trans reply
    exact post w₁ (move.trans same)
  | refused e => cases ok
  | lost b e => cases ok

/-- The response to a row is about it. -/
lemma wp_toResponse (same : w.payouts = t) :
    answering.wp Unmoved (toResponse r) (fun x w _ => w.payouts = t ∧ Responds (some r) x) w h :=
  Machine.wp_bind (Machine.wp_await (leads_read (c := .auditListBySubject r.id) (fun _ => rfl) same
    fun _ same => ⟨same, r, _, rfl, rfl⟩))

/-- A lookup by external id answers with the first such row. -/
lemma wp_getPayoutByExternalId (same : w.payouts = t) :
    answering.wp Unmoved (getPayoutByExternalId i context)
      (fun x w _ => w.payouts = t ∧ Responds (byExternalId context t i) x) w h := by
  refine Machine.wp_bind (Machine.wp_await (leads_read (c := .payoutFindByExternalId context.clientId i)
    (fun _ => rfl) same fun w same => ?_))
  have eq : (w.payouts.rows.find? fun r => decide (r.externalId = i ∧ r.clientId = context.clientId)) =
      byExternalId context t i := by rw [same, byExternalId]
  change answering.wp Unmoved (_ >>= _) _ w _
  rw [eq]
  cases byExternalId context t i with
  | none => exact ⟨same, rfl⟩
  | some r => exact wp_toResponse same

/-- A lookup by external id that may fail answers with the first such row, if there is one. -/
lemma wp_tryGetPayoutByExternalId (same : w.payouts = t) :
    answering.wp Unmoved (tryGetPayoutByExternalId i context)
      (fun x w _ => w.payouts = t ∧ Tried (byExternalId context t i) x) w h := by
  refine Machine.wp_tryCatch_of (P := fun x w _ => w.payouts = t ∧ match x with
    | .ok o => Tried (byExternalId context t i) (.ok o)
    | .error _ => byExternalId context t i = none) ?_ ?_ ?_
  case refine_2 => exact fun _ _ _ tried => tried
  case refine_3 => exact fun _ _ _ missing => missing
  exact Machine.wp_bind_of (wp_getPayoutByExternalId same) (fun _ _ _ tried => tried) fun _ _ _ tried => tried

/-- The first stage of a lookup. -/
lemma wp_firstByExternalId (same : w.payouts = t) :
    answering.wp Unmoved (firstByExternalId context [v])
      (fun x w _ => w.payouts = t ∧ Tried (byExternalId context t v) x) w h := by
  refine Machine.wp_bind_of (wp_tryGetPayoutByExternalId same) (fun o w h tried => ?_) fun _ _ _ tried => tried
  cases o with
  | some p => exact tried
  | none => exact tried

/-- The first page has no row twice. -/
lemma nodup_firstPage : (firstPage context t).Nodup :=
  nodup_page (t.nodup.of_map.filter _)

/-- The responses of the rows of a listing. -/
lemma wp_responses {rows : List PayoutRecord} (same : w.payouts = t) (nodup : rows.Nodup) :
    answering.wp Unmoved (Prog.promiseAll (rows.map toResponseSlot)) (fun x w _ => w.payouts = t ∧
      ∃ ps, x = .ok ps ∧ List.Forall₂ (fun r p => ∃ trail, p = responseOf r false trail) rows ps) w h := by
  refine Machine.wp_promiseAll_each (P := fun _ _ => True)
    (R := fun r p _ => ∃ trail, p = responseOf r false trail) (G := fun w => w.payouts = t)
    (fun r => ⟨_, _, rfl⟩) nodup ?_ (fun ps w h each same => ⟨same, ps, rfl, each⟩) (fun _ _ => trivial) same
  intro r mem op post slot w₁ h₁ _ same
  cases slot
  refine leads_read (c := .auditListBySubject r.id) (fun _ => rfl) same fun w₂ same => ⟨?_, ?_⟩
  · intro p answer
    cases answer
    exact ⟨⟨_, rfl⟩, same, fun _ _ _ => ⟨id, fun _ h => h⟩⟩
  · intro e answer
    cases answer

/-- The listing, with its responses. -/
lemma wp_listPayouts (same : w.payouts = t) :
    answering.wp Unmoved (listPayouts {} context)
      (fun x w _ => w.payouts = t ∧ ∃ ps, x = .ok ps ∧
        List.Forall₂ (fun r p => ∃ trail, p = responseOf r false trail) (firstPage context t) ps) w h := by
  refine Machine.wp_bind (Machine.wp_await (leads_read
    (c := .payoutList ⟨context.clientId, none, none, none, none⟩)
    (f := fun w => firstPage context w.payouts) (fun _ => rfl) same fun w same => ?_))
  rw [same]
  exact wp_responses same nodup_firstPage

/-- The second stage of a lookup. -/
lemma find?_of_responses {rows : List PayoutRecord} {ps : List PayoutResponse}
    (each : List.Forall₂ (fun r p => ∃ trail, p = responseOf r false trail) rows ps) :
    (∃ p, ps.find? (matchesChainFlowLookup [v]) = some p ∧
        Responds (rows.find? fun r => decide (v ∈ names r)) (.ok p)) ∨
      ps.find? (matchesChainFlowLookup [v]) = none ∧ rows.find? (fun r => decide (v ∈ names r)) = none := by
  induction each with
  | nil => exact .inr ⟨rfl, rfl⟩
  | @cons r p rows ps head _ ih =>
    obtain ⟨trail, rfl⟩ := head
    have matching : matchesChainFlowLookup [v] (responseOf r false trail) = decide (v ∈ names r) := by
      change (names r).any _ = _
      simp [List.any_eq]
    rw [List.find?_cons, List.find?_cons, matching]
    by_cases mem : v ∈ names r
    · rw [decide_eq_true mem]
      exact .inl ⟨_, rfl, r, trail, rfl, rfl⟩
    · rw [decide_eq_false mem]
      exact ih

/-- What is asked for is an identifier. -/
lemma normal_of_asksFor (asks : AsksFor q v) : normalizeIdentifier (.str v) = some v := by
  have mem : v ∈ identifiers q := asks.2 ▸ List.mem_singleton_self v
  obtain ⟨value, -, normal⟩ := List.mem_filterMap.1 mem
  exact normalizeIdentifier_of normal

/-- A lookup by one identifier. -/
lemma wp_resolvePayout (asks : AsksFor q v) (same : w.payouts = t) :
    answering.wp Unmoved (resolvePayout q context)
      (fun x w _ => w.payouts = t ∧ Responds (found context t v) x) w h := by
  unfold resolvePayout
  rw [asks.1, asks.2]
  dsimp only
  refine Machine.wp_bind_of (wp_firstByExternalId same) (fun o w h tried => ?_) fun _ _ _ tried => tried.2.elim
  obtain ⟨same, tried⟩ := tried
  cases o with
  | some p =>
    obtain ⟨r, trail, eq, rfl⟩ := tried
    exact ⟨same, r, trail, by rw [found, eq]; rfl, rfl⟩
  | none =>
    have none : byExternalId context t v = none := tried
    have second : found context t v = (firstPage context t).find? fun r => decide (v ∈ names r) := by
      rw [found, none]
      rfl
    refine Machine.wp_bind_of (wp_listPayouts same) (fun ps w h listed => ?_) fun _ _ _ listed => ?_
    · obtain ⟨same, ps, ⟨⟩, each⟩ := listed
      rcases find?_of_responses (v := v) each with ⟨p, eq, picked⟩ | ⟨eq, picked⟩
      · rw [eq, second]
        exact ⟨same, picked⟩
      · rw [eq, second]
        refine Machine.wp_mono (fun x w h post => ⟨post.1, ?_⟩) (wp_getPayoutByExternalId same)
        rw [none] at post
        cases x with
        | error e => exact picked
        | ok p =>
          obtain ⟨r, trail, eq, -⟩ := post.2
          cases eq
    · obtain ⟨-, ps, eq, -⟩ := listed
      cases eq

/-! ## What it finds -/

/-- The rows of a client are visible to it. -/
lemma mem_visible (mem : r ∈ t.rows) (own : r.clientId = context.clientId) : r ∈ visible context t := by
  refine List.mem_filter.2 ⟨mem, ?_⟩
  cases client : context.clientId with
  | none => simp [ListFilters.matches, truthy]
  | some c =>
    by_cases empty : c = ""
    · simp [ListFilters.matches, truthy, empty]
    · simp [ListFilters.matches, truthy, own, client, empty]

/-- The payout with the external id carries it as an identifier. -/
lemma of_byExternalId (normal : normalizeIdentifier (.str v) = some v) (eq : byExternalId context t v = some r) :
    r ∈ visible context t ∧ v = r.externalId ∧ v ∈ names r := by
  have matching := List.find?_some (p := fun r : PayoutRecord =>
    decide (r.externalId = v ∧ r.clientId = context.clientId)) eq
  obtain ⟨key, client⟩ := of_decide_eq_true matching
  refine ⟨mem_visible (List.mem_of_find?_eq_some eq) client, key.symm, ?_⟩
  exact List.mem_filterMap.2 ⟨.str r.externalId, List.mem_cons_self, by rw [key, normal]⟩

/-- A lookup finds the payout by its external id, and by what else is recorded of it while it is on the
    first page. -/
lemma found_eq_some_iff (unshared : Unshared context t) (mem : r ∈ t.rows)
    (own : r.clientId = context.clientId) (named : r.externalId ∈ names r)
    (normal : normalizeIdentifier (.str v) = some v) :
    found context t v = some r ↔ v = r.externalId ∨ v ∈ names r ∧ r ∈ firstPage context t := by
  have seen := mem_visible mem own
  constructor
  · intro eq
    rcases (Option.orElse_eq_some _ _ _).1 eq with eq | ⟨-, eq⟩
    · exact .inl (of_byExternalId normal eq).2.1
    · have matching := List.find?_some eq
      exact .inr ⟨of_decide_eq_true matching, List.mem_of_find?_eq_some eq⟩
  · intro condition
    have carries : v ∈ names r := by
      rcases condition with rfl | ⟨carries, -⟩
      · exact named
      · exact carries
    cases first : byExternalId context t v with
    | some r' =>
      obtain ⟨seen', -, carries'⟩ := of_byExternalId normal first
      rw [found, first, unshared r' seen' r seen v carries' carries]
      rfl
    | none =>
      rcases condition with rfl | ⟨-, listed⟩
      · exact absurd (decide_eq_true ⟨rfl, own⟩) (List.find?_eq_none.1 first r mem)
      · cases second : (firstPage context t).find? fun r => decide (v ∈ names r) with
        | none => exact absurd (decide_eq_true carries) (List.find?_eq_none.1 second r listed)
        | some r' =>
          have seen' := mem_of_page (List.mem_of_find?_eq_some second)
          have matching := List.find?_some second
          have carries' : v ∈ names r' := of_decide_eq_true matching
          rw [found, first, second, unshared r' seen' r seen v carries' carries]
          rfl

/-- What is found is a row of the table. -/
lemma mem_of_found (eq : found context t v = some r) : r ∈ t.rows := by
  rcases (Option.orElse_eq_some _ _ _).1 eq with eq | ⟨-, eq⟩
  · exact List.mem_of_find?_eq_some eq
  · exact (List.mem_filter.1 (mem_of_page (List.mem_of_find?_eq_some eq))).1

end

/-! ## It is answered -/

section
variable {context : RequestContext} {w : World} {r : PayoutRecord} {i v : String}
  {q : ChainFlowEstadoRetiroDto}

/-- A read can be answered. -/
lemma may_request {c : Call} {b : c.Res} (reads : World.exec c w = some (b, w)) :
    answering.May Unmoved w (Machine.Returning fun _ => True) (request c) :=
  Machine.may_await (M := answering) (fun _ => rfl) (fun _ => rfl) reads trivial

/-- A response can be put together. -/
lemma may_toResponse {b : Bool} :
    answering.May Unmoved w (Machine.Returning fun _ => True) (toResponse r b) :=
  Machine.may_bind_of (may_request rfl) fun _ _ => Machine.may_pure trivial

/-- A lookup by external id can come to its end. -/
lemma may_getPayoutByExternalId :
    answering.May Unmoved w (fun _ => True) (getPayoutByExternalId i context) := by
  refine Machine.may_bind_of (may_request rfl) fun o _ => ?_
  cases o with
  | none => exact Machine.may_bind (Machine.may_ofExcept trivial)
  | some r => exact Machine.may_mono (fun _ _ => trivial) may_toResponse

/-- A lookup by external id that may fail can return. -/
lemma may_tryGetPayoutByExternalId :
    answering.May Unmoved w (Machine.Returning fun _ => True) (tryGetPayoutByExternalId i context) := by
  refine Machine.may_tryCatch (Machine.may_bind (Machine.may_mono (fun x _ => ?_) may_getPayoutByExternalId))
  cases x with
  | ok p => exact Machine.may_pure trivial
  | error e => exact Machine.may_pure (R := Machine.Returning fun _ => True) trivial

/-- A page can be listed. -/
lemma may_listPayouts :
    answering.May Unmoved w (Machine.Returning fun _ => True) (listPayouts {} context) := by
  refine Machine.may_bind_of (may_request rfl) fun rows _ =>
    Machine.may_promiseAll (fun _ => rfl) (fun _ _ _ => rfl) fun s mem => ?_
  obtain ⟨r, -, rfl⟩ := List.mem_map.1 mem
  exact ⟨_, _, _, _, rfl, rfl, rfl⟩

/-- A payout that is asked for can be looked up. -/
lemma may_resolvePayout (asks : AsksFor q v) :
    answering.May Unmoved w (fun _ => True) (resolvePayout q context) := by
  unfold resolvePayout
  rw [asks.1, asks.2]
  refine Machine.may_bind_of (A := fun _ => True) ?_ fun o _ => ?_
  · refine Machine.may_bind_of may_tryGetPayoutByExternalId fun o _ => ?_
    cases o <;> exact Machine.may_pure trivial
  · cases o with
    | some p => exact Machine.may_pure trivial
    | none =>
      refine Machine.may_bind_of may_listPayouts fun ps _ => ?_
      split
      case h_1 => exact Machine.may_pure trivial
      case h_2 => exact may_getPayoutByExternalId

end

/-! ## What has been prepared -/

/-- A payout that is inserted has been asked for, and none is changed. -/
def Preparing (asked : ChainFlowRetiroDto → RequestContext → Prop) : Call → Prop
  | .payoutInsert r => ∃ dto context, asked dto context ∧ Prepares dto r
  | .payoutUpdate _ _ _ => False
  | _ => True

section
variable {asked : ChainFlowRetiroDto → RequestContext → Prop} {d : Deployment} {chain : Chain → Chain → Prop}
  {dto : ChainFlowRetiroDto} {context : RequestContext}

/-- A neutral operation prepares nothing. -/
lemma preparing_of_neutral (c : Call) (neutral : Neutral c) : Preparing asked c := by
  cases c <;> trivial

/-- A withdrawal prepares the payout that it asks for. -/
lemma uses_prepararRetiro (mem : asked dto context) :
    (prepararRetiro d dto context).Uses (Preparing asked) fun _ => True := by
  have neutral {α : Type} {p : Method α} (uses : p.Uses Neutral fun _ => True) :
      p.Uses (Preparing asked) fun _ => True := Prog.uses_mono preparing_of_neutral uses
  unfold prepararRetiro
  cases made : toCreatePayoutDto dto with
  | error e => exact Prog.uses_throw trivial
  | ok createDto =>
    refine Prog.uses_bind (p := createPayout d createDto context) ?_ fun _ => Prog.uses_pure _
    have only := (metadata_of_toCreatePayoutDto made).2.1
    refine Prog.uses_bind (Prog.uses_ofExcept fun _ _ => trivial) fun amountAtomic => ?_
    refine Prog.uses_bind (Prog.uses_ofExcept fun _ _ => trivial) fun _ => ?_
    refine Prog.uses_bind (neutral (uses_request rfl)) fun now => ?_
    refine Prog.uses_bind (neutral (uses_request rfl)) fun id => ?_
    refine Prog.uses_bind (Prog.uses_bind (Prog.uses_await ?_) fun inserted => ?_) fun result => ?_
    · exact ⟨dto, context, mem, createDto, made, rfl, rfl, rfl⟩
    · cases inserted with
      | some r => exact Prog.uses_pure _
      | none =>
        exact neutral (Prog.uses_bind (uses_request rfl) fun _ =>
          Prog.uses_bind (Prog.uses_orThrow trivial) fun _ => Prog.uses_pure _)
    · obtain ⟨record, existed⟩ := result
      cases existed with
      | true => exact neutral (Prog.uses_bind uses_recordAudit fun _ => uses_toResponse)
      | false =>
        dsimp only
        rw [only]
        exact neutral (Prog.uses_bind uses_recordAudit fun _ => uses_toResponse)

/-- Every payout has been asked for. -/
lemma asked_of_reachable {c : Chain} {now : Timestamp} {nextUuid : Uuid} {nextBytes32 : Hex}
    {s : Sys Api World}
    (reach : (preparing d chain asked).Reachable (.fresh c now nextUuid nextBytes32) s) :
    ∀ r ∈ s.world.payouts.rows, ∃ dto context, asked dto context ∧ Prepares dto r := by
  have uses (p : Method Unit) (entry : (preparing d chain asked).entry p) :
      p.Uses (Preparing asked) fun _ => True := by
    obtain ⟨dto, context, mem, rfl⟩ := entry
    have body := uses_prepararRetiro (d := d) mem
    unfold Prog.discard
    exact Prog.uses_bind body fun _ => Prog.uses_pure _
  have step {c : Call} {w w' : World} {b : c.Res} (allowed : Preparing asked c)
      (run : World.exec c w = some (b, w'))
      (all : ∀ r ∈ w.payouts.rows, ∃ dto context, asked dto context ∧ Prepares dto r) :
      ∀ r ∈ w'.payouts.rows, ∃ dto context, asked dto context ∧ Prepares dto r := by
    by_cases writes : c.writes = some .payouts
    · cases c
      case payoutInsert r =>
        obtain ⟨-, rfl, -⟩ | ⟨t, -, rfl, inserted, -⟩ := World.insertPayout_cases run
        · exact all
        · intro r' mem
          rw [Table.rows_insert inserted, List.mem_append, List.mem_singleton] at mem
          rcases mem with mem | rfl
          · exact all r' mem
          · exact allowed
      case payoutUpdate => exact allowed.elim
      all_goals cases writes
    · rw [(World.exec_frame run).payouts writes]
      exact all
  refine Machine.inv_of_uses
    (P := fun w => ∀ r ∈ w.payouts.rows, ∃ dto context, asked dto context ∧ Prepares dto r) uses
    (fun c _ w o w' allowed reply _ all => ?_) (fun w w' move all => ?_) (fun r mem => by cases mem) reach
  · cases o with
    | done b => exact step allowed reply all
    | refused e => exact reply.2 ▸ all
    | lost b e => exact step allowed reply.1 all
  · exact move.payouts ▸ all

end

/-! ## The requests -/

/-- What `autorizarRetiro` does with the payout that it has found. -/
def authorizeFound (d : Deployment) (context : RequestContext) (payout : PayoutResponse) :
    Method ChainFlowResponse := do
  let authorized ← authorizePayout d payout.id
    { approvedBy := some "chain-flow"
      riskDecisionId := some s!"chain-flow-{payout.externalId}" } context
  return toChainFlowResponse authorized "Retiro autorizado."

/-- What a lookup by one identifier resolves to. -/
lemma resolves_iff {context : RequestContext} {r : PayoutRecord} {w w' : World} {v : String}
    {q : ChainFlowEstadoRetiroDto} {x : Except Exception PayoutResponse} {h : Hist Api}
    (unshared : Unshared context w.payouts) (mem : r ∈ w.payouts.rows) (own : r.clientId = context.clientId)
    (named : r.externalId ∈ names r) (asks : AsksFor q v)
    (run : answering.Runs Unmoved (resolvePayout q context) w [] x w' h) :
    (∃ p, x = .ok p ∧ p.id = r.id) ↔ v = r.externalId ∨ v ∈ names r ∧ r ∈ firstPage context w.payouts := by
  obtain ⟨-, responds⟩ := Machine.wp_sound run (wp_resolvePayout asks rfl)
  rw [← found_eq_some_iff unshared mem own named (normal_of_asksFor asks)]
  cases x with
  | error e =>
    rw [show found context w.payouts v = none from responds]
    simp
  | ok p =>
    obtain ⟨r', trail, eq, rfl⟩ := responds
    rw [eq, Option.some.injEq]
    constructor
    · rintro ⟨_, ⟨⟩, same⟩
      exact List.inj_on_of_nodup_map w.payouts.nodup (mem_of_found eq) mem same
    · rintro rfl
      exact ⟨_, rfl, rfl⟩

/-- Withdrawals that have been prepared in any order and at any time are payouts of the requests. One of
    them, with identifiers of its own, is found by the value of a field of its request just when that is
    its external id, or is recorded of it while it is among the newest payouts that one page lists. -/
theorem retiro_found_iff {d : Deployment} {chain : Chain → Chain → Prop}
    {asked : ChainFlowRetiroDto → RequestContext → Prop} {c : Chain} {now : Timestamp} {nextUuid : Uuid}
    {nextBytes32 : Hex} {s : Sys Api World} {context : RequestContext} {r : PayoutRecord}
    (reach : (preparing d chain asked).Reachable (.fresh c now nextUuid nextBytes32) s)
    (mem : r ∈ s.world.payouts.rows) (own : r.clientId = context.clientId)
    (unshared : Unshared context s.world.payouts) :
    (∃ dto context, asked dto context ∧ Prepares dto r) ∧
    ∀ dto, Prepares dto r → ∀ f q v, normalizeIdentifier (Field.value dto f) = some v → AsksFor q v →
      (∃ x w' h, answering.Runs Unmoved (resolvePayout q context) s.world [] x w' h) ∧
      (∀ x w' h, answering.Runs Unmoved (resolvePayout q context) s.world [] x w' h →
        ((∃ p, x = .ok p ∧ p.id = r.id) ↔ Findable context s.world.payouts r f v)) ∧
      (∀ x w' h, answering.Runs Unmoved (consultarEstadoRetiro q context) s.world [] x w' h →
        ((∃ a, x = .ok a ∧ a.payoutId = r.id) ↔ Findable context s.world.payouts r f v)) ∧
      ∀ x w' h, answering.Runs Unmoved (autorizarRetiro d q context) s.world [] x w' h →
        ((∃ p w₁ h₁, answering.Runs Unmoved (resolvePayout q context) s.world [] (.ok p) w₁ h₁ ∧
          p.id = r.id ∧ answering.Runs Unmoved (authorizeFound d context p) w₁ h₁ x w' h) ↔
            Findable context s.world.payouts r f v) := by
  refine ⟨asked_of_reachable reach r mem, fun dto prepares f q v normal asks => ?_⟩
  have looked {x w' h} (run : answering.Runs Unmoved (resolvePayout q context) s.world [] x w' h) :
      (∃ p, x = .ok p ∧ p.id = r.id) ↔ Findable context s.world.payouts r f v := by
    rw [resolves_iff unshared mem own (externalId_mem_names prepares) asks run, Findable]
    refine or_congr_right (and_congr_left fun _ => ⟨fun carries _ => carries, fun carries => ?_⟩)
    by_cases other : f = .externalId
    · exact carries other
    · exact value_mem_names prepares other normal
  obtain ⟨x, h, run, -, -⟩ := may_resolvePayout (w := s.world) asks []
  refine ⟨⟨x, s.world, h, run⟩, fun _ _ _ => looked, fun x w' h run => ?_, fun x w' h run => ?_⟩
  · obtain ⟨e, rfl, failed⟩ | ⟨p, w₁, h₁, first, second⟩ := Machine.runs_bind run
    · rw [← looked failed]
      simp
    · rw [← looked first]
      cases second
      simp [toChainFlowResponse]
  · constructor
    · rintro ⟨p, w₁, h₁, first, same, -⟩
      exact (looked first).1 ⟨p, rfl, same⟩
    · intro findable
      obtain ⟨e, rfl, failed⟩ | ⟨p, w₁, h₁, first, second⟩ := Machine.runs_bind run
      · obtain ⟨p, eq, -⟩ := (looked failed).2 findable
        cases eq
      · obtain ⟨_, ⟨⟩, same⟩ := (looked first).2 findable
        exact ⟨p, w₁, h₁, first, same, second⟩

/-! ## A crowd of withdrawals -/

/-- The transaction of a withdrawal. -/
def key (n : Nat) : String := .ofList (.replicate (n + 1) 'a')

/-- A withdrawal of one USDC; the first one has a payment id. -/
def crowdDto (n : Nat) : ChainFlowRetiroDto where
  tcTransaccionExterna := some (key n)
  tnMonto := .str "1"
  tcCuentaDestino := some sampleAddress
  tnRetiroPago := if n = 0 then .num 7 else .null

/-- The payout that it is mapped to. -/
def crowdPayout (n : Nat) : CreatePayoutDto where
  externalId := key n
  amount := "1"
  asset := .usdc
  beneficiaryAddress := sampleAddress
  beneficiaryName := none
  chainFlowRequestId := if n = 0 then some "7" else none
  memo := none
  metadata := some (.obj (spread []
    [("source", .str "chain-flow-compat"), ("chainFlow", .obj (withdrawalMetadata (crowdDto n)))]))
  executeImmediately := false

/-- The withdrawals are prepared by one client. -/
abbrev crowding : Machine Api World :=
  preparing asyncDeployment Eq fun _ context => context = .sample

/-- Its row, which is created a millisecond after the one before. -/
def crowdRow (n : Nat) : PayoutRecord :=
  newPayout asyncDeployment (crowdPayout n) .sample (key n) n 1000000

/-- There are `n` withdrawals. -/
def Crowd (n : Nat) (w : World) : Prop := w.payouts.rows = (List.range n).map crowdRow

/-- The keys of the crowd are trimmed. -/
lemma trim_key {n : Nat} : trim (key n) = key n := by
  have kept : (List.replicate (n + 1) 'a').dropWhile isSpace = List.replicate (n + 1) 'a' := by
    rw [List.replicate_succ, List.dropWhile_cons_of_neg (by decide)]
  rw [trim, key, String.toList_ofList, kept, List.rdropWhile, List.reverse_replicate, kept,
    List.reverse_replicate]

/-- The keys of the crowd differ. -/
lemma key_injective : Function.Injective key := by
  intro m n eq
  have length := congrArg (fun s : String => s.toList.length) eq
  simpa [key] using length

/-- The keys of the crowd are not empty. -/
lemma key_ne_empty {n : Nat} : key n ≠ "" := by
  intro eq
  have length := congrArg (fun s : String => s.toList.length) eq
  simp [key] at length

/-- No key of the crowd is what is asked for. -/
lemma key_ne_seven {n : Nat} : key n ≠ "7" := by
  intro eq
  have first := congrArg (fun s : String => s.toList.head?) eq
  simp [key, List.replicate_succ] at first

/-- The keys of the crowd are identifiers. -/
lemma normalizeIdentifier_key {n : Nat} : normalizeIdentifier (.str (key n)) = some (key n) := by
  have normal := normalizeIdentifier_str (s := key n) (by rw [trim_key]; exact key_ne_empty)
  rwa [trim_key] at normal

/-- What a withdrawal of the crowd creates. -/
lemma toCreatePayoutDto_crowd {n : Nat} : toCreatePayoutDto (crowdDto n) = .ok (crowdPayout n) := by
  have isAsset : resolveAsset (coalesce (crowdDto n).tnMoneda (.ofOption (crowdDto n).asset)) = .ok .usdc := by
    change resolveAsset .null = .ok .usdc
    have upper : toUpperCase "USDC" = "USDC" := rfl
    simp [resolveAsset, normalizeIdentifier, upper]
  have isExternalId : normalizeIdentifier (coalesce (.ofOption (crowdDto n).tcTransaccionExterna)
      (.ofOption (crowdDto n).externalId)) = some (key n) := normalizeIdentifier_key
  have isAmount : normalizeIdentifier (coalesce (crowdDto n).tnMonto (.ofOption (crowdDto n).amount)) =
      some "1" := by
    change normalizeIdentifier (.str "1") = some "1"
    rfl
  have isRequestId : normalizeIdentifier (coalesce (crowdDto n).tnRetiroPago
      (crowdDto n).tnTransferenciaBloque) = if n = 0 then some "7" else none := by
    cases n with
    | zero => rfl
    | succ n => rfl
  have isAddress : truthy ((crowdDto n).tcCuentaDestino <|> (crowdDto n).beneficiaryAddress) =
      some sampleAddress := by
    change truthy (some sampleAddress) = some sampleAddress
    rfl
  unfold toCreatePayoutDto
  rw [isAsset]
  simp only [bind, Except.bind, pure, Except.pure, isExternalId, isAmount, isRequestId, isAddress]
  rfl

/-- Another withdrawal is prepared. -/
lemma crowd_succ {n : Nat} {w : World} (crowd : Crowd n w) : ∃ w', crowding.Session w w' ∧ Crowd (n + 1) w' := by
  have fresh (r : PayoutRecord) (mem : r ∈ w.payouts.rows) : r.id ≠ key n ∧ r.externalId ≠ key n := by
    rw [crowd] at mem
    obtain ⟨i, hi, rfl⟩ := List.mem_map.1 mem
    have ne : key i ≠ key n := key_injective.ne (List.mem_range.1 hi).ne
    exact ⟨ne, ne⟩
  let w₁ : World := { w with now := n, nextUuid := key n }
  obtain ⟨t, inserted⟩ : ∃ t, w.payouts.insert (crowdRow n) = some t := by
    unfold Table.insert
    rw [dif_neg]
    · exact ⟨_, rfl⟩
    · intro mem
      obtain ⟨r, mem, eq⟩ := List.mem_map.1 mem
      exact (fresh r mem).1 eq
  have stored : World.exec (.payoutInsert (crowdRow n)) w₁ =
      some (some (crowdRow n), { w₁ with payouts := t }) := by
    have new : (w.payouts.rows.any fun r =>
        sameKey (crowdRow n).clientId (crowdRow n).externalId r.clientId r.externalId) = false := by
      rw [List.any_eq_false]
      intro r mem
      simp [sameKey, (fresh r mem).2, crowdRow, newPayout, crowdPayout]
    have listed : ¬(crowdRow n).tokenAddress.isNone = true := by
      change ¬(some sampleToken).isNone = true
      exact Bool.false_ne_true
    change World.insertPayout _ _ = _
    rw [World.insertPayout, if_neg (by rw [new]; exact Bool.false_ne_true), if_neg listed]
    change Option.map _ (w.payouts.insert (crowdRow n)) = _
    rw [inserted]
    rfl
  let w₂ : World := { w₁ with payouts := t }
  let input : AuditInput := ⟨.payoutPrepared, key n, toAuditActor .sample, .obj [("externalId", .str (key n)),
    ("amount", .str "1"), ("asset", .str "USDC"), ("beneficiaryAddress", .str sampleAddress)]⟩
  have clock : crowding.Reply .clock w₁ (.done (n : Nat)) w₁ := rfl
  have uuid : crowding.Reply .randomUUID w₁ (.done (key n)) w₁ := rfl
  have insert : crowding.Reply (.payoutInsert (crowdRow n)) w₁ (.done (some (crowdRow n))) w₂ := stored
  have audit : crowding.Reply (.auditInsert input) w₂ (.done ()) (w₂.insertAudit input) := rfl
  obtain ⟨trail, list⟩ : ∃ trail, crowding.Reply (.auditListBySubject (key n)) (w₂.insertAudit input)
      (.done trail) (w₂.insertAudit input) := ⟨_, rfl⟩
  have run : ∃ h, crowding.Runs crowding.Alone (prepararRetiro asyncDeployment (crowdDto n) .sample).discard w₁ []
      (.ok ()) (w₂.insertAudit input) h := by
    unfold prepararRetiro
    rw [toCreatePayoutDto_crowd]
    exact ⟨_, .call .refl clock trivial (.call .refl uuid trivial (.call .refl insert trivial
      (.call .refl audit trivial (.call .refl list trivial .pure))))⟩
  obtain ⟨h, run⟩ := run
  refine ⟨w₂.insertAudit input, ?_, ?_⟩
  · have later : crowding.Turn w w₁ := .env ⟨rfl, rfl, rfl, rfl, rfl, rfl, rfl, rfl, rfl⟩
    exact .head later (.single (.call ⟨_, _, rfl, rfl⟩ run))
  · have rows : (w₂.insertAudit input).payouts = t := by
      unfold World.insertAudit
      split <;> rfl
    rw [Crowd, rows, Table.rows_insert inserted, crowd, List.range_succ, List.map_append]
    rfl

/-- Any number of withdrawals can be prepared. -/
lemma exists_crowd (n : Nat) : ∃ w, crowding.Session .sample w ∧ Crowd n w := by
  induction n with
  | zero => exact ⟨.sample, .refl, rfl⟩
  | succ n ih =>
    obtain ⟨w, before, crowd⟩ := ih
    obtain ⟨w', next, crowd'⟩ := crowd_succ crowd
    exact ⟨w', before.trans next, crowd'⟩

/-- The metadata of a withdrawal of the crowd. -/
lemma withdrawalMetadata_crowd {n : Nat} : withdrawalMetadata (crowdDto (n + 1)) =
    [("tcTransaccionExterna", .str (key (n + 1))), ("tcCuentaDestino", .str sampleAddress)] := by
  have address : trim sampleAddress ≠ "" := by decide
  have compact : compactRecord [
      ("tcTransaccionExterna", .str (key (n + 1))), ("tnRetiroPago", .null),
      ("tnTransferenciaBloque", .null), ("tnProcesadorPagos", .null), ("tnMoneda", .null),
      ("tcCuentaDestino", .str sampleAddress)] =
      [("tcTransaccionExterna", .str (key (n + 1))), ("tcCuentaDestino", .str sampleAddress)] := by
    simp [compactRecord, trim_key, key_ne_empty, address]
  change spread [] (compactRecord _) = _
  exact (congrArg (spread []) compact).trans rfl

/-- A withdrawal of the crowd prepares a row of it. -/
lemma prepares_crowd {n : Nat} : Prepares (crowdDto n) (crowdRow n) :=
  ⟨crowdPayout n, toCreatePayoutDto_crowd, rfl, rfl, rfl⟩

/-- What is recorded of a withdrawal of the crowd. -/
lemma of_mem_names_crowd {n : Nat} {v : String} (mem : v ∈ names (crowdRow n)) :
    v = key n ∨ n = 0 ∧ v = "7" := by
  cases n with
  | zero =>
    have eq : names (crowdRow 0) = [key 0, "7", key 0, "7"] := rfl
    rw [eq] at mem
    simpa [or_comm, or_assoc, or_left_comm] using mem
  | succ n =>
    have eq : names (crowdRow (n + 1)) = [key (n + 1), key (n + 1)] := by
      have missing : normalizeIdentifier .null = none := rfl
      rw [names, candidates, chainFlowMetadata_of_prepares prepares_crowd, withdrawalMetadata_crowd]
      change List.filterMap normalizeIdentifier [.str (key (n + 1)), .null, .str (key (n + 1)), .null, .null] = _
      simp [normalizeIdentifier_key, missing]
    rw [eq] at mem
    simpa using mem

/-- The identifiers of the crowd are not shared. -/
lemma unshared_crowd {n : Nat} {w : World} (crowd : Crowd n w) : Unshared .sample w.payouts := by
  intro r₁ mem₁ r₂ mem₂ v named₁ named₂
  have rowOf {r : PayoutRecord} (mem : r ∈ visible .sample w.payouts) : ∃ i, crowdRow i = r := by
    have mem := (List.mem_filter.1 mem).1
    rw [crowd] at mem
    obtain ⟨i, -, eq⟩ := List.mem_map.1 mem
    exact ⟨i, eq⟩
  obtain ⟨i, rfl⟩ := rowOf mem₁
  obtain ⟨j, rfl⟩ := rowOf mem₂
  rcases of_mem_names_crowd named₁ with rfl | ⟨rfl, rfl⟩
  · rcases of_mem_names_crowd named₂ with eq | ⟨-, eq⟩
    · rw [key_injective eq]
    · exact absurd eq key_ne_seven
  · rcases of_mem_names_crowd named₂ with eq | ⟨rfl, -⟩
    · exact absurd eq.symm key_ne_seven
    · rfl

/-- The first withdrawal of a large crowd is not among the newest. -/
lemma not_listed_crowd {n : Nat} {w : World} (crowd : Crowd n w) (large : 200 < n) :
    crowdRow 0 ∉ firstPage .sample w.payouts := by
  have all : visible .sample w.payouts = (List.range n).map crowdRow := by
    rw [visible, Table.select, crowd, List.filter_eq_self]
    intro r mem
    obtain ⟨i, -, rfl⟩ := List.mem_map.1 mem
    rfl
  rw [firstPage, all]
  apply not_mem_page
  obtain ⟨m, rfl⟩ := Nat.exists_eq_add_of_lt large
  have newer : ((List.range (200 + m)).map fun i => crowdRow (i + 1)).countP
      (fun r => decide ((crowdRow 0).createdAt < r.createdAt)) = 200 + m := by
    rw [List.countP_eq_length.2, List.length_map, List.length_range]
    intro r mem
    obtain ⟨i, -, rfl⟩ := List.mem_map.1 mem
    exact decide_eq_true (Nat.succ_pos i)
  rw [List.range_succ_eq_map, List.map_cons, List.map_map]
  refine le_trans ?_ ((List.sublist_cons_self _ _).countP_le)
  refine le_trans ?_ newer.ge
  omega

/-- The request about the payment id of the first withdrawal. -/
def crowdEstado : ChainFlowEstadoRetiroDto := { tnRetiroPago := .num 7 }

/-- The same request, where the payment id is a text. -/
def textEstado : ChainFlowEstadoRetiroDto := { tnRetiroPago := .str " 7" }

/-- The first request asks for the identifier. -/
lemma asksFor_crowdEstado : AsksFor crowdEstado "7" := ⟨rfl, rfl⟩

/-- The second request asks for the same identifier. -/
lemma asksFor_textEstado : AsksFor textEstado "7" := ⟨rfl, rfl⟩

/-- The row of a withdrawal that is prepared alone. -/
def aloneRow : PayoutRecord := newPayout asyncDeployment (crowdPayout 0) .sample World.sampleId 0 1000000

/-- A ledger with one row is reachable. -/
lemma exists_alone : ∃ s, crowding.Reachable .sample s ∧ s.world.payouts.rows = [aloneRow] := by
  obtain ⟨s, ran, rows⟩ : ∃ s, crowding.run Machine.always
      (.enter (prepararRetiro asyncDeployment (crowdDto 0) .sample).discard :: Choice.steps 0 5)
        ⟨.sample, []⟩ = some s ∧ s.world.payouts.rows = [aloneRow] := ⟨_, rfl, rfl⟩
  refine ⟨s, Machine.steps_of_run (fun _ _ _ _ => trivial) ?_ ran, rows⟩
  exact List.forall_mem_cons.2 ⟨⟨_, _, rfl, rfl⟩, Choice.legal_steps⟩

/-- A withdrawal with a payment id that is a number is found by the text of the number. -/
theorem retiro_found_of_text : ∃ s, crowding.Reachable .sample s ∧ s.world.payouts.rows = [aloneRow] ∧
    ∃ x w' h, answering.Runs Unmoved (resolvePayout textEstado .sample) s.world [] x w' h ∧
      ∃ p, x = .ok p ∧ p.id = aloneRow.id := by
  obtain ⟨s, reach, rows⟩ := exists_alone
  have mem : aloneRow ∈ s.world.payouts.rows := by simp [rows]
  have prepares : Prepares (crowdDto 0) aloneRow := ⟨crowdPayout 0, toCreatePayoutDto_crowd, rfl, rfl, rfl⟩
  have unshared : Unshared .sample s.world.payouts := by
    intro r₁ mem₁ r₂ mem₂ _ _ _
    have only {r : PayoutRecord} (mem : r ∈ visible .sample s.world.payouts) : r = aloneRow := by
      have mem := (List.mem_filter.1 mem).1
      rwa [rows, List.mem_singleton] at mem
    rw [only mem₁, only mem₂]
  have listed : aloneRow ∈ firstPage .sample s.world.payouts := by
    refine (mem_page ?_).2 (mem_visible mem rfl)
    exact (List.length_filter_le _ _).trans (by simp [rows])
  have own : aloneRow.clientId = RequestContext.sample.clientId := rfl
  obtain ⟨⟨x, w', h, run⟩, found, -⟩ := (retiro_found_iff reach mem own unshared).2 (crowdDto 0) prepares
    .tnRetiroPago textEstado "7" rfl asksFor_textEstado
  exact ⟨s, reach, rows, x, w', h, run, (found x w' h run).2 (.inr ⟨nofun, listed⟩)⟩

/-- Two hundred withdrawals later the first one is not found by its payment id any more. -/
theorem retiro_lost : ∃ w, crowding.Session .sample w ∧ crowdRow 0 ∈ w.payouts.rows ∧
    Prepares (crowdDto 0) (crowdRow 0) ∧ Unshared .sample w.payouts ∧
    crowdEstado.tnRetiroPago = (crowdDto 0).tnRetiroPago ∧
    (∃ x w' h, answering.Runs Unmoved (resolvePayout crowdEstado .sample) w [] x w' h) ∧
    ∀ x w' h, answering.Runs Unmoved (resolvePayout crowdEstado .sample) w [] x w' h →
      ¬∃ p, x = .ok p ∧ p.id = (crowdRow 0).id := by
  obtain ⟨w, session, crowd⟩ := exists_crowd 201
  have mem : crowdRow 0 ∈ w.payouts.rows := by
    rw [crowd]
    exact List.mem_map_of_mem (by simp)
  have may : answering.May Unmoved w (fun _ => True) (resolvePayout crowdEstado .sample) :=
    may_resolvePayout asksFor_crowdEstado
  obtain ⟨x, h, run, -, -⟩ := may []
  refine ⟨w, session, mem, prepares_crowd, unshared_crowd crowd, rfl, ⟨x, w, h, run⟩, fun x w' h run => ?_⟩
  rw [resolves_iff (unshared_crowd crowd) mem rfl (externalId_mem_names prepares_crowd)
    asksFor_crowdEstado run]
  rintro (eq | ⟨-, listed⟩)
  · exact key_ne_seven eq.symm
  · exact not_listed_crowd crowd (by decide) listed

end AvaSettle.ChainFlow.Retrieval
