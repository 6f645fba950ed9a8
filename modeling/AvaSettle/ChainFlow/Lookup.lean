import AvaSettle.Async.Session
import AvaSettle.Async.Settled
import AvaSettle.ChainFlow.Service
import AvaSettle.Data.Lists
import AvaSettle.Payouts.Runs

/-!
# What a lookup finds

A lookup pools the identifiers of a request and compares them with a pool of five fields of a payout.
So the payout that it finds carries one of the identifiers, and it is the one that is authorized; but
the identifier may be another one than the field is for.
-/

namespace AvaSettle.ChainFlow
open Async Payouts
open Data (Table)

/-- The payout carries one of the identifiers of the request, in whatever field. -/
def Carries (dto : ChainFlowEstadoRetiroDto) (payout : PayoutResponse) : Prop :=
  ∃ i ∈ identifiers dto, i ∈ candidates payout

/-- The two values are the same identifier. -/
def agree (a b : Json) : Bool :=
  (normalizeIdentifier a).isSome && decide (normalizeIdentifier a = normalizeIdentifier b)

/-- The payout carries one of the identifiers of the request in a field that is meant for it. The
    request id of a payout may have been derived from either of the numbers. -/
def SameRole (dto : ChainFlowEstadoRetiroDto) (payout : PayoutResponse) : Bool :=
  let chainFlow := chainFlowMetadata payout
  let transaction (v : Json) :=
    agree v (.str payout.externalId) || agree v (property "tcTransaccionExterna" chainFlow)
  let number (key : String) (v : Json) :=
    agree v (property key chainFlow) || agree v (.ofOption payout.chainFlowRequestId)
  transaction (.ofOption dto.tcTransaccionExterna) || transaction (.ofOption dto.externalId) ||
    number "tnRetiroPago" dto.tnRetiroPago ||
      number "tnTransferenciaBloque" dto.tnTransferenciaBloque

/-- The payouts that an operation writes to, or pays. -/
def settles : Call → List Uuid
  | .payoutUpdate id _ _ => [id]
  | .submit _ _ payouts => payouts
  | _ => []

/-! ## Identifiers -/

section
variable {dto : ChainFlowEstadoRetiroDto} {s i : String} {v : Json}

/-- Trimming twice does no more than trimming once. -/
lemma trim_trim : trim (trim s) = trim s := by
  unfold trim
  rw [String.toList_ofList]
  generalize drop : s.toList.dropWhile isSpace = l
  cases l with
  | nil => rfl
  | cons a l =>
    have head : isSpace a = false := by
      have first := List.head?_dropWhile_not isSpace s.toList
      rw [drop] at first
      simpa using first
    rw [Data.rdropWhile_cons head, List.dropWhile_cons_of_neg (by simp [head]), Data.rdropWhile_cons head,
      List.rdropWhile_idempotent]

/-- A trimmed text that is not empty is an identifier. -/
lemma normalizeIdentifier_str (nonempty : trim s ≠ "") :
    normalizeIdentifier (.str (trim s)) = some (trim s) := by
  simp [normalizeIdentifier, truthy, trim_trim, nonempty]

/-- An identifier is in normal form. -/
lemma normalizeIdentifier_of (normal : normalizeIdentifier v = some i) :
    normalizeIdentifier (.str i) = some i := by
  have trimmed {s : String} (eq : truthy (some (trim s)) = some i) :
      normalizeIdentifier (.str i) = some i := by
    obtain ⟨eq, nonempty⟩ := Option.filter_eq_some_iff.1 eq
    cases eq
    exact normalizeIdentifier_str (by simpa using nonempty)
  cases v with
  | str s => exact trimmed normal
  | num n => exact trimmed normal
  | _ => cases normal

/-- A payout whose external id is one of the identifiers carries it. -/
lemma carries_of_externalId {p : PayoutResponse} (mem : i ∈ identifiers dto)
    (eq : p.externalId = i) : Carries dto p := by
  obtain ⟨v, -, normal⟩ := List.mem_filterMap.1 mem
  exact ⟨i, mem, List.mem_filterMap.2 ⟨.str i, by simp [eq], normalizeIdentifier_of normal⟩⟩

/-- A payout that matches carries one of the identifiers. -/
lemma carries_of_matches {p : PayoutResponse}
    (found : matchesChainFlowLookup (identifiers dto) p = true) : Carries dto p := by
  obtain ⟨c, candidate, supplied⟩ := List.any_eq_true.1 found
  exact ⟨c, of_decide_eq_true supplied, candidate⟩

end

/-! ## The lookup -/

section
variable {chain : Chain → Chain → Prop} {entry : Method Unit → Prop}
  {cond : Hist Api → World → Event Api → Prop} {rely : Hist Api → World → World → Prop}
  {dto : ChainFlowEstadoRetiroDto} {context : RequestContext} {i : String}

/-- An answer of the ledger, under whatever the world does. -/
lemma keeps_request {c : Call} {A : c.Res → Prop}
    (answers : ∀ w b w', World.exec c w = some (b, w') → A b) :
    (machine chain entry cond).Keeps (fun _ => True) A (request c) :=
  Machine.keeps_await fun w b w' _ run => ⟨trivial, answers w b w' run⟩

/-- The payout that is found has the external id. -/
lemma keeps_getPayoutByExternalId :
    (machine chain entry cond).Keeps (fun _ => True) (fun p => p.externalId = i)
      (getPayoutByExternalId i context) := by
  refine Machine.keeps_bind (keeps_request (c := .payoutFindByExternalId context.clientId i)
    (A := fun r => ∀ p, r = some p → p.externalId = i) fun w b w' run p eq => ?_) fun r found => ?_
  · cases run
    have key := List.find?_some eq
    exact (of_decide_eq_true key).1
  cases r with
  | none => trivial
  | some p =>
    change (machine chain entry cond).Keeps _ _ (toResponse p)
    refine Machine.keeps_bind (A := fun _ => True) (keeps_request ?_) fun _ _ => found p rfl
    exact fun _ _ _ _ => trivial

/-- The payout that is found, if one is, has the external id. -/
lemma keeps_tryGetPayoutByExternalId :
    (machine chain entry cond).Keeps (fun _ => True) (fun o => ∀ p, o = some p → p.externalId = i)
      (tryGetPayoutByExternalId i context) := by
  refine Machine.keeps_tryCatch (Machine.keeps_bind keeps_getPayoutByExternalId fun p eq => ?_)
    fun _ => ?_
  · rintro _ ⟨⟩
    exact eq
  · rintro _ ⟨⟩

/-- The payout that is found, if one is, has one of the external ids. -/
lemma keeps_firstByExternalId {ids : List String} :
    (machine chain entry cond).Keeps (fun _ => True) (fun o => ∀ p, o = some p → p.externalId ∈ ids)
      (firstByExternalId context ids) := by
  induction ids with
  | nil => rintro _ ⟨⟩
  | cons i ids ih =>
    refine Machine.keeps_bind keeps_tryGetPayoutByExternalId fun o found => ?_
    cases o with
    | none =>
      exact Machine.keeps_mono (fun o mem p eq => List.mem_cons_of_mem _ (mem p eq)) ih
    | some p =>
      rintro _ ⟨⟩
      exact found p rfl ▸ List.mem_cons_self

/-- Whatever a lookup without a payout id finds carries one of the identifiers. -/
lemma keeps_resolvePayout (noId : truthy dto.payoutId = none) :
    (machine chain entry cond).Keeps (fun _ => True) (Carries dto) (resolvePayout dto context) := by
  unfold resolvePayout
  rw [noId]
  dsimp only
  split
  case h_1 => trivial
  case h_2 id ids supplied =>
    rw [← supplied]
    refine Machine.keeps_bind keeps_firstByExternalId fun o found => ?_
    cases o with
    | some p => exact carries_of_externalId (found p rfl) rfl
    | none =>
      refine Machine.keeps_bind Machine.keeps_trivial fun payouts _ => ?_
      split
      case h_1 p matching => exact carries_of_matches (List.find?_some matching)
      case h_2 =>
        exact Machine.keeps_mono (fun p eq => carries_of_externalId
          (supplied ▸ List.mem_cons_self) eq) keeps_getPayoutByExternalId

end

/-! ## The authorization -/

/-- The operation writes to no other payout, and pays no other. -/
def Only (id : Uuid) (c : Call) : Prop := ∀ i ∈ settles c, i = id

section
variable {chain : Chain → Chain → Prop} {entry : Method Unit → Prop}
  {cond : Hist Api → World → Event Api → Prop} {rely : Hist Api → World → World → Prop}
  {d : Deployment} {dto : ChainFlowEstadoRetiroDto} {context : RequestContext} {id : Uuid} {w : World}
  {h : Hist Api} {α : Type}

/-- A neutral operation settles nothing. -/
lemma settles_of_neutral {c : Call} (neutral : Neutral c) : settles c = [] := by
  cases c <;> first | rfl | cases neutral

/-- A neutral operation touches no other payout. -/
lemma only_of_neutral (c : Call) (neutral : Neutral c) : Only id c := by
  simp [Only, settles_of_neutral neutral]

/-- What a program does is about the payout, if each of its operations is. -/
lemma wp_only {P : Call → Prop} {p : Method α} (uses : p.Uses P fun _ => True)
    (before : ∀ e ∈ h, P e.op) :
    (machine chain entry cond).wp rely p (fun _ _ h => ∀ e ∈ h, P e.op) w h := by
  refine Machine.wp_uses (R := fun _ h => ∀ e ∈ h, P e.op) (fun c w h hc before => ?_) uses before
  intro _ _ _ _ _ _ e mem
  rcases List.mem_append.1 mem with mem | mem
  · exact before e mem
  · obtain rfl := List.mem_singleton.1 mem
    exact hc

/-- Looking a payout up is neutral. -/
lemma uses_getPayoutByExternalId {externalId : String} :
    (getPayoutByExternalId externalId context).Uses Neutral fun _ => True :=
  Prog.uses_bind (uses_request rfl) fun _ =>
    Prog.uses_bind (Prog.uses_ofExcept fun _ _ => trivial) fun _ => uses_toResponse

/-- Looking payouts up one after another is neutral. -/
lemma uses_firstByExternalId {ids : List String} :
    (firstByExternalId context ids).Uses Neutral fun _ => True := by
  induction ids with
  | nil => trivial
  | cons i ids ih =>
    refine Prog.uses_bind (Prog.uses_tryCatch (Prog.uses_bind uses_getPayoutByExternalId fun _ =>
      trivial) fun _ _ => trivial) fun o => ?_
    cases o with
    | none => exact ih
    | some p => trivial

/-- A lookup only reads. -/
lemma uses_resolvePayout : (resolvePayout dto context).Uses Neutral fun _ => True := by
  unfold resolvePayout
  split
  case h_1 => exact Prog.uses_bind uses_requirePayout fun _ => uses_toResponse
  case h_2 =>
    split
    case h_1 => trivial
    case h_2 =>
      refine Prog.uses_bind uses_firstByExternalId fun o => ?_
      cases o with
      | some p => trivial
      | none =>
        refine Prog.uses_bind (Prog.uses_bind (uses_request rfl) fun rows => ?_) fun payouts => ?_
        · refine Prog.uses_promiseAll fun s mem => ?_
          obtain ⟨r, -, rfl⟩ := List.mem_map.1 mem
          exact ⟨rfl, fun _ _ _ _ => trivial⟩
        · split
          case h_1 => trivial
          case h_2 => exact uses_getPayoutByExternalId

/-- The operations of a call so far are about one payout. -/
def About (id : Uuid) (h : Hist Api) : Prop := ∀ e ∈ h, Only id e.op

/-- A history about a payout goes on with an operation on it. -/
lemma About.append {e : Event Api} (about : About id h) (only : Only id e.op) :
    About id (h ++ [e]) := by
  intro e' mem
  rcases List.mem_append.1 mem with mem | mem
  · exact about e' mem
  · exact List.mem_singleton.1 mem ▸ only

/-- An authorization writes to its payout and pays for it, and for no other. -/
lemma wp_authorizePayout {auth : AuthorizePayoutDto} (about : About id h) :
    (machine chain entry cond).wp rely (authorizePayout d id auth context)
      (fun _ _ h => About id h) w h := by
  have reads {α : Type} {p : Method α} {w : World} {h : Hist Api}
      (uses : p.Uses Neutral fun _ => True) (about : About id h) :
      (machine chain entry cond).wp rely p (fun _ _ h => About id h) w h :=
    wp_only (Prog.uses_mono only_of_neutral uses) about
  refine Machine.wp_bind_of (reads uses_requirePayout about) (fun payout w h about => ?_)
    fun _ _ _ about => about
  split
  case isTrue => exact reads uses_toResponse about
  case isFalse =>
    refine Machine.wp_bind_of (reads (uses_request rfl) about) (fun now w h about => ?_)
      fun _ _ _ about => about
    refine Machine.wp_bind (Machine.wp_await fun w₁ o w₂ _ reply _ => ?_)
    have claims : Only id (.payoutUpdate id (claimPatch now) (some [.prepared])) :=
      fun i mem => List.mem_singleton.1 mem
    cases o with
    | refused e => exact about.append claims
    | lost b e => exact about.append claims
    | done b =>
      have about := about.append (e := ⟨_, .done b⟩) claims
      cases b with
      | none =>
        refine Machine.wp_bind_of (reads uses_requirePayout about) (fun current w h about => ?_)
          fun _ _ _ about => about
        split
        case isTrue => exact reads uses_toResponse about
        case isFalse => exact about
      | some authorized =>
        have key : authorized.id = id := by
          obtain ⟨r, found, -, rfl⟩ := Table.of_update (congrArg Prod.fst (Option.some.inj reply))
          exact (Table.key_of_find? found : r.id = id)
        have updates (patch : PayoutPatch) : Only id (updateAuthorized id patch) :=
          fun i mem => List.mem_singleton.1 mem
        have executes : (executePayout d id now auth context authorized).Uses (Only id) fun _ => True :=
          uses_executePayout only_of_neutral (fun _ _ mem => nomatch mem)
            (fun _ _ i mem => (List.mem_singleton.1 mem).trans key) updates rfl
        have handles (e : Exception) :
            (handlePayoutError id auth context e).Uses (Only id) fun _ => True :=
          uses_handlePayoutError only_of_neutral updates
        refine wp_only (Prog.uses_bind (Prog.uses_mono only_of_neutral uses_recordAudit) fun _ => ?_)
          about
        refine Prog.uses_bind (Prog.uses_tryCatch executes fun e _ => handles e) fun updated => ?_
        exact Prog.uses_bind (Prog.uses_orThrow trivial) fun _ =>
          Prog.uses_mono only_of_neutral uses_toResponse

/-- A lookup without a payout id returns a payout that carries one of the identifiers in one of the five
    fields, and an authorization is of the payout that the lookup at its beginning has returned, and of no
    other, whatever happens meanwhile. -/
theorem lookup_pooled (noId : truthy dto.payoutId = none) :
    (∀ {w p w' h}, (machine chain entry cond).Runs rely (resolvePayout dto context) w [] (.ok p) w' h →
      Carries dto p) ∧
    ∀ {w r w' h}, (machine chain entry cond).Runs rely (autorizarRetiro d dto context) w [] r w' h →
      (∀ e ∈ h, settles e.op = []) ∨ ∃ p w₁ h₁,
        (machine chain entry cond).Runs rely (resolvePayout dto context) w [] (.ok p) w₁ h₁ ∧
          h₁ <+: h ∧ Carries dto p ∧ About p.id h := by
  have carries {w p w' h} (run : (machine chain entry cond).Runs rely (resolvePayout dto context) w []
      (.ok p) w' h) : Carries dto p :=
    (Machine.wp_sound run (Machine.wp_of_keeps (fun _ _ _ _ _ => trivial) trivial
      (keeps_resolvePayout noId))).2.2 p rfl
  have reads {w r w' h} (run : (machine chain entry cond).Runs rely (resolvePayout dto context) w []
      r w' h) : ∀ e ∈ h, settles e.op = [] :=
    Machine.wp_sound run (wp_only (P := fun c => settles c = [])
      (Prog.uses_mono (fun _ => settles_of_neutral) uses_resolvePayout) (by simp))
  refine ⟨carries, fun run => ?_⟩
  obtain ⟨e, -, run⟩ | ⟨p, w₁, h₁, first, second⟩ := Machine.runs_bind run
  · exact .inl (reads run)
  · refine .inr ⟨p, w₁, h₁, first, second.grows, carries first, ?_⟩
    have about : About p.id h₁ := fun e mem i hi => by simp [reads first e mem] at hi
    exact Machine.wp_sound (Q := fun _ _ h => About p.id h) second (Machine.wp_bind_of
      (wp_authorizePayout about) (fun _ _ _ about => about) fun _ _ _ about => about)

end

/-! ## Concrete requests -/

/-- The endpoints of a deployment. -/
inductive Entry (d : Deployment) : Method Unit → Prop where
  | prepararRetiro {dto context} : Entry d (prepararRetiro d dto context).discard
  | autorizarRetiro {dto context} : Entry d (autorizarRetiro d dto context).discard
  | consultarEstadoRetiro {dto context} : Entry d (consultarEstadoRetiro dto context).discard

/-- The endpoints, on the chain of the concrete runs. -/
abbrev sampleCompat : Machine Api World := machine Eq (Entry asyncDeployment) fun _ _ _ => True

/-- A withdrawal that is known by its transaction only. -/
def sampleRetiro : ChainFlowRetiroDto :=
  { tcTransaccionExterna := some "inv-1", tnMonto := .str "1", tcCuentaDestino := some sampleAddress }

/-- A request about the withdrawal whose payment id is the same text. -/
def sampleEstado : ChainFlowEstadoRetiroDto := { tnRetiroPago := .str "inv-1" }

/-- The result of a request that is made alone. -/
def attempt {α : Type} (p : Method α) (n : Nat) (w : World) : Option (α × World × Hist Api) :=
  match sampleCompat.play Machine.always p (.replicate n .done) w [] with
  | some (.ok a, w, h) => some (a, w, h)
  | _ => none

/-- A call that is attempted is a run. -/
lemma runs_of_attempt {α : Type} {p : Method α} {n : Nat} {w w' : World} {a : α} {h : Hist Api}
    (res : attempt p n w = some (a, w', h)) :
    sampleCompat.Runs sampleCompat.Alone p w [] (.ok a) w' h := by
  unfold attempt at res
  split at res
  case h_1 played =>
    cases res
    exact Machine.runs_of_play (fun _ _ _ _ => trivial) (fun _ _ => .refl) played
  case h_2 => cases res

/-- The request about the payment id, after the withdrawal has been prepared. -/
lemma exists_lookup (P : PayoutResponse → ChainFlowResponse → Bool)
    (res : ((sampleCompat.session Machine.always
        [.call (prepararRetiro asyncDeployment sampleRetiro .sample).discard (.replicate 5 .done)] .sample).any
      fun w => (attempt (resolvePayout sampleEstado .sample) 2 w).any fun p =>
        (attempt (autorizarRetiro asyncDeployment sampleEstado .sample) 20 w).any fun a => P p.1 a.1) = true) :
    ∃ w p w₁ h₁ a w₂ h₂, sampleCompat.Session .sample w ∧
      sampleCompat.Runs sampleCompat.Alone (resolvePayout sampleEstado .sample) w [] (.ok p) w₁ h₁ ∧
      sampleCompat.Runs sampleCompat.Alone (autorizarRetiro asyncDeployment sampleEstado .sample) w [] (.ok a)
        w₂ h₂ ∧ P p a = true := by
  obtain ⟨w, before, res⟩ := (Option.any_eq_true _ _).1 res
  obtain ⟨⟨p, w₁, h₁⟩, looked, res⟩ := (Option.any_eq_true _ _).1 res
  obtain ⟨⟨a, w₂, h₂⟩, authorized, holds⟩ := (Option.any_eq_true _ _).1 res
  have legal : ∀ p ∈ [.call (prepararRetiro asyncDeployment sampleRetiro .sample).discard
      (.replicate 5 .done)], Part.Legal sampleCompat p :=
    List.forall_mem_cons.2 ⟨.prepararRetiro, by simp⟩
  exact ⟨w, p, w₁, h₁, a, w₂, h₂, Machine.session_of_eval (fun _ _ _ _ => trivial) legal before,
    runs_of_attempt looked, runs_of_attempt authorized, holds⟩

/-- A payout that has been looked up. -/
theorem lookup_pooled_of_prepared : ∃ w p w' h, sampleCompat.Session .sample w ∧
    sampleCompat.Runs sampleCompat.Alone (resolvePayout sampleEstado .sample) w [] (.ok p) w' h ∧
    Carries sampleEstado p := by
  obtain ⟨w, p, w', h, -, -, -, before, looked, -, -⟩ := exists_lookup (fun _ _ => true)
    (by decide +kernel)
  exact ⟨w, p, w', h, before, looked, (lookup_pooled (d := asyncDeployment) rfl).1 looked⟩

/-- A payment id that is the text of another withdrawal's transaction: that withdrawal is found, and
    authorized. -/
theorem lookup_crosses : ∃ w p w₁ h₁ a w₂ h₂, sampleCompat.Session .sample w ∧
    sampleCompat.Runs sampleCompat.Alone (resolvePayout sampleEstado .sample) w [] (.ok p) w₁ h₁ ∧
    sampleCompat.Runs sampleCompat.Alone (autorizarRetiro asyncDeployment sampleEstado .sample) w [] (.ok a)
      w₂ h₂ ∧ SameRole sampleEstado p = false ∧ a.payoutId = p.id ∧ a.estado = .broadcasted := by
  obtain ⟨w, p, w₁, h₁, a, w₂, h₂, before, looked, authorized, res⟩ := exists_lookup
    (fun p a => !SameRole sampleEstado p && (decide (a.payoutId = p.id) &&
      decide (a.estado = .broadcasted))) (by decide +kernel)
  simp only [Bool.and_eq_true, Bool.not_eq_true', decide_eq_true_eq] at res
  exact ⟨w, p, w₁, h₁, a, w₂, h₂, before, looked, authorized, res⟩

end AvaSettle.ChainFlow
