import AvaSettle.Contracts.SettlementVaultCover

/-!
# A batch is a sequence of payouts

`payoutBatch` against the payouts of its legs one after another, with tokens that do not call back. Both
come down to the same: `Leg.pay` on the executed payouts and the tokens, leg by leg. The batch only adds
its own flag and event, and a total that has to fit.
-/

namespace AvaSettle.Evm

variable {A : Abi} {θ α β : Type}

/-- Calls one after another, up to the first that reverts. -/
def sequence (C : Contract A) (others : Others A θ) :
    List (Msg A) → Account A × θ → Except A.Error Unit × Account A × θ
  | [], s => (.ok (), s)
  | m :: ms, s =>
    match invoke C others m s with
    | (.ok _, s') => sequence C others ms s'
    | (.error e, s') => (.error e, s')

/-- A sequence goes on after a call that succeeds. -/
lemma sequence_of_ok {C : Contract A} {others : Others A θ} {m : Msg A} {ms : List (Msg A)}
    {s : Account A × θ} (ok : (invoke C others m s).1 = .ok ()) :
    sequence C others (m :: ms) s = sequence C others ms (invoke C others m s).2 := by
  rw [sequence]
  split
  case h_1 eq => rw [eq]
  case h_2 eq =>
    rw [eq] at ok
    cases ok

/-- A sequence stops at a call that fails. -/
lemma sequence_of_error {C : Contract A} {others : Others A θ} {m : Msg A} {ms : List (Msg A)}
    {s : Account A × θ} {e : A.Error} (failed : (invoke C others m s).1 = .error e) :
    (sequence C others (m :: ms) s).1 = .error e := by
  rw [sequence]
  split
  case h_1 eq =>
    rw [eq] at failed
    cases failed
  case h_2 eq =>
    rw [eq] at failed
    exact failed

/-- The play returns the value, leaves the storage and the other contracts so, and emits the events. -/
structure Code.Yields (answer : A.Request → θ → Option A.Answer × θ) (c : Code A α) (v : A.Storage)
    (t : θ) (a : α) (v' : A.Storage) (t' : θ) (es : List A.Event) : Prop where
  result : (c.play answer v t).result = .ok a
  storage : (c.play answer v t).storage = v'
  others : (c.play answer v t).others = t'
  events : eventsOf (c.play answer v t).items = es

section
variable {answer : A.Request → θ → Option A.Answer × θ} {v v' v₁ : A.Storage} {t t' t₁ : θ}
  {c : Code A α} {k : α → Code A β} {u : Unit → Code A β} {a : α} {b : β} {es es' : List A.Event}

/-- The rule of sequencing. -/
lemma Code.Yields.bind (first : c.Yields answer v t a v₁ t₁ es)
    (rest : (k a).Yields answer v₁ t₁ b v' t' es') :
    (c >>= k).Yields answer v t b v' t' (es ++ es') := by
  have played : (c >>= k).play answer v t =
      { (k a).play answer v₁ t₁ with
        items := (c.play answer v t).items ++ ((k a).play answer v₁ t₁).items } := by
    rw [play_bind, Play.then, first.result]
    dsimp only
    rw [first.storage, first.others]
  refine ⟨?_, ?_, ?_, ?_⟩
  · rw [played]
    exact rest.result
  · rw [played]
    exact rest.storage
  · rw [played]
    exact rest.others
  · rw [played, eventsOf_append, first.events, rest.events]

/-- A value is yielded without events. -/
lemma Code.yields_pure : (pure a : Code A α).Yields answer v t a v t [] := ⟨rfl, rfl, rfl, rfl⟩

/-- What follows a read is yielded with the storage. -/
lemma Code.yields_read_bind {k : A.Storage → Code A β} (rest : (k v).Yields answer v t b v' t' es) :
    (read >>= k).Yields answer v t b v' t' es :=
  ⟨rest.result, rest.storage, rest.others, rest.events⟩

/-- What follows a write is yielded from the changed storage. -/
lemma Code.yields_modify_bind {g : A.Storage → A.Storage}
    (rest : (u ()).Yields answer (g v) t b v' t' es) :
    (modify g >>= u).Yields answer v t b v' t' es := ⟨rest.result, rest.storage, rest.others, rest.events⟩

/-- What follows an event is yielded after it. -/
lemma Code.yields_log_bind {e : A.Event} (rest : (u ()).Yields answer v t b v' t' es) :
    (log e >>= u).Yields answer v t b v' t' (e :: es) :=
  ⟨rest.result, rest.storage, rest.others, congrArg (e :: ·) rest.events⟩

/-- What follows a request is yielded with its answer. -/
lemma Code.yields_request_bind {r : A.Request} {k : Option A.Answer → Code A β}
    (rest : (k (answer r t).1).Yields answer v (answer r t).2 b v' t' es) :
    (request r >>= k).Yields answer v t b v' t' es :=
  ⟨rest.result, rest.storage, rest.others, rest.events⟩

/-- What follows a check that passes is yielded. -/
lemma Code.yields_require_bind {p : Prop} [Decidable p] {e : A.Error} (holds : p)
    (rest : (u ()).Yields answer v t b v' t' es) : (require p e >>= u).Yields answer v t b v' t' es := by
  rw [require_pos_bind holds]
  exact rest

/-- What follows a computation that succeeds is yielded. -/
lemma Code.yields_inherit_bind {ε : Type} {g : ε → A.Error} {x : Except ε α} (ok : x = .ok a)
    (rest : (k a).Yields answer v t b v' t' es) :
    (inherit g x >>= k).Yields answer v t b v' t' es := by
  rw [ok]
  exact rest

/-- A check that passes is yielded. -/
lemma Code.yields_require {p : Prop} [Decidable p] {e : A.Error} (holds : p) :
    (require p e : Code A Unit).Yields answer v t () v t [] := by
  rw [require, if_pos holds]
  exact yields_pure

/-- A computation that succeeds is yielded. -/
lemma Code.yields_inherit {ε : Type} {g : ε → A.Error} {x : Except ε α} (ok : x = .ok a) :
    (inherit g x : Code A α).Yields answer v t a v t [] := by
  rw [ok]
  exact yields_pure

/-- A call that returns leaves what its code can leave. -/
lemma invoke_leaves {C : Contract A} {m : Msg A} {s : Account A} {P : Unit → A.Storage → θ → Prop}
    (returns : (C m).Returns answer s.storage t P)
    (returned : (invoke C (passive answer) m (s, t)).1 = .ok ()) :
    let r := invoke C (passive answer) m (s, t)
    P () r.2.1.storage r.2.2 := by
  intro r
  have played := invoke_returned returned
  obtain ⟨-, storage, others, -⟩ := (invoke_passive answer (C := C) (m := m) (s := s) (t := t)).2 played
  have holds := returns () played
  rw [← storage, ← others] at holds
  exact holds

/-- A call whose code yields something returns, and leaves that. -/
lemma invoke_yields {C : Contract A} {m : Msg A} {s : Account A} {o : Unit}
    (yields : (C m).Yields answer s.storage t o v' t' es) :
    let r := invoke C (passive answer) m (s, t)
    r.1 = .ok () ∧ r.2.1.storage = v' ∧ r.2.2 = t' ∧ r.2.1.events = s.events ++ es := by
  intro r
  obtain ⟨ok, storage, others, events⟩ :=
    (invoke_passive answer (C := C) (m := m) (s := s) (t := t)).2 yields.result
  refine ⟨ok, storage.trans yields.storage, others.trans yields.others, events.trans ?_⟩
  rw [yields.events]

end

end AvaSettle.Evm

namespace AvaSettle.Contracts

/-- What is documented of the library contracts where nothing is wrong. -/
structure Lively (oz : OpenZeppelin) : Prop where
  /-- A guarded function can be entered while none is running. -/
  enters : ∀ b, oz.entered b = false → ∃ b', oz.nonReentrantBefore b = .ok b'
  /-- Functions can be called while the contract is not paused. -/
  runs : ∀ b, oz.paused b = false → oz.requireNotPaused b = .ok ()
  /-- Releasing the guard has nothing to do with pausing. -/
  paused_after : ∀ b, oz.paused (oz.nonReentrantAfter b) = oz.paused b

/-- The standard base is lively. -/
lemma Lively.standard : Lively .standard where
  enters b free := by
    refine ⟨{ b with entered := true }, ?_⟩
    change b.entered = false at free
    simp [OpenZeppelin.standard, guarded, free]
  runs b unpaused := by
    change b.paused = false at unpaused
    simp [OpenZeppelin.standard, guarded, unpaused]
  paused_after _ := rfl

namespace SettlementVault
open Evm

variable {oz : OpenZeppelin} {θ : Type}

/-! ## Legs -/

/-- What is to be paid to whom. -/
structure Leg where
  payoutRef : Word
  recipient : Address
  amount : Word

/-- What paying a leg does to the executed payouts and the tokens, where it can be paid. -/
def Leg.pay (oz : OpenZeppelin) (keccak256 : List Word → Word)
    (answer : TokenCall → θ → Option TokenAnswer × θ) (token funder : Address)
    (st : (Word → Bool) × θ) (l : Leg) : Option ((Word → Bool) × θ) :=
  let id := computePayoutId keccak256 l.payoutRef token l.recipient l.amount
  let q := answer (.transferFrom token funder l.recipient l.amount) st.2
  if l.payoutRef ≠ 0 ∧ l.recipient ≠ 0 ∧ l.amount ≠ 0 ∧ st.1 id = false ∧ (oz.checkAnswer q.1).isOk then
    some (Function.update st.1 id true, q.2)
  else none

/-- The legs of a batch, from the leg `i` on. -/
def legsOf (keccak256 : List Word → Word) (batchRef : Word) : Nat → List (Address × Word) → List Leg
  | _, [] => []
  | i, (recipient, amount) :: legs =>
    ⟨keccak256 [batchRef, .ofNat 256 i], recipient, amount⟩ :: legsOf keccak256 batchRef (i + 1) legs

section
variable {keccak256 : List Word → Word} {answer : TokenCall → θ → Option TokenAnswer × θ}
  {v v' : Storage oz} {t t' : θ} {token sender : Address} {batchId batchRef : Word} {metadata : Bytes}
  {l : Leg} {executed : Word → Bool} {legs : List (Address × Word)} {i : Nat} {total : Word}

/-- A leg that returns has been paid. -/
lemma pay_of_execute :
    (execute keccak256 batchId l.payoutRef token l.recipient l.amount metadata).Returns (A := abi oz)
      answer v t fun _ v' t' => v' = { v with payoutExecuted := v'.payoutExecuted } ∧
        l.pay oz keccak256 answer token v.funder (v.payoutExecuted, t) = some (v'.payoutExecuted, t') := by
  refine Code.returns_bind (Code.returns_require fun ref => ?_)
  refine Code.returns_bind (Code.returns_require fun beneficiary => ?_)
  refine Code.returns_bind (Code.returns_require fun amount => ?_)
  refine Code.returns_read_bind (Code.returns_bind (Code.returns_require fun new => ?_))
  refine Code.returns_modify_bind (Code.returns_read_bind (Code.returns_bind ?_))
  refine Code.returns_request_bind (Code.returns_inherit fun _ checked => ?_)
  refine Code.returns_log_bind (Code.returns_pure ⟨rfl, ?_⟩)
  exact if_pos ⟨ref, beneficiary, amount, new, by rw [checked]; rfl⟩

variable (batchId metadata) in
/-- A leg that can be paid is paid. -/
lemma execute_of_pay
    (paid : l.pay oz keccak256 answer token v.funder (v.payoutExecuted, t) = some (executed, t')) :
    ∃ p : PayoutExecuted,
      (execute keccak256 batchId l.payoutRef token l.recipient l.amount metadata).Yields (A := abi oz)
        answer v t (computePayoutId keccak256 l.payoutRef token l.recipient l.amount)
        { v with payoutExecuted := executed } t' [.payoutExecuted p] := by
  unfold Leg.pay at paid
  dsimp only at paid
  split at paid
  case isFalse => cases paid
  case isTrue can =>
    obtain ⟨ref, beneficiary, amount, new, checked⟩ := can
    cases paid
    cases ok : oz.checkAnswer (answer (.transferFrom token v.funder l.recipient l.amount) t).1 with
    | error e =>
      rw [ok] at checked
      cases checked
    | ok u =>
      refine ⟨⟨computePayoutId keccak256 l.payoutRef token l.recipient l.amount, batchId, token,
        l.payoutRef, v.funder, l.recipient, l.amount, metadata⟩, ?_⟩
      refine Code.yields_require_bind ref (Code.yields_require_bind beneficiary ?_)
      refine Code.yields_require_bind amount (Code.yields_read_bind (Code.yields_require_bind new ?_))
      refine Code.yields_modify_bind (Code.yields_read_bind ?_)
      have called : (inherits.safeTransferFrom token v.funder l.recipient l.amount : Fn oz Unit).Yields answer
          { v with
            payoutExecuted := Function.update v.payoutExecuted
              (computePayoutId keccak256 l.payoutRef token l.recipient l.amount) true } t u _ _ [] :=
        Code.yields_request_bind (Code.yields_inherit ok)
      exact called.bind (Code.yields_log_bind Code.yields_pure)

/-! ## The batch -/

/-- What the legs come to. -/
def sumOf (legs : List (Address × Word)) : Nat := (legs.map fun leg => leg.2.toNat).sum

/-- The sum over the legs is the sum of the amounts. -/
lemma sumOf_zip {recipients : List Address} {amounts : List Word}
    (lengths : recipients.length = amounts.length) :
    sumOf (recipients.zip amounts) = (amounts.map BitVec.toNat).sum := by
  have second : (recipients.zip amounts).map Prod.snd = amounts := List.map_snd_zip (le_of_eq lengths.symm)
  conv_rhs => rw [← second, List.map_map]
  rfl

/-- What is paid with a token, leg after leg. -/
abbrev payAll (oz : OpenZeppelin) (keccak256 : List Word → Word)
    (answer : TokenCall → θ → Option TokenAnswer × θ) (token funder : Address) (legs : List Leg)
    (st : (Word → Bool) × θ) : Option ((Word → Bool) × θ) :=
  legs.foldlM (Leg.pay oz keccak256 answer token funder) st

/-- Legs that return have been paid, and counted. -/
lemma pay_of_payLegs :
    (payLegs keccak256 batchId batchRef token metadata i legs total).Returns (A := abi oz) answer v t
      fun total' v' t' => v' = { v with payoutExecuted := v'.payoutExecuted } ∧
        payAll oz keccak256 answer token v.funder (legsOf keccak256 batchRef i legs)
          (v.payoutExecuted, t) = some (v'.payoutExecuted, t') ∧
          total'.toNat = total.toNat + sumOf legs := by
  induction legs generalizing i total v t with
  | nil => exact Code.returns_pure ⟨rfl, rfl, rfl⟩
  | cons leg legs ih =>
    refine Code.returns_bind (Code.returns_mono (fun _ v₁ t₁ paid => ?_)
      (pay_of_execute (l := ⟨keccak256 [batchRef, .ofNat 256 i], leg.1, leg.2⟩)))
    obtain ⟨same, paid⟩ := paid
    refine Code.returns_bind (Code.returns_bind (Code.returns_require fun fits => Code.returns_pure ?_))
    refine Code.returns_mono (fun total' v' t' rest => ?_) ih
    obtain ⟨same', rest, counted⟩ := rest
    have funder : v₁.funder = v.funder := by rw [same]
    rw [funder] at rest
    refine ⟨?_, ?_, ?_⟩
    · rw [same', same]
    · simp only [payAll, legsOf, List.foldlM_cons, paid]
      exact rest
    · have added : (total + leg.2).toNat = total.toNat + leg.2.toNat := by
        rw [BitVec.toNat_add, Nat.mod_eq_of_lt fits]
      simp only [sumOf, List.map_cons, List.sum_cons] at counted ⊢
      omega

variable (batchId metadata total) in
/-- Legs that can be paid are paid, as long as their total fits. -/
lemma payLegs_of_pay
    (paid : payAll oz keccak256 answer token v.funder (legsOf keccak256 batchRef i legs)
      (v.payoutExecuted, t) = some (executed, t')) (fits : total.toNat + sumOf legs < 2 ^ 256) :
    ∃ (total' : Word) (ps : List PayoutExecuted), total'.toNat = total.toNat + sumOf legs ∧
      (payLegs keccak256 batchId batchRef token metadata i legs total).Yields (A := abi oz) answer v t
        total' { v with payoutExecuted := executed } t' (ps.map Event.payoutExecuted) := by
  induction legs generalizing i total v t with
  | nil =>
    cases paid
    exact ⟨total, [], rfl, Code.yields_pure⟩
  | cons leg legs ih =>
    simp only [payAll, legsOf, List.foldlM_cons] at paid
    obtain ⟨⟨executed₁, t₁⟩, first, rest⟩ := Option.bind_eq_some_iff.1 paid
    obtain ⟨p, yields⟩ := execute_of_pay batchId metadata first
    simp only [sumOf, List.map_cons, List.sum_cons] at fits
    have small : total.toNat + leg.2.toNat < 2 ^ 256 := by omega
    have added : (total + leg.2).toNat = total.toNat + leg.2.toNat := by
      rw [BitVec.toNat_add, Nat.mod_eq_of_lt small]
    obtain ⟨total', ps, counted, later⟩ := ih (total + leg.2) (v := { v with payoutExecuted := executed₁ })
      rest (by rw [added]; simp only [sumOf]; omega)
    refine ⟨total', p :: ps, ?_, ?_⟩
    · simp only [sumOf, List.map_cons, List.sum_cons] at counted ⊢
      omega
    · have add : (checkedAdd total leg.2 : Fn oz Word).Yields answer { v with payoutExecuted := executed₁ }
          t₁ (total + leg.2) { v with payoutExecuted := executed₁ } t₁ [] :=
        Code.yields_require_bind small Code.yields_pure
      exact yields.bind (add.bind later)

/-- The vault is open for a call: its sender is an operator, no guarded function is running, the vault is
    not paused, and the token is supported. `b` is the inherited storage with the guard taken. -/
structure Open (sender token : Address) (v : Storage oz) (b : oz.Base) : Prop where
  operator : v.operators sender = true
  guard : oz.nonReentrantBefore v.base = .ok b
  unpaused : oz.requireNotPaused b = .ok ()
  supported : v.supportedTokens token = true

/-- The modifiers of a paying function, where it returns. -/
lemma returns_modifiers {body : Fn oz Word} {P : Word → Storage oz → θ → Prop}
    (returns : ∀ b, v.operators sender = true → oz.nonReentrantBefore v.base = .ok b →
      oz.requireNotPaused b = .ok () → body.Returns (A := abi oz) answer { v with base := b } t
        fun a v' t' => P a { v' with base := oz.nonReentrantAfter v'.base } t') :
    (onlyOperator sender >>= fun _ =>
      inherits.nonReentrant (inherits.whenNotPaused >>= fun _ => body)).Returns (A := abi oz) answer v t
        P := by
  refine Code.returns_bind (Code.returns_read_bind (Code.returns_require fun operator => ?_))
  refine Code.returns_read_bind (Code.returns_bind (Code.returns_inherit fun b guard => ?_))
  refine Code.returns_modify_bind (Code.returns_bind (Code.returns_bind ?_))
  refine Code.returns_read_bind (Code.returns_inherit fun u unpaused => ?_)
  refine Code.returns_mono (fun _ _ _ holds => ?_) (returns b operator guard unpaused)
  exact Code.returns_modify_bind (Code.returns_pure holds)

/-- The modifiers of a paying function, while the vault is open. -/
lemma yields_modifiers (v₁ : Storage oz) {body : Fn oz Word} {id : Word} {es : List (Event oz)}
    {b : oz.Base} (opened : Open sender token v b)
    (yields : body.Yields answer { v with base := b } t id v₁ t' es)
    (left : { v₁ with base := oz.nonReentrantAfter v₁.base } = v') :
    (onlyOperator sender >>= fun _ =>
      inherits.nonReentrant (inherits.whenNotPaused >>= fun _ => body)).Yields answer v t id v' t' es := by
  subst left
  have entered : (onlyOperator sender : Fn oz Unit).Yields answer v t () v t [] :=
    Code.yields_read_bind (Code.yields_require opened.operator)
  have running : (inherits.whenNotPaused : Fn oz Unit).Yields answer { v with base := b } t ()
      { v with base := b } t [] := Code.yields_read_bind (Code.yields_inherit opened.unpaused)
  have released : (Code.modify (fun s => inherits.setBase s (oz.nonReentrantAfter (inherits.base s))) >>=
      fun _ => pure id : Fn oz Word).Yields answer v₁ t' id
        { v₁ with base := oz.nonReentrantAfter v₁.base } t' [] :=
    Code.yields_modify_bind Code.yields_pure
  have guarded : (inherits.whenNotPaused >>= fun _ => body).Yields answer { v with base := b } t id v₁ t'
      ([] ++ es) := running.bind yields
  have closed := guarded.bind (k := fun id => Code.modify (fun s => inherits.setBase s
    (oz.nonReentrantAfter (inherits.base s))) >>= fun _ => pure id) released
  rw [List.nil_append, List.append_nil] at closed
  exact entered.bind (Code.yields_read_bind (Code.yields_inherit_bind opened.guard
    (Code.yields_modify_bind closed)))

variable (executed) in
/-- The vault is open again after a call. -/
lemma Open.again {b : oz.Base} (lively : Lively oz) (opened : Open sender token v b) :
    ∃ b', Open sender token { v with base := oz.nonReentrantAfter b, payoutExecuted := executed } b' := by
  obtain ⟨b', guard⟩ := lively.enters _ (oz.entered_after (b := b))
  refine ⟨b', opened.operator, guard, lively.runs b' ?_, opened.supported⟩
  rw [oz.paused_before guard, lively.paused_after]
  exact oz.paused_of_requireNotPaused opened.unpaused

/-- A payout that returns has been paid. -/
lemma pay_of_payout :
    (payout keccak256 sender l.payoutRef token l.recipient l.amount metadata).Returns (A := abi oz) answer
      v t fun _ v' t' => ∃ b, Open sender token v b ∧
        v' = { v with base := oz.nonReentrantAfter b, payoutExecuted := v'.payoutExecuted } ∧
          l.pay oz keccak256 answer token v.funder (v.payoutExecuted, t) =
            some (v'.payoutExecuted, t') := by
  refine returns_modifiers fun b operator guard unpaused => ?_
  refine Code.returns_read_bind (Code.returns_bind (Code.returns_require fun supported => ?_))
  refine Code.returns_mono (fun _ v' t' paid => ?_) pay_of_execute
  obtain ⟨same, paid⟩ := paid
  refine ⟨b, ⟨operator, guard, unpaused, supported⟩, ?_, paid⟩
  rw [same]

variable (metadata) in
/-- A payout that can be paid is paid, while the vault is open. -/
lemma payout_of_pay {b : oz.Base} (opened : Open sender token v b)
    (paid : l.pay oz keccak256 answer token v.funder (v.payoutExecuted, t) = some (executed, t')) :
    ∃ p : PayoutExecuted,
      (payout keccak256 sender l.payoutRef token l.recipient l.amount metadata).Yields (A := abi oz)
        answer v t (computePayoutId keccak256 l.payoutRef token l.recipient l.amount)
        { v with base := oz.nonReentrantAfter b, payoutExecuted := executed } t'
        [.payoutExecuted p] := by
  obtain ⟨p, yields⟩ := execute_of_pay 0 metadata (v := { v with base := b }) paid
  refine ⟨p, yields_modifiers { v with base := b, payoutExecuted := executed } opened ?_ rfl⟩
  exact Code.yields_read_bind (Code.yields_require_bind opened.supported yields)

/-- The arguments of a batch are in order, and it has not been paid. -/
structure Admissible (keccak256 : List Word → Word) (v : Storage oz) (token : Address) (batchRef : Word)
    (recipients : List Address) (amounts : List Word) : Prop where
  ref : batchRef ≠ 0
  lengths : recipients.length = amounts.length
  nonempty : recipients.length ≠ 0
  bounded : recipients.length ≤ maxBatch
  unused : v.batchExecuted (keccak256 [batchRef, token.word]) = false

variable {recipients : List Address} {amounts : List Word}

/-- A batch in order has legs. -/
lemma legsOf_ne_nil (admissible : Admissible keccak256 v token batchRef recipients amounts) :
    legsOf keccak256 batchRef 0 (recipients.zip amounts) ≠ [] := by
  have lengths := admissible.lengths
  have nonempty := admissible.nonempty
  cases recipients with
  | nil => exact absurd rfl nonempty
  | cons recipient recipients =>
    cases amounts with
    | nil => cases lengths
    | cons amount amounts => exact List.cons_ne_nil _ _

/-- The batch as it is marked. -/
abbrev marked (keccak256 : List Word → Word) (v : Storage oz) (token : Address) (batchRef : Word) :
    Word → Bool :=
  Function.update v.batchExecuted (keccak256 [batchRef, token.word]) true

/-- A batch that returns has been paid. -/
lemma pay_of_payoutBatch :
    (payoutBatch keccak256 sender batchRef token recipients amounts metadata).Returns (A := abi oz) answer
      v t fun _ v' t' => ∃ b, Open sender token v b ∧
        Admissible keccak256 v token batchRef recipients amounts ∧
          sumOf (recipients.zip amounts) < 2 ^ 256 ∧
            payAll oz keccak256 answer token v.funder
              (legsOf keccak256 batchRef 0 (recipients.zip amounts)) (v.payoutExecuted, t) =
                some (v'.payoutExecuted, t') := by
  refine returns_modifiers fun b operator guard unpaused => ?_
  refine Code.returns_bind (Code.returns_require fun ref => Code.returns_read_bind ?_)
  refine Code.returns_bind (Code.returns_require fun supported => ?_)
  refine Code.returns_bind (Code.returns_require fun lengths => ?_)
  refine Code.returns_bind (Code.returns_require fun nonempty => ?_)
  refine Code.returns_bind (Code.returns_require fun bounded => Code.returns_read_bind ?_)
  refine Code.returns_bind (Code.returns_require fun unused => Code.returns_modify_bind ?_)
  refine Code.returns_bind (Code.returns_mono (fun total v' t' paid => ?_) pay_of_payLegs)
  obtain ⟨-, paid, counted⟩ := paid
  refine Code.returns_log_bind (Code.returns_pure ?_)
  refine ⟨b, ⟨operator, guard, unpaused, supported⟩, ⟨ref, lengths, nonempty, bounded, unused⟩, ?_, paid⟩
  have bound := total.isLt
  have zero : (0 : Word).toNat = 0 := rfl
  omega

variable (metadata) in
/-- A batch whose legs can be paid is paid, while the vault is open and their sum fits. -/
lemma payoutBatch_of_pay {b : oz.Base} (opened : Open sender token v b)
    (admissible : Admissible keccak256 v token batchRef recipients amounts)
    (fits : sumOf (recipients.zip amounts) < 2 ^ 256)
    (paid : payAll oz keccak256 answer token v.funder
      (legsOf keccak256 batchRef 0 (recipients.zip amounts)) (v.payoutExecuted, t) =
        some (executed, t')) :
    ∃ (total : Word) (ps : List PayoutExecuted), total.toNat = sumOf (recipients.zip amounts) ∧
      (payoutBatch keccak256 sender batchRef token recipients amounts metadata).Yields (A := abi oz) answer
        v t (keccak256 [batchRef, token.word])
        { v with
          base := oz.nonReentrantAfter b
          batchExecuted := marked keccak256 v token batchRef
          payoutExecuted := executed } t'
        (ps.map Event.payoutExecuted ++ [.batchExecuted
          ⟨keccak256 [batchRef, token.word], token, batchRef, recipients.length, total⟩]) := by
  have zero : (0 : Word).toNat = 0 := rfl
  obtain ⟨total, ps, counted, yields⟩ := payLegs_of_pay (keccak256 [batchRef, token.word]) metadata 0
    (v := { v with base := b, batchExecuted := marked keccak256 v token batchRef }) paid (by omega)
  refine ⟨total, ps, by omega, ?_⟩
  let v₁ : Storage oz := { v with
    base := b
    batchExecuted := marked keccak256 v token batchRef
    payoutExecuted := executed }
  refine yields_modifiers v₁ opened ?_ rfl
  refine Code.yields_require_bind admissible.ref (Code.yields_read_bind ?_)
  refine Code.yields_require_bind opened.supported (Code.yields_require_bind admissible.lengths ?_)
  refine Code.yields_require_bind admissible.nonempty ?_
  refine Code.yields_require_bind admissible.bounded (Code.yields_read_bind ?_)
  refine Code.yields_require_bind admissible.unused (Code.yields_modify_bind ?_)
  exact yields.bind (Code.yields_log_bind Code.yields_pure)

/-! ## The payouts of its legs -/

/-- The payouts of the legs, as one sender calls them. -/
def singles (sender : Address) (now : Nat) (token : Address) (metadata : Bytes) (ls : List Leg) :
    List (Msg (abi oz)) :=
  ls.map fun l => ⟨sender, now, .payout l.payoutRef token l.recipient l.amount metadata⟩

variable {s : Account (abi oz)} {ls : List Leg} {now : Nat}

variable (metadata now) in
/-- Payouts that can be paid one after another are paid, from an open vault on. -/
lemma sequence_of_pay {b : oz.Base} (lively : Lively oz) (opened : Open sender token s.storage b)
    (paid : payAll oz keccak256 answer token s.storage.funder ls (s.storage.payoutExecuted, t) =
      some (executed, t')) :
    let q := sequence (contract keccak256) (passive answer) (singles sender now token metadata ls) (s, t)
    q.1 = .ok () ∧ q.2.2 = t' ∧
      q.2.1.storage = { s.storage with base := q.2.1.storage.base, payoutExecuted := executed } := by
  intro q
  induction ls generalizing s t b with
  | nil =>
    cases paid
    exact ⟨rfl, rfl, rfl⟩
  | cons l ls ih =>
    simp only [payAll, List.foldlM_cons] at paid
    obtain ⟨⟨executed₁, t₁⟩, first, rest⟩ := Option.bind_eq_some_iff.1 paid
    obtain ⟨p, yields⟩ := payout_of_pay metadata opened first
    have call : (contract keccak256 ⟨sender, now, .payout l.payoutRef token l.recipient l.amount metadata⟩).Yields
        answer s.storage t () _ _ _ := yields.bind Code.yields_pure
    obtain ⟨ok, storage, others, -⟩ := invoke_yields call
    obtain ⟨b', again⟩ := opened.again executed₁ lively
    have later := ih (b := b') (s := (invoke (contract keccak256) (passive answer)
      ⟨sender, now, .payout l.payoutRef token l.recipient l.amount metadata⟩ (s, t)).2.1) (t := t₁)
      (by rw [storage]; exact again) (by rw [storage]; exact rest)
    have pair : (invoke (contract keccak256) (passive answer)
        ⟨sender, now, .payout l.payoutRef token l.recipient l.amount metadata⟩ (s, t)).2 = (_, t₁) :=
      Prod.ext rfl others
    have step : q = sequence (contract keccak256) (passive answer)
        (singles sender now token metadata ls)
        (invoke (contract keccak256) (passive answer)
          ⟨sender, now, .payout l.payoutRef token l.recipient l.amount metadata⟩ (s, t)).2 :=
      sequence_of_ok ok
    rw [step, pair]
    obtain ⟨returned, left, stored⟩ := later
    refine ⟨returned, left, stored.trans ?_⟩
    rw [storage]

/-- Payouts that return one after another have been paid, and any of them found the vault open. -/
lemma pay_of_sequence
    (returned : (sequence (contract keccak256) (passive answer)
      (singles sender now token metadata ls) (s, t)).1 = .ok ()) :
    (ls ≠ [] → ∃ b, Open sender token s.storage b) ∧
      ∃ st, payAll oz keccak256 answer token s.storage.funder ls (s.storage.payoutExecuted, t) =
        some st := by
  induction ls generalizing s t with
  | nil => exact ⟨fun some => absurd rfl some, _, rfl⟩
  | cons l ls ih =>
    cases call : (invoke (contract keccak256) (passive answer)
        ⟨sender, now, .payout l.payoutRef token l.recipient l.amount metadata⟩ (s, t)).1 with
    | error e =>
      exact absurd ((sequence_of_error call).symm.trans returned) (by simp)
    | ok u =>
      have single : (contract keccak256
          ⟨sender, now, .payout l.payoutRef token l.recipient l.amount metadata⟩).Returns (A := abi oz)
          answer s.storage t fun _ v' t' => ∃ b, Open sender token s.storage b ∧
            v' = { s.storage with base := oz.nonReentrantAfter b, payoutExecuted := v'.payoutExecuted } ∧
              l.pay oz keccak256 answer token s.storage.funder (s.storage.payoutExecuted, t) =
                some (v'.payoutExecuted, t') :=
        Code.returns_bind (Code.returns_mono (fun _ _ _ paid => Code.returns_pure paid) pay_of_payout)
      obtain ⟨b, opened, stored, paid⟩ := invoke_leaves single call
      rw [singles, List.map_cons, sequence_of_ok call] at returned
      obtain ⟨-, st, rest⟩ := ih returned
      refine ⟨fun _ => ⟨b, opened⟩, st, ?_⟩
      simp only [payAll, List.foldlM_cons, paid]
      rw [stored] at rest
      rw [stored]
      exact rest

variable {m : Msg (abi oz)}

/-- The call of a batch yields what the batch yields. -/
lemma yields_of_call {batchId : Word} {es : List (Event oz)}
    (call : m.call = .payoutBatch batchRef token recipients amounts metadata)
    (yields : (payoutBatch keccak256 m.sender batchRef token recipients amounts metadata).Yields
      (A := abi oz) answer v t batchId v' t' es) :
    (contract keccak256 m).Yields answer v t () v' t' es := by
  have closed := yields.bind (k := fun _ => pure ()) Code.yields_pure
  rw [List.append_nil] at closed
  unfold contract
  rw [call]
  exact closed

/-- A batch that returns leaves what its payouts leave one after another, and its own flag and event. -/
lemma sequence_of_payoutBatch (lively : Lively oz)
    (call : m.call = .payoutBatch batchRef token recipients amounts metadata)
    (returned : (invoke (contract keccak256) (passive answer) m (s, t)).1 = .ok ()) :
    let r := invoke (contract keccak256) (passive answer) m (s, t)
    let q := sequence (contract keccak256) (passive answer) (singles m.sender m.time token metadata
      (legsOf keccak256 batchRef 0 (recipients.zip amounts))) (s, t)
    q.1 = .ok () ∧ q.2.2 = r.2.2 ∧
      r.2.1.storage = { q.2.1.storage with
        base := r.2.1.storage.base
        batchExecuted := marked keccak256 s.storage token batchRef } ∧
        ∃ (total : Word) (ps : List PayoutExecuted), total.toNat = (amounts.map BitVec.toNat).sum ∧
          r.2.1.events = s.events ++ (ps.map Event.payoutExecuted ++ [.batchExecuted
            ⟨keccak256 [batchRef, token.word], token, batchRef, recipients.length, total⟩]) := by
  intro r q
  have paid : (contract keccak256 m).Returns (A := abi oz) answer s.storage t fun _ v' t' =>
      ∃ b, Open m.sender token s.storage b ∧
        Admissible keccak256 s.storage token batchRef recipients amounts ∧
          sumOf (recipients.zip amounts) < 2 ^ 256 ∧
            payAll oz keccak256 answer token s.storage.funder
              (legsOf keccak256 batchRef 0 (recipients.zip amounts)) (s.storage.payoutExecuted, t) =
                some (v'.payoutExecuted, t') := by
    unfold contract
    rw [call]
    exact Code.returns_bind
      (Code.returns_mono (fun _ _ _ paid => Code.returns_pure paid) pay_of_payoutBatch)
  obtain ⟨b, opened, admissible, fits, paid⟩ := invoke_leaves paid returned
  obtain ⟨total, ps, counted, yields⟩ := payoutBatch_of_pay metadata opened admissible fits paid
  obtain ⟨-, stored, left, events⟩ := invoke_yields (yields_of_call call yields)
  obtain ⟨ok, left', stored'⟩ := sequence_of_pay metadata m.time lively opened paid
  refine ⟨ok, left'.trans left.symm, ?_, total, ps, ?_, ?_⟩
  · change r.2.1.storage = _ at stored
    rw [stored', stored]
  · rw [counted, sumOf_zip admissible.lengths]
  · exact events

/-- A batch returns where its sum fits and its payouts return one after another. -/
lemma payoutBatch_of_sequence
    (call : m.call = .payoutBatch batchRef token recipients amounts metadata)
    (admissible : Admissible keccak256 s.storage token batchRef recipients amounts)
    (fits : (amounts.map BitVec.toNat).sum < 2 ^ 256)
    (returned : (sequence (contract keccak256) (passive answer) (singles m.sender m.time token metadata
      (legsOf keccak256 batchRef 0 (recipients.zip amounts))) (s, t)).1 = .ok ()) :
    (invoke (contract keccak256) (passive answer) m (s, t)).1 = .ok () := by
  obtain ⟨opens, st, paid⟩ := pay_of_sequence returned
  obtain ⟨b, opened⟩ := opens (legsOf_ne_nil admissible)
  rw [← sumOf_zip admissible.lengths] at fits
  obtain ⟨total, ps, -, yields⟩ := payoutBatch_of_pay metadata opened admissible fits paid
  exact (invoke_yields (yields_of_call call yields)).1

end

/-! ## A batch against its payouts -/

section
variable {keccak256 : List Word → Word} {recover : Recover} {self token : Address} {batchRef : Word}
  {recipients : List Address} {amounts : List Word} {metadata : Bytes} {m : Msg (abi oz)}
  {s : Account (abi oz)} {ts : Tokens}

variable (keccak256 recover self ts) in
/-- A batch either changes nothing, or leaves the balances, allowances and executed payouts that the
    payouts of its legs leave one after another, marks itself and reports how many legs it had and what
    they came to. An operator can pay it whenever it is in order, its sum fits and those payouts can be
    made. -/
theorem payoutBatch_refines (lively : Lively oz)
    (call : m.call = .payoutBatch batchRef token recipients amounts metadata) :
    let tokens := standardTokens recover self m.time
    let r := invoke (contract keccak256) (passive tokens) m (s, ts)
    let q := sequence (contract keccak256) (passive tokens) (singles m.sender m.time token metadata
      (legsOf keccak256 batchRef 0 (recipients.zip amounts))) (s, ts)
    ((∃ e, r = (.error e, s, ts)) ∨
      (r.1 = .ok () ∧ q.1 = .ok () ∧ r.2.2 = q.2.2 ∧
        r.2.1.storage.payoutExecuted = q.2.1.storage.payoutExecuted ∧
        r.2.1.storage.batchExecuted =
          Function.update s.storage.batchExecuted (keccak256 [batchRef, token.word]) true ∧
        (∃ (total : Word) (ps : List PayoutExecuted),
          total.toNat = (amounts.map BitVec.toNat).sum ∧
          r.2.1.events = s.events ++ (ps.map Event.payoutExecuted ++ [.batchExecuted
            ⟨keccak256 [batchRef, token.word], token, batchRef, recipients.length, total⟩])))) ∧
    (s.storage.operators m.sender = true → oz.paused s.storage.base = false →
      1 ≤ recipients.length → recipients.length ≤ 256 → recipients.length = amounts.length →
      batchRef ≠ 0 → s.storage.batchExecuted (keccak256 [batchRef, token.word]) = false →
      (amounts.map BitVec.toNat).sum < 2 ^ 256 → q.1 = .ok () → r.1 = .ok ()) := by
  intro tokens r q
  constructor
  · cases result : r.1 with
    | error e => exact Or.inl ⟨e, Prod.ext result (invoke_error result)⟩
    | ok u =>
      obtain ⟨ok, left, stored, reported⟩ := sequence_of_payoutBatch lively call result
      refine Or.inr ⟨rfl, ok, left.symm, ?_, ?_, reported⟩
      · exact (congrArg (fun v : Storage oz => v.payoutExecuted) stored :)
      · exact (congrArg (fun v : Storage oz => v.batchExecuted) stored :)
  · intro operator unpaused nonempty bounded lengths ref unused fits returned
    exact payoutBatch_of_sequence call ⟨ref, lengths, by omega, bounded, unused⟩ fits returned

end

/-- A hash that keeps the words of the batch apart. -/
def mixingHash (ws : List Word) : Word := ws.foldl (fun h w => 257 * h + w + 1) 1

/-- A vault with its operator and a token. -/
def openVault : Account (abi .standard) :=
  ⟨⟨⟨1, 0, false, false⟩, 2, fun a => a == 3, fun a => a == 4, fun _ => false, fun _ => false⟩, []⟩

/-- Two units of a token, and the allowance of them. -/
def approvedTokens : Tokens := fun _ => ⟨fun a => if a = 2 then 2 else 0, fun _ _ => 2, fun _ => 0⟩

/-- The same beneficiary is paid the same amount twice. -/
def twiceTheSame : Msg (abi .standard) := ⟨3, 0, .payoutBatch 6 4 [7, 7] [1, 1] []⟩

/-- A batch can hold the same leg twice. -/
theorem payoutBatch_refines_twice :
    (invoke (contract mixingHash) (passive (standardTokens (fun _ _ => none) 9 0)) twiceTheSame
      (openVault, approvedTokens)).1 = .ok () :=
  (payoutBatch_refines mixingHash (fun _ _ => none) 9 approvedTokens (m := twiceTheSame) (s := openVault)
    Lively.standard rfl).2 (by decide) (by decide) (by decide) (by decide) (by decide) (by decide)
    (by decide) (by decide) rfl

end SettlementVault

end AvaSettle.Contracts
