import AvaSettle.Model.World

/-!
# What an operation leaves alone

Every operation writes to one part of the world at most. All others are the same after it.
-/

namespace AvaSettle

/-- The parts of the world that the services write. -/
inductive Region : Type where
  | payouts
  | payins
  | settlements
  | audit
  | outbox
  | payInIndex
  | idempotencyKeys
  | submissions
  deriving DecidableEq

/-- The part of the world that an operation may write. -/
def Call.writes : Call → Option Region
  | .payoutInsert _ => some .payouts
  | .payoutUpdate _ _ _ => some .payouts
  | .payInInsert _ => some .payins
  | .payInUpdate _ _ _ => some .payins
  | .claimNextPayInIndex => some .payInIndex
  | .idempotencyKeyStore _ _ => some .idempotencyKeys
  | .settlementInsert _ => some .settlements
  | .settlementUpdate _ _ => some .settlements
  | .settlementDelete _ => some .settlements
  | .auditInsert _ => some .audit
  | .outboxInsert _ _ _ => some .outbox
  | .submit _ _ _ => some .submissions
  | _ => none

/-- The worlds differ in one part at most. -/
structure Frame (region : Option Region) (w w' : World) : Prop where
  payouts : region ≠ some .payouts → w'.payouts = w.payouts
  payins : region ≠ some .payins → w'.payins = w.payins
  settlements : region ≠ some .settlements → w'.settlements = w.settlements
  audit : region ≠ some .audit → w'.audit = w.audit
  outbox : region ≠ some .outbox → w'.outbox = w.outbox
  payInIndex : region ≠ some .payInIndex → w'.payInIndex = w.payInIndex
  idempotencyKeys : region ≠ some .idempotencyKeys → w'.idempotencyKeys = w.idempotencyKeys
  submissions : region ≠ some .submissions → w'.submissions = w.submissions
  chain : w'.chain = w.chain
  now : w'.now = w.now

section
variable {region : Option Region} {w w' : World} {c : Call} {b : c.Res}

/-- Nothing outside a region changes when nothing does. -/
lemma Frame.refl : Frame region w w := by
  constructor <;> intros <;> rfl

/-- Changing the payouts leaves the rest. -/
lemma Frame.payouts_of {t} : Frame (some .payouts) w { w with payouts := t } := by
  constructor <;> intros <;> first | rfl | contradiction

/-- Changing the pay-ins leaves the rest. -/
lemma Frame.payins_of {t} : Frame (some .payins) w { w with payins := t } := by
  constructor <;> intros <;> first | rfl | contradiction

/-- Changing the settlements leaves the rest. -/
lemma Frame.settlements_of {t} : Frame (some .settlements) w { w with settlements := t } := by
  constructor <;> intros <;> first | rfl | contradiction

/-- An operation that only reads. -/
lemma Frame.read {β : Type} {x : Option β} {f : β → c.Res}
    (run : (x.map fun b => (f b, w)) = some (b, w')) : Frame region w w' := by
  obtain ⟨_, -, eq⟩ := Option.map_eq_some_iff.1 run
  cases eq
  exact .refl

/-- A payout is inserted, or its key is taken. -/
lemma World.insertPayout_cases {r : PayoutRecord} {o : Option PayoutRecord}
    (run : w.insertPayout r = some (o, w')) :
    (o = none ∧ w' = w ∧
      (w.payouts.rows.any fun r' => sameKey r.clientId r.externalId r'.clientId r'.externalId) = true) ∨
    ∃ t, o = some r ∧ w' = { w with payouts := t } ∧ w.payouts.insert r = some t ∧
      (w.payouts.rows.any fun r' => sameKey r.clientId r.externalId r'.clientId r'.externalId) =
        false := by
  unfold World.insertPayout at run
  split at run
  case isTrue taken => cases run; exact .inl ⟨rfl, rfl, taken⟩
  case isFalse new =>
    split at run
    case isTrue => cases run
    case isFalse =>
      obtain ⟨t, inserted, eq⟩ := Option.map_eq_some_iff.1 run
      cases eq
      exact .inr ⟨t, rfl, rfl, inserted, Bool.eq_false_iff.2 new⟩

/-- A pay-in is inserted, or its key is taken. -/
lemma World.insertPayIn_cases {r : PayInRecord} {o : Option PayInRecord}
    (run : w.insertPayIn r = some (o, w')) :
    (o = none ∧ w' = w ∧
      (w.payins.rows.any fun r' => sameKey r.clientId r.externalId r'.clientId r'.externalId) = true) ∨
    ∃ t, o = some r ∧ w' = { w with payins := t } ∧ w.payins.insert r = some t ∧
      (w.payins.rows.any fun r' => sameKey r.clientId r.externalId r'.clientId r'.externalId) =
        false := by
  unfold World.insertPayIn at run
  split at run
  case isTrue taken => cases run; exact .inl ⟨rfl, rfl, taken⟩
  case isFalse new =>
    split at run
    case isTrue => cases run
    case isFalse =>
      obtain ⟨t, inserted, eq⟩ := Option.map_eq_some_iff.1 run
      cases eq
      exact .inr ⟨t, rfl, rfl, inserted, Bool.eq_false_iff.2 new⟩

/-- A settlement is inserted with the time of the database, or its key is taken. -/
lemma World.insertSettlement_cases {r : PrivateSettlementRecord} {o : Option PrivateSettlementRecord}
    (run : w.insertSettlement r = some (o, w')) :
    (o = none ∧ w' = w) ∨
    ∃ t, o = some { r with createdAt := w.now, updatedAt := w.now } ∧
      w' = { w with settlements := t } ∧
        w.settlements.insert { r with createdAt := w.now, updatedAt := w.now } = some t := by
  unfold World.insertSettlement at run
  split at run
  case isTrue taken => cases run; exact .inl ⟨rfl, rfl⟩
  case isFalse new =>
    obtain ⟨t, inserted, eq⟩ := Option.map_eq_some_iff.1 run
    cases eq
    exact .inr ⟨t, rfl, rfl, inserted⟩

/-- Every operation changes the part that it writes, and nothing else. -/
theorem World.exec_frame (run : World.exec c w = some (b, w')) : Frame c.writes w w' := by
  cases c
  case payoutInsert r =>
    obtain ⟨-, rfl, -⟩ | ⟨t, -, rfl, -⟩ := World.insertPayout_cases run
    · exact .refl
    · exact .payouts_of
  case payInInsert r =>
    obtain ⟨-, rfl, -⟩ | ⟨t, -, rfl, -⟩ := World.insertPayIn_cases run
    · exact .refl
    · exact .payins_of
  case settlementInsert r =>
    obtain ⟨-, rfl⟩ | ⟨t, -, rfl, -⟩ := World.insertSettlement_cases run
    · exact .refl
    · exact .settlements_of
  case payoutUpdate id patch guard => cases run; exact .payouts_of
  case payInUpdate id patch guard => cases run; exact .payins_of
  case settlementUpdate id patch => cases run; exact .settlements_of
  case settlementDelete id => cases run; exact .settlements_of
  case idempotencyKeyStore k id =>
    simp only [World.exec] at run
    split at run
    case isTrue => cases run; exact .refl
    case isFalse => cases run; constructor <;> intros <;> first | rfl | contradiction
  case auditInsert input =>
    cases run
    unfold World.insertAudit
    split
    case isTrue => exact .refl
    case isFalse => constructor <;> intros <;> first | rfl | contradiction
  case claimNextPayInIndex => cases run; constructor <;> intros <;> first | rfl | contradiction
  case outboxInsert => cases run; constructor <;> intros <;> first | rfl | contradiction
  case submit => cases run; constructor <;> intros <;> first | rfl | contradiction
  case getTransactionReceipt hash => exact .read run
  case waitForTransactionReceipt hash => exact .read run
  all_goals cases run; exact .refl

/-- What has been submitted stays submitted. -/
lemma World.submissions_exec (run : World.exec c w = some (b, w')) :
    w.submissions <+: w'.submissions := by
  by_cases writes : c.writes = some .submissions
  · cases c
    case submit => cases run; exact List.prefix_append _ _
    all_goals cases writes
  · exact (World.exec_frame run).submissions writes ▸ List.prefix_rfl

end

/-! ## Listing -/

section
variable {ρ : Type} {createdAt : ρ → Timestamp} {limit offset : Nat} {rows : List ρ} {r : ρ}

/-- The rows of a page are rows of the table. -/
lemma mem_of_page (mem : r ∈ page createdAt limit offset rows) : r ∈ rows :=
  (List.mem_insertionSort _).1 (List.mem_of_mem_drop (List.mem_of_mem_take mem))

/-- A page that is large enough has all rows. -/
lemma mem_page (few : rows.length ≤ limit) : r ∈ page createdAt limit 0 rows ↔ r ∈ rows := by
  rw [page, List.drop_zero, List.take_of_length_le (by rwa [List.length_insertionSort]),
    List.mem_insertionSort]

/-- A row that is behind a page of newer rows is not on it. -/
lemma not_mem_page (newer : limit ≤ rows.countP fun r' => decide (createdAt r < createdAt r')) :
    r ∉ page createdAt limit 0 rows := by
  intro mem
  rw [page, List.drop_zero] at mem
  set sorted := rows.insertionSort fun a b => createdAt b ≤ createdAt a with eq
  have total : Std.Total fun a b : ρ => createdAt b ≤ createdAt a := ⟨fun _ _ => le_total _ _⟩
  have trans : IsTrans ρ fun a b => createdAt b ≤ createdAt a := ⟨fun _ _ _ h₁ h₂ => h₂.trans h₁⟩
  have order : sorted.Pairwise fun a b => createdAt b ≤ createdAt a :=
    List.pairwise_insertionSort _ rows
  rw [← (List.perm_insertionSort (fun a b => createdAt b ≤ createdAt a) rows).countP_eq, ← eq,
    ← List.take_append_drop limit sorted, List.countP_append] at newer
  rw [← List.take_append_drop limit sorted, List.pairwise_append] at order
  have older : (sorted.drop limit).countP (fun r' => decide (createdAt r < createdAt r')) = 0 := by
    refine List.countP_eq_zero.2 fun r' mem' lt => ?_
    exact absurd (order.2.2 r mem r' mem') (not_le.2 (of_decide_eq_true lt))
  have all : (sorted.take limit).countP (fun r' => decide (createdAt r < createdAt r')) =
      (sorted.take limit).length := by
    refine le_antisymm List.countP_le_length ?_
    rw [older, Nat.add_zero] at newer
    exact (List.length_take_le _ _).trans newer
  exact lt_irrefl _ (of_decide_eq_true (List.countP_eq_length.1 all r mem))

/-- A page has no row twice. -/
lemma nodup_page (nodup : rows.Nodup) : (page createdAt limit offset rows).Nodup :=
  (((List.perm_insertionSort _ rows).nodup_iff.2 nodup).sublist (List.drop_sublist _ _)).sublist
    (List.take_sublist _ _)

end

end AvaSettle
