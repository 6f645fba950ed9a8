import AvaSettle.Data.Lists
import AvaSettle.Payins.Service

/-!
# The transfers of a pay-in

The pure part of `reconcilePayIn`: the keys that tell logs apart, the keyed merge, the block a scan
resumes from, and what a classification says about the merged transfers.
-/

namespace AvaSettle.Payins

/-! ## Keys -/

/-- A number has no colon. -/
lemma colon_notMem_repr {n : Nat} : ':' ∉ n.repr.toList := by
  intro mem
  rw [Nat.toList_repr] at mem
  have digit := Nat.isDigit_of_mem_toDigits (by decide) (by decide) mem
  revert digit
  decide

/-- A number is told by its digits. -/
lemma repr_injective {n n' : Nat} (eq : n.repr.toList = n'.repr.toList) : n = n' := by
  rw [Nat.toList_repr, Nat.toList_repr] at eq
  rw [← Nat.ofDigitChars_ten_toDigits (n := n), eq, Nat.ofDigitChars_ten_toDigits]

/-- The key of a log tells its place in its transaction. -/
lemma logKey_injective {h₁ h₂ : Hex} {n₁ n₂ : Nat} (eq : s!"{h₁}:{n₁}" = s!"{h₂}:{n₂}") :
    h₁ = h₂ ∧ n₁ = n₂ := by
  have lists : h₁.toList ++ ':' :: n₁.repr.toList = h₂.toList ++ ':' :: n₂.repr.toList := by
    have := congrArg String.toList eq
    simpa [toString, String.toList_append] using this
  obtain ⟨hashes, indices⟩ := Data.eq_of_append_last colon_notMem_repr colon_notMem_repr lists
  exact ⟨String.toList_inj.1 hashes, repr_injective indices⟩

/-- The key of a record of a log. -/
lemma transferKey_of_some {t : PayInTransferRecord} {n : Nat} (index : t.logIndex = some n) :
    transferKey t = s!"{t.hash}:{n}" := by
  simp [transferKey, index]

/-! ## Merging -/

section
variable {existing incoming ts : List PayInTransferRecord} {t : PayInTransferRecord}

/-- The merge holds the last transfer of each key, in another order. -/
lemma perm_mergeTransfers :
    (mergeTransfers existing incoming).Perm (Data.byKey transferKey (existing ++ incoming)) :=
  List.perm_insertionSort _ _

/-- A transfer of the merge is from one of the lists. -/
lemma mem_of_mem_mergeTransfers (mem : t ∈ mergeTransfers existing incoming) :
    t ∈ existing ∨ t ∈ incoming :=
  List.mem_append.1 (Data.mem_of_mem_byKey (perm_mergeTransfers.mem_iff.1 mem))

/-- Where keys tell transfers apart, the merge has all of them. -/
lemma mem_mergeTransfers
    (inj : ∀ a ∈ existing ++ incoming, ∀ b ∈ existing ++ incoming,
      transferKey a = transferKey b → a = b)
    (mem : t ∈ existing ∨ t ∈ incoming) : t ∈ mergeTransfers existing incoming :=
  perm_mergeTransfers.mem_iff.2 ((Data.mem_byKey inj).2 (List.mem_append.2 mem))

/-- The merge has no key twice. -/
lemma nodup_mergeTransfers : ((mergeTransfers existing incoming).map transferKey).Nodup :=
  (perm_mergeTransfers.map transferKey).nodup_iff.2 Data.nodup_byKey

/-! ## Classification -/

/-- The latest block is at least that of each transfer. -/
lemma le_foldl_latest (latest : Option Nat) {b : Nat} (le : latest = some b ∨ t ∈ ts) :
    ∃ b', ts.foldl (fun latest transfer =>
      match latest with
      | none => some transfer.blockNumber
      | some block =>
        some (if block < transfer.blockNumber then transfer.blockNumber else block)) latest =
          some b' ∧ (latest = some b → b ≤ b') ∧ (t ∈ ts → t.blockNumber ≤ b') := by
  induction ts generalizing latest b with
  | nil =>
    obtain rfl | mem := le
    · exact ⟨b, rfl, fun eq => by cases eq; rfl, nofun⟩
    · cases mem
  | cons x ts ih =>
    rw [List.foldl_cons]
    generalize eq : (match latest with
      | none => some x.blockNumber
      | some block => some (if block < x.blockNumber then x.blockNumber else block)) = next
    obtain ⟨b', rfl, here, there⟩ : ∃ b', next = some b' ∧ x.blockNumber ≤ b' ∧
        (latest = some b → b ≤ b') := by
      cases latest with
      | none => exact ⟨_, eq.symm, le_rfl, nofun⟩
      | some block =>
        refine ⟨_, eq.symm, ?_, fun eq => ?_⟩
        · split <;> omega
        · cases eq
          split <;> omega
    obtain ⟨b'', res, later, last⟩ := ih _ (b := b') (.inl rfl)
    refine ⟨b'', res, fun eq => (there eq).trans (later rfl), fun mem => ?_⟩
    rcases List.mem_cons.1 mem with rfl | mem
    · exact here.trans (later rfl)
    · exact last mem

/-- The latest block is at or after the block of every transfer. -/
lemma le_latestTransferBlock (mem : t ∈ ts) :
    ∃ b, latestTransferBlock ts = some b ∧ t.blockNumber ≤ b := by
  obtain ⟨b, res, -, last⟩ := le_foldl_latest none (b := 0) (.inr mem)
  exact ⟨b, res, last mem⟩

/-- With enough confirmations, every transfer is at least one block, and at least the configured
    number of blocks, below the head. -/
lemma deep_of_enoughConfirmations {d : Deployment} {latestBlock : Nat}
    (enough : enoughConfirmations d latestBlock ts = true) (mem : t ∈ ts) :
    t.blockNumber + max 1 d.minConfirmations ≤ latestBlock := by
  obtain ⟨b, latest, le⟩ := le_latestTransferBlock mem
  rw [enoughConfirmations, latest, Bool.and_eq_true, decide_eq_true_eq, decide_eq_true_eq] at enough
  omega

/-- What a call has to see for the pay-in to be paid: a total that is not zero and just what was
    expected, with enough confirmations. -/
structure Paid (d : Deployment) (payin : PayInRecord) (ts : List PayInTransferRecord)
    (latestBlock : Nat) : Prop where
  some : totalReceivedAtomic ts ≠ 0
  exactly : totalReceivedAtomic ts = payin.expectedAmountAtomic
  deep : enoughConfirmations d latestBlock ts = true

/-- A pay-in is confirmed just when it has been paid. -/
lemma reconciledStatus_eq_confirmed_iff {d : Deployment} {payin : PayInRecord} {latestBlock : Nat}
    {expired : Bool} : reconciledStatus d payin ts latestBlock expired = .confirmed ↔
      Paid d payin ts latestBlock := by
  unfold reconciledStatus
  constructor
  · intro status
    split at status
    · split at status <;> cases status
    · split at status
      · cases status
      · split at status
        · cases status
        · split at status
          · exact ⟨‹_›, by omega, ‹_›⟩
          · cases status
  · rintro ⟨some, exactly, deep⟩
    rw [if_neg some, if_neg (by omega), if_neg (by omega), if_pos deep]

/-- An underpaid pay-in has been paid something, and less than expected. -/
lemma reconciledStatus_eq_underpaid {d : Deployment} {payin : PayInRecord} {latestBlock : Nat}
    {expired : Bool} (status : reconciledStatus d payin ts latestBlock expired = .underpaid) :
    totalReceivedAtomic ts ≠ 0 ∧ totalReceivedAtomic ts < payin.expectedAmountAtomic := by
  unfold reconciledStatus at status
  split at status
  · split at status <;> cases status
  · split at status
    · exact ⟨‹_›, ‹_›⟩
    · split at status
      · cases status
      · split at status <;> cases status

/-- An overpaid pay-in has been paid more than expected. -/
lemma reconciledStatus_eq_overpaid {d : Deployment} {payin : PayInRecord} {latestBlock : Nat}
    {expired : Bool} (status : reconciledStatus d payin ts latestBlock expired = .overpaid) :
    payin.expectedAmountAtomic < totalReceivedAtomic ts := by
  unfold reconciledStatus at status
  split at status
  · split at status <;> cases status
  · split at status
    · cases status
    · split at status
      · assumption
      · split at status <;> cases status

end

/-! ## Where a scan resumes -/

section
variable {payin : PayInRecord} {block : Nat}

/-- A scan resumes at the start block or later. -/
lemma startBlock_le_scanFromBlock (payin : PayInRecord) : payin.startBlock ≤ scanFromBlock payin := by
  unfold scanFromBlock
  split
  case h_1 => exact le_rfl
  case h_2 =>
    dsimp only
    split <;> omega

/-- What a scan leaves out has been scanned before. -/
lemma scanned_of_lt_scanFromBlock (start : payin.startBlock ≤ block)
    (lt : block < scanFromBlock payin) : ∃ n, payin.lastScannedBlock = some n ∧ block ≤ n := by
  unfold scanFromBlock at lt
  split at lt
  case h_1 => omega
  case h_2 n eq =>
    refine ⟨n, eq, ?_⟩
    dsimp only [rescanOverlapBlocks] at lt
    split at lt <;> omega

end

end AvaSettle.Payins
