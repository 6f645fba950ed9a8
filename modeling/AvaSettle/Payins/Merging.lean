import AvaSettle.Payins.Transfers

/-!
# Merging what is stored with what is fetched

The stored transfers of a pay-in and those of a new scan describe logs of the chain; an old stored one does
not have the index of its log. The merge tells the former apart by their places and the latter by a
composite key, so that each log is described once just when, of the logs that are stored without an index
under one composite key, all but one are fetched again.
-/

namespace AvaSettle.Payins

/-! ## Logs and their descriptions -/

/-- A transfer log on the chain. -/
structure ChainLog where
  hash : Hex
  logIndex : Nat
  «from» : Hex
  «to» : Hex
  amountAtomic : Nat
  blockNumber : Nat
  deriving DecidableEq

/-- The record is one of the log, with or without its index. -/
structure Describes (t : PayInTransferRecord) (l : ChainLog) : Prop where
  hash : t.hash = l.hash
  «from» : t.from = l.from
  «to» : t.to = l.to
  amountAtomic : t.amountAtomic = l.amountAtomic
  blockNumber : t.blockNumber = l.blockNumber
  logIndex : ∀ n, t.logIndex = some n → n = l.logIndex

/-- A record with the log that it describes. -/
structure LogRecord where
  transfer : PayInTransferRecord
  log : ChainLog
  describes : Describes transfer log

/-- The logs are on one chain: a place in a transaction has one log, and hashes and addresses are
    hexadecimal. -/
structure OneChain (ls : List ChainLog) : Prop where
  place : ∀ l ∈ ls, ∀ l' ∈ ls, l.hash = l'.hash → l.logIndex = l'.logIndex → l = l'
  plain : ∀ l ∈ ls, ':' ∉ l.hash.toList ∧ ':' ∉ l.from.toList

/-- The records describe the logs, each once. -/
def Represents (ts : List PayInTransferRecord) (ls : List ChainLog) : Prop :=
  ∃ records : List LogRecord, records.map LogRecord.transfer = ts ∧ (records.map LogRecord.log).Nodup ∧
    ∀ l, l ∈ records.map LogRecord.log ↔ l ∈ ls

/-- The stored records without an index whose key is that of the record. -/
def rivals (stored : List LogRecord) (c : LogRecord) : List LogRecord :=
  stored.filter fun c' => c'.transfer.logIndex = none ∧ transferKey c'.transfer = transferKey c.transfer

/-- Of the logs that are stored without an index under one key, all but one are fetched, and the recipient
    of this one is that of the last record under the key. -/
def OneLeft (stored fetched : List LogRecord) : Prop :=
  ∀ c ∈ stored, c.transfer.logIndex = none → ∃ l,
    ((rivals stored c).filter fun c' => c'.log ∉ fetched.map LogRecord.log).map LogRecord.log = [l] ∧
      ∃ last, (rivals stored c).getLast? = some last ∧ last.transfer.to = l.to

/-! ## Keys -/

/-- The key of a record with the index of the log. -/
def ChainLog.indexKey (l : ChainLog) : String := s!"{l.hash}:{l.logIndex}"

/-- The key of a record without the index of the log. -/
def ChainLog.compositeKey (l : ChainLog) : String :=
  s!"{l.hash}:{l.from}:{l.amountAtomic}:{l.blockNumber}"

variable {c c' : LogRecord} {l l' : ChainLog} {ls : List ChainLog} {n : Nat}

/-- The key of a record with an index is that of its place. -/
lemma LogRecord.key_of_some (index : c.transfer.logIndex = some n) :
    transferKey c.transfer = c.log.indexKey := by
  rw [transferKey_of_some index, c.describes.hash, c.describes.logIndex n index]
  rfl

/-- The key of a record without an index is made of the other columns. -/
lemma LogRecord.key_of_none (index : c.transfer.logIndex = none) :
    transferKey c.transfer = c.log.compositeKey := by
  rw [transferKey, index, ChainLog.compositeKey, ← c.describes.hash, ← c.describes.from,
    ← c.describes.amountAtomic, ← c.describes.blockNumber]

/-- The key with the index, as characters. -/
lemma toList_indexKey : l.indexKey.toList = l.hash.toList ++ ':' :: l.logIndex.repr.toList := by
  simp [ChainLog.indexKey, toString, String.toList_append]

/-- The key without the index, as characters. -/
lemma toList_compositeKey : l.compositeKey.toList =
    (((l.hash.toList ++ ':' :: l.from.toList) ++ ':' :: l.amountAtomic.repr.toList) ++
      ':' :: l.blockNumber.repr.toList) := by
  simp [ChainLog.compositeKey, toString, String.toList_append]

/-- A log is told by its key with the index. -/
lemma OneChain.eq_of_indexKey (chain : OneChain ls) (mem : l ∈ ls) (mem' : l' ∈ ls)
    (eq : l.indexKey = l'.indexKey) : l = l' := by
  obtain ⟨hash, index⟩ := logKey_injective eq
  exact chain.place l mem l' mem' hash index

/-- The two kinds of keys are different. -/
lemma OneChain.indexKey_ne (chain : OneChain ls) (mem : l ∈ ls) : l.indexKey ≠ l'.compositeKey := by
  intro eq
  have lists := congrArg String.toList eq
  rw [toList_indexKey, toList_compositeKey] at lists
  obtain ⟨hash, -⟩ := Data.eq_of_append_last colon_notMem_repr colon_notMem_repr lists
  apply (chain.plain l mem).1
  rw [hash]
  simp

/-- What a key without the index tells of a log. -/
lemma OneChain.of_compositeKey (chain : OneChain ls) (mem : l ∈ ls) (mem' : l' ∈ ls)
    (eq : l.compositeKey = l'.compositeKey) :
    l.hash = l'.hash ∧ l.from = l'.from ∧ l.amountAtomic = l'.amountAtomic ∧ l.blockNumber = l'.blockNumber := by
  have lists := congrArg String.toList eq
  rw [toList_compositeKey, toList_compositeKey] at lists
  obtain ⟨rest, block⟩ := Data.eq_of_append_last colon_notMem_repr colon_notMem_repr lists
  obtain ⟨rest, amount⟩ := Data.eq_of_append_last colon_notMem_repr colon_notMem_repr rest
  obtain ⟨hash, sender⟩ := Data.eq_of_append_last (chain.plain l mem).2 (chain.plain l' mem').2 rest
  exact ⟨String.toList_inj.1 hash, String.toList_inj.1 sender, repr_injective amount, repr_injective block⟩

/-! ## What the merge holds -/

section
variable {existing incoming : List PayInTransferRecord} {t : PayInTransferRecord}

/-- The merge holds the last record with each key. -/
lemma mem_mergeTransfers_iff : t ∈ mergeTransfers existing incoming ↔
    ((existing ++ incoming).filter fun x => transferKey x = transferKey t).getLast? = some t :=
  perm_mergeTransfers.mem_iff.trans Data.mem_byKey_iff_getLast?

/-- The merge has a record with the key of each record. -/
lemma exists_mem_mergeTransfers (mem : t ∈ existing ++ incoming) :
    ∃ t' ∈ mergeTransfers existing incoming, transferKey t' = transferKey t := by
  have inside : t ∈ (existing ++ incoming).filter fun x => transferKey x = transferKey t :=
    List.mem_filter.2 ⟨mem, by simp⟩
  obtain ⟨t', last⟩ := Option.isSome_iff_exists.1 (List.getLast?_isSome.2 (List.ne_nil_of_mem inside))
  have same : transferKey t' = transferKey t :=
    of_decide_eq_true (List.mem_filter.1 (List.mem_of_getLast? last)).2
  refine ⟨t', mem_mergeTransfers_iff.2 ?_, same⟩
  rwa [same]

end

section
variable {stored fetched records : List LogRecord}

/-- The records of the merge. -/
abbrev merged (stored fetched : List LogRecord) : List PayInTransferRecord :=
  mergeTransfers (stored.map LogRecord.transfer) (fetched.map LogRecord.transfer)

/-- What both lists assume: the stored records describe different logs, and the fetched ones have the index
    of theirs. -/
structure Rescan (stored fetched : List LogRecord) : Prop where
  distinct : (stored.map LogRecord.log).Nodup
  indexed : ∀ c ∈ fetched, c.transfer.logIndex ≠ none
  chain : OneChain ((stored ++ fetched).map LogRecord.log)

/-- A record without an index is stored, not fetched. -/
lemma Rescan.mem_stored (rescan : Rescan stored fetched) (mem : c ∈ stored ++ fetched)
    (index : c.transfer.logIndex = none) : c ∈ stored := by
  rcases List.mem_append.1 mem with mem | mem
  · exact mem
  · exact absurd index (rescan.indexed c mem)

/-- Stored records of one log are one record. -/
lemma Rescan.eq_of_log (rescan : Rescan stored fetched) (mem : c ∈ stored) (mem' : c' ∈ stored)
    (eq : c.log = c'.log) : c = c' :=
  List.inj_on_of_nodup_map rescan.distinct mem mem' eq

/-- A record of the merge is one of the two lists. -/
lemma exists_of_mem_merged {t : PayInTransferRecord} (mem : t ∈ merged stored fetched) :
    ∃ c ∈ stored ++ fetched, c.transfer = t := by
  rw [← List.mem_map, List.map_append, List.mem_append]
  exact mem_of_mem_mergeTransfers mem

/-- The record of the merge with the key of a record without an index is the last one under this key. -/
lemma Rescan.mem_merged_iff (rescan : Rescan stored fetched) (mem : c ∈ stored)
    (index : c.transfer.logIndex = none) {t : PayInTransferRecord} (same : transferKey t = transferKey c.transfer) :
    t ∈ merged stored fetched ↔ ∃ last, (rivals stored c).getLast? = some last ∧ last.transfer = t := by
  have known : c.log ∈ (stored ++ fetched).map LogRecord.log :=
    List.mem_map_of_mem (List.mem_append_left _ mem)
  have indexed (c') (mem' : c' ∈ stored ++ fetched) (n) (some : c'.transfer.logIndex = some n) :
      transferKey c'.transfer ≠ transferKey c.transfer := by
    rw [c'.key_of_some some, c.key_of_none index]
    exact rescan.chain.indexKey_ne (List.mem_map_of_mem mem')
  have old : (stored.map LogRecord.transfer).filter (fun x => transferKey x = transferKey t) =
      (rivals stored c).map LogRecord.transfer := by
    rw [List.filter_map, rivals]
    congr 1
    refine List.filter_congr fun c' mem' => ?_
    cases found : c'.transfer.logIndex with
    | none => simp [same]
    | some n => simp [same, indexed c' (List.mem_append_left _ mem') n found]
  have new : (fetched.map LogRecord.transfer).filter (fun x => transferKey x = transferKey t) = [] := by
    rw [List.filter_eq_nil_iff]
    intro x inside
    obtain ⟨c', mem', rfl⟩ := List.mem_map.1 inside
    obtain ⟨n, found⟩ := Option.ne_none_iff_exists'.1 (rescan.indexed c' mem')
    simp [same, indexed c' (List.mem_append_right _ mem') n found]
  rw [merged, mem_mergeTransfers_iff, List.filter_append, old, new, List.append_nil, List.getLast?_map,
    Option.map_eq_some_iff]

/-! ## From one log left to the description -/

/-- What a record of the merge stands for: the log of its place, or the one that is left under its key. -/
lemma Rescan.exists_log (rescan : Rescan stored fetched) (left : OneLeft stored fetched)
    {t : PayInTransferRecord} (mem : t ∈ merged stored fetched) :
    ∃ record : LogRecord, record.transfer = t ∧ record.log ∈ (stored ++ fetched).map LogRecord.log ∧
      (t.logIndex = none → record.log ∉ fetched.map LogRecord.log ∧
        ∃ c ∈ stored, c.transfer.logIndex = none ∧ c.log = record.log) := by
  obtain ⟨c, inside, rfl⟩ := exists_of_mem_merged mem
  cases index : c.transfer.logIndex with
  | some n => exact ⟨c, rfl, List.mem_map_of_mem inside, nofun⟩
  | none =>
    have own := rescan.mem_stored inside index
    obtain ⟨l, only, last, latest, recipient⟩ := left c own index
    obtain ⟨last', latest', eq⟩ := (rescan.mem_merged_iff own index rfl).1 mem
    cases latest.symm.trans latest'
    have member : l ∈ ((rivals stored c).filter fun c' => c'.log ∉ fetched.map LogRecord.log).map LogRecord.log :=
      only ▸ List.mem_singleton_self l
    obtain ⟨c', filtered, rfl⟩ := List.mem_map.1 member
    obtain ⟨rival, unfetched⟩ := List.mem_filter.1 filtered
    obtain ⟨own', rival⟩ := List.mem_filter.1 rival
    obtain ⟨index', same⟩ := of_decide_eq_true rival
    rw [c'.key_of_none index', c.key_of_none index] at same
    obtain ⟨hash, sender, amount, block⟩ := rescan.chain.of_compositeKey
      (List.mem_map_of_mem (List.mem_append_left _ own')) (List.mem_map_of_mem (List.mem_append_left _ own)) same
    refine ⟨⟨c.transfer, c'.log, ?_⟩, rfl, List.mem_map.2 ⟨c', List.mem_append_left _ own', rfl⟩,
      fun _ => ⟨of_decide_eq_true unfetched, c', own', index', rfl⟩⟩
    exact ⟨c.describes.hash.trans hash.symm, c.describes.from.trans sender.symm, eq ▸ recipient,
      c.describes.amountAtomic.trans amount.symm, c.describes.blockNumber.trans block.symm,
      fun n some => by rw [index] at some; cases some⟩

/-! ## Records of the merge -/

/-- A record with an index stands for the log of the one that was merged. -/
lemma Rescan.of_indexed (rescan : Rescan stored fetched) (mem : c.transfer ∈ merged stored fetched)
    (known : c.log ∈ (stored ++ fetched).map LogRecord.log) (index : c.transfer.logIndex = some n) :
    ∃ c' ∈ stored ++ fetched, c'.transfer = c.transfer ∧ c'.log = c.log := by
  obtain ⟨c', inside, eq⟩ := exists_of_mem_merged mem
  refine ⟨c', inside, eq, rescan.chain.place _ (List.mem_map_of_mem inside) _ known ?_ ?_⟩
  · rw [← c'.describes.hash, ← c.describes.hash, eq]
  · rw [← c'.describes.logIndex n (eq ▸ index), ← c.describes.logIndex n index]

/-- The merge has a record of each log that is merged with its index. -/
lemma Rescan.exists_indexed (rescan : Rescan stored fetched)
    (all : records.map LogRecord.transfer = merged stored fetched)
    (known : ∀ r ∈ records, r.log ∈ (stored ++ fetched).map LogRecord.log) (mem : c ∈ stored ++ fetched)
    (index : c.transfer.logIndex = some n) :
    ∃ r ∈ records, r.transfer.logIndex ≠ none ∧ r.log = c.log := by
  have inside : c.transfer ∈ stored.map LogRecord.transfer ++ fetched.map LogRecord.transfer := by
    rw [← List.map_append]
    exact List.mem_map_of_mem mem
  obtain ⟨t, merges, same⟩ := exists_mem_mergeTransfers inside
  rw [← merged, ← all] at merges
  obtain ⟨r, member, rfl⟩ := List.mem_map.1 merges
  have place : c.log.indexKey ≠ r.log.compositeKey := rescan.chain.indexKey_ne (List.mem_map_of_mem mem)
  rw [c.key_of_some index] at same
  cases found : r.transfer.logIndex with
  | none => exact absurd (same.symm.trans (r.key_of_none found)) place
  | some m =>
    rw [r.key_of_some found] at same
    exact ⟨r, member, by simp [found], rescan.chain.eq_of_indexKey (known r member) (List.mem_map_of_mem mem) same⟩

/-- The merge has a record without an index for the key of each such record. -/
lemma Rescan.exists_unindexed (rescan : Rescan stored fetched)
    (all : records.map LogRecord.transfer = merged stored fetched)
    (known : ∀ r ∈ records, r.log ∈ (stored ++ fetched).map LogRecord.log) (mem : c ∈ stored)
    (index : c.transfer.logIndex = none) :
    ∃ r ∈ records, r.transfer.logIndex = none ∧ transferKey r.transfer = transferKey c.transfer := by
  have inside : c.transfer ∈ stored.map LogRecord.transfer ++ fetched.map LogRecord.transfer :=
    List.mem_append_left _ (List.mem_map_of_mem mem)
  obtain ⟨t, merges, same⟩ := exists_mem_mergeTransfers inside
  rw [← merged, ← all] at merges
  obtain ⟨r, member, rfl⟩ := List.mem_map.1 merges
  cases found : r.transfer.logIndex with
  | none => exact ⟨r, member, found, same⟩
  | some m =>
    rw [r.key_of_some found, c.key_of_none index] at same
    exact absurd same (rescan.chain.indexKey_ne (known r member))

/-- The records of the merge have different keys. -/
lemma nodup_keys (all : records.map LogRecord.transfer = merged stored fetched) :
    (records.map fun r => transferKey r.transfer).Nodup := by
  have keys : ((merged stored fetched).map transferKey).Nodup := nodup_mergeTransfers
  rwa [← all, List.map_map] at keys

/-- A log of a record without an index is merged with no index. -/
lemma Rescan.unindexed_of_log (rescan : Rescan stored fetched)
    (all : records.map LogRecord.transfer = merged stored fetched)
    (known : ∀ r ∈ records, r.log ∈ (stored ++ fetched).map LogRecord.log)
    (distinct : (records.map LogRecord.log).Nodup) {r : LogRecord} (member : r ∈ records)
    (index : r.transfer.logIndex = none) (mem : c ∈ stored ++ fetched) (same : c.log = r.log) :
    c.transfer.logIndex = none := by
  cases found : c.transfer.logIndex with
  | none => rfl
  | some n =>
    obtain ⟨r', member', indexed, eq⟩ := rescan.exists_indexed all known mem found
    rw [List.inj_on_of_nodup_map distinct member' member (eq.trans same)] at indexed
    exact absurd index indexed

/-- Transfers that each have a record are the transfers of a list of records. -/
lemma exists_records {P : LogRecord → Prop} (ts : List PayInTransferRecord)
    (each : ∀ t ∈ ts, ∃ r : LogRecord, r.transfer = t ∧ P r) :
    ∃ records : List LogRecord, records.map LogRecord.transfer = ts ∧ ∀ r ∈ records, P r := by
  induction ts with
  | nil => exact ⟨[], rfl, fun r mem => absurd mem List.not_mem_nil⟩
  | cons t ts ih =>
    obtain ⟨here, later⟩ := List.forall_mem_cons.1 each
    obtain ⟨r, rfl, holds⟩ := here
    obtain ⟨records, rfl, all⟩ := ih later
    exact ⟨r :: records, rfl, List.forall_mem_cons.2 ⟨holds, all⟩⟩

/-! ## When each log is described once -/

/-- Where one log is left under each key, the merge describes each log once. -/
lemma Rescan.represents_of_oneLeft (rescan : Rescan stored fetched) (left : OneLeft stored fetched) :
    Represents (merged stored fetched) ((stored ++ fetched).map LogRecord.log) := by
  obtain ⟨records, all, each⟩ := exists_records (merged stored fetched)
    (P := fun r => r.log ∈ (stored ++ fetched).map LogRecord.log ∧
      (r.transfer.logIndex = none → r.log ∉ fetched.map LogRecord.log ∧
        ∃ c ∈ stored, c.transfer.logIndex = none ∧ c.log = r.log)) fun t mem => by
    obtain ⟨r, rfl, known⟩ := rescan.exists_log left mem
    exact ⟨r, rfl, known⟩
  have known : ∀ r ∈ records, r.log ∈ (stored ++ fetched).map LogRecord.log := fun r mem => (each r mem).1
  -- no log has both a record with its index and one without
  have apart {r r' : LogRecord} {n : Nat} (mem : r ∈ records) (mem' : r' ∈ records) (eq : r.log = r'.log)
      (index : r.transfer.logIndex = some n) : r'.transfer.logIndex ≠ none := by
    intro none
    obtain ⟨unfetched, c, own, unindexed, same⟩ := (each r' mem').2 none
    obtain ⟨c', inside, copy, same'⟩ :=
      rescan.of_indexed (all ▸ List.mem_map_of_mem mem) (known r mem) index
    rcases List.mem_append.1 inside with inside | inside
    · rw [rescan.eq_of_log own inside (same.trans (eq.symm.trans same'.symm)), copy, index] at unindexed
      cases unindexed
    · exact unfetched (eq ▸ same' ▸ List.mem_map_of_mem inside)
  have inj : ∀ r ∈ records, ∀ r' ∈ records, r.log = r'.log → r = r' := by
    intro r mem r' mem' eq
    refine List.inj_on_of_nodup_map (nodup_keys all) mem mem' ?_
    cases index : r.transfer.logIndex with
    | none =>
      cases index' : r'.transfer.logIndex with
      | none => rw [r.key_of_none index, r'.key_of_none index', eq]
      | some n => exact absurd index (apart mem' mem eq.symm index')
    | some n =>
      cases index' : r'.transfer.logIndex with
      | none => exact absurd index' (apart mem mem' eq index)
      | some n' => rw [r.key_of_some index, r'.key_of_some index', eq]
  refine ⟨records, all, List.Nodup.map_on inj (List.Nodup.of_map _ (nodup_keys all)), fun l => ⟨?_, fun mem => ?_⟩⟩
  · intro mem
    obtain ⟨r, member, rfl⟩ := List.mem_map.1 mem
    exact known r member
  · obtain ⟨c, inside, rfl⟩ := List.mem_map.1 mem
    by_cases indexed : ∃ c' ∈ stored ++ fetched, c'.log = c.log ∧ c'.transfer.logIndex ≠ none
    · obtain ⟨c', inside', same, index⟩ := indexed
      obtain ⟨n, index⟩ := Option.ne_none_iff_exists'.1 index
      obtain ⟨r, member, -, eq⟩ := rescan.exists_indexed all known inside' index
      exact List.mem_map.2 ⟨r, member, eq.trans same⟩
    · have unindexed (c') (inside' : c' ∈ stored ++ fetched) (same : c'.log = c.log) :
          c'.transfer.logIndex = none := by
        by_contra index
        exact indexed ⟨c', inside', same, index⟩
      have own := rescan.mem_stored inside (unindexed c inside rfl)
      have unfetched : c.log ∉ fetched.map LogRecord.log := by
        intro again
        obtain ⟨c', mem', same⟩ := List.mem_map.1 again
        exact rescan.indexed c' mem' (unindexed c' (List.mem_append_right _ mem') same)
      obtain ⟨r, member, index, same⟩ := rescan.exists_unindexed all known own (unindexed c inside rfl)
      obtain ⟨unfetched', c', own', index', eq⟩ := (each r member).2 index
      obtain ⟨l, only, -⟩ := left c own (unindexed c inside rfl)
      -- both logs are left under the key
      have single (x) (mem : x ∈ stored) (index : x.transfer.logIndex = none)
          (key : transferKey x.transfer = transferKey c.transfer)
          (out : x.log ∉ fetched.map LogRecord.log) : x.log = l := by
        have member : x.log ∈ ((rivals stored c).filter fun c' => c'.log ∉ fetched.map LogRecord.log).map
            LogRecord.log :=
          List.mem_map_of_mem (List.mem_filter.2 ⟨List.mem_filter.2 ⟨mem, decide_eq_true ⟨index, key⟩⟩,
            decide_eq_true out⟩)
        rw [only] at member
        exact List.mem_singleton.1 member
      have key : transferKey c'.transfer = transferKey c.transfer := by
        rw [← same, c'.key_of_none index', r.key_of_none index, eq]
      refine List.mem_map.2 ⟨r, member, ?_⟩
      rw [← eq, single c' own' index' key (eq ▸ unfetched'), single c own (unindexed c inside rfl) rfl unfetched]

/-- Where the merge describes each log once, one log is left under each key. -/
lemma Rescan.oneLeft_of_represents (rescan : Rescan stored fetched)
    (represents : Represents (merged stored fetched) ((stored ++ fetched).map LogRecord.log)) :
    OneLeft stored fetched := by
  obtain ⟨records, all, distinct, logs⟩ := represents
  have known : ∀ r ∈ records, r.log ∈ (stored ++ fetched).map LogRecord.log :=
    fun r mem => (logs _).1 (List.mem_map_of_mem mem)
  intro c own index
  obtain ⟨r, member, unindexed, same⟩ := rescan.exists_unindexed all known own index
  obtain ⟨last, latest, eq⟩ := (rescan.mem_merged_iff own index same).1 (all ▸ List.mem_map_of_mem member)
  refine ⟨r.log, List.perm_singleton.1 ((List.perm_ext_iff_of_nodup ?_ (List.nodup_singleton _)).2 fun x => ?_),
    last, latest, eq ▸ r.describes.to⟩
  · exact rescan.distinct.sublist ((List.filter_sublist.trans List.filter_sublist).map _)
  · rw [List.mem_singleton]
    constructor
    · intro mem
      obtain ⟨c', filtered, rfl⟩ := List.mem_map.1 mem
      obtain ⟨rival, unfetched⟩ := List.mem_filter.1 filtered
      obtain ⟨own', rival⟩ := List.mem_filter.1 rival
      obtain ⟨index', key⟩ := of_decide_eq_true rival
      have out := of_decide_eq_true unfetched
      obtain ⟨r', member', eq'⟩ := List.mem_map.1
        ((logs c'.log).2 (List.mem_map_of_mem (List.mem_append_left _ own')))
      cases index₁ : r'.transfer.logIndex with
      | some n =>
        obtain ⟨c'', inside, copy, same'⟩ :=
          rescan.of_indexed (all ▸ List.mem_map_of_mem member') (known r' member') index₁
        rcases List.mem_append.1 inside with inside | inside
        · rw [rescan.eq_of_log inside own' (same'.trans eq')] at copy
          rw [← copy, index'] at index₁
          cases index₁
        · exact absurd (List.mem_map.2 ⟨c'', inside, same'.trans eq'⟩) out
      | none =>
        have keys : transferKey r'.transfer = transferKey r.transfer := by
          rw [r'.key_of_none index₁, eq', ← c'.key_of_none index', key, same]
        rw [← eq', List.inj_on_of_nodup_map (nodup_keys all) member' member keys]
    · rintro rfl
      have unindexed' {c' : LogRecord} (mem : c' ∈ stored ++ fetched) (eq : c'.log = r.log) :=
        rescan.unindexed_of_log all known distinct member unindexed mem eq
      have out : r.log ∉ fetched.map LogRecord.log := by
        intro again
        obtain ⟨c', mem', eq⟩ := List.mem_map.1 again
        exact rescan.indexed c' mem' (unindexed' (List.mem_append_right _ mem') eq)
      obtain ⟨c', inside, eq⟩ := List.mem_map.1 (known r member)
      have index' := unindexed' inside eq
      have key : transferKey c'.transfer = transferKey c.transfer := by
        rw [c'.key_of_none index', eq, ← r.key_of_none unindexed, same]
      refine List.mem_map.2 ⟨c', List.mem_filter.2 ⟨List.mem_filter.2 ⟨rescan.mem_stored inside index',
        decide_eq_true ⟨index', key⟩⟩, decide_eq_true (eq ▸ out)⟩, eq⟩

/-- Records that describe the stored logs, each once, are as many, with the same total. -/
lemma total_of_represents {ts : List PayInTransferRecord} (distinct : (stored.map LogRecord.log).Nodup)
    (represents : Represents ts (stored.map LogRecord.log)) :
    ts.length = stored.length ∧
      totalReceivedAtomic ts = totalReceivedAtomic (stored.map LogRecord.transfer) := by
  obtain ⟨records, rfl, nodup, logs⟩ := represents
  have perm := (List.perm_ext_iff_of_nodup nodup distinct).2 logs
  have amounts (rs : List LogRecord) : totalReceivedAtomic (rs.map LogRecord.transfer) =
      ((rs.map LogRecord.log).map ChainLog.amountAtomic).sum := by
    rw [totalReceivedAtomic, List.map_map, List.map_map]
    exact congrArg _ (List.map_congr_left fun r _ => r.describes.amountAtomic)
  constructor
  · simpa using perm.length_eq
  · rw [amounts, amounts, (perm.map _).sum_nat]

end

/-- Each log is described once in the merge, and the total of the stored logs is kept where nothing new is
    fetched, just when, of the logs that are stored without an index under one key, all but one are fetched
    again. -/
theorem merge_exact_iff {stored fetched : List LogRecord} (rescan : Rescan stored fetched) :
    (Represents (merged stored fetched) ((stored ++ fetched).map LogRecord.log) ∧
      ((∀ c ∈ fetched, c.log ∈ stored.map LogRecord.log) →
        (merged stored fetched).length = stored.length ∧
          totalReceivedAtomic (merged stored fetched) =
            totalReceivedAtomic (stored.map LogRecord.transfer))) ↔
      OneLeft stored fetched := by
  constructor
  · rintro ⟨represents, -⟩
    exact rescan.oneLeft_of_represents represents
  · intro left
    obtain ⟨records, all, distinct, logs⟩ := rescan.represents_of_oneLeft left
    refine ⟨⟨records, all, distinct, logs⟩, fun again => ?_⟩
    refine total_of_represents rescan.distinct ⟨records, all, distinct, fun l => ?_⟩
    rw [logs, List.map_append, List.mem_append, or_iff_left_iff_imp]
    intro mem
    obtain ⟨c, inside, rfl⟩ := List.mem_map.1 mem
    exact again c inside

/-! ## A log that is scanned again -/

/-- The logs of a transaction that transfers one token again and again. -/
def sampleLog (n : Nat) : ChainLog := ⟨"0x01", n, "0x0a", "0x0b", 1000000, 7⟩

/-- A record of such a log, with the index or without. -/
def sampleRecord (n : Nat) (index : Option Nat) (known : ∀ m, index = some m → m = n) : LogRecord where
  transfer := ⟨"0x01", index, "0x0a", "0x0b", "1", 1000000, 7⟩
  log := sampleLog n
  describes := ⟨rfl, rfl, rfl, rfl, rfl, known⟩

/-- The record of the log with its index. -/
def indexedRecord (n : Nat) : LogRecord := sampleRecord n (some n) (by simp)

/-- The record of the log without its index. -/
def plainRecord (n : Nat) : LogRecord := sampleRecord n none (by simp)

/-- Different logs of the transaction are stored, with their indices or without, and some are fetched. -/
lemma rescan_sample {stored fetched : List LogRecord} (distinct : (stored.map LogRecord.log).Nodup)
    (indexed : ∀ c ∈ fetched, c.transfer.logIndex ≠ none)
    (logs : ∀ c ∈ stored ++ fetched, c.log = sampleLog c.log.logIndex) : Rescan stored fetched where
  distinct := distinct
  indexed := indexed
  chain := by
    have sample : ∀ l ∈ (stored ++ fetched).map LogRecord.log, l = sampleLog l.logIndex := by
      rw [List.forall_mem_map]
      exact logs
    have plain : ':' ∉ "0x01".toList ∧ ':' ∉ "0x0a".toList := by decide
    refine ⟨fun l mem l' mem' _ same => ?_, fun l mem => ?_⟩
    · rw [sample l mem, sample l' mem', same]
    · rw [sample l mem]
      exact plain

/-- Two logs are stored without their indices, and a third one with it; the first one and the third one are
    fetched again. -/
theorem merge_exact_of_left :
    totalReceivedAtomic (merged [plainRecord 0, plainRecord 1, indexedRecord 2]
      [indexedRecord 0, indexedRecord 2]) = 3000000 := by
  have rescan : Rescan [plainRecord 0, plainRecord 1, indexedRecord 2] [indexedRecord 0, indexedRecord 2] :=
    rescan_sample (by decide) (by decide) (by decide)
  have left : OneLeft [plainRecord 0, plainRecord 1, indexedRecord 2] [indexedRecord 0, indexedRecord 2] := by
    have rivals_eq (n : Nat) : rivals [plainRecord 0, plainRecord 1, indexedRecord 2] (plainRecord n) =
        [plainRecord 0, plainRecord 1] := by
      simp [rivals, plainRecord, indexedRecord, sampleRecord]
    have one (n : Nat) : ∃ l, ((rivals [plainRecord 0, plainRecord 1, indexedRecord 2] (plainRecord n)).filter
        fun c' => c'.log ∉ [indexedRecord 0, indexedRecord 2].map LogRecord.log).map LogRecord.log = [l] ∧
          ∃ last, (rivals [plainRecord 0, plainRecord 1, indexedRecord 2] (plainRecord n)).getLast? = some last ∧
            last.transfer.to = l.to := by
      rw [rivals_eq]
      exact ⟨sampleLog 1, by decide, plainRecord 1, rfl, rfl⟩
    intro c mem index
    simp only [List.mem_cons, List.not_mem_nil, or_false] at mem
    rcases mem with rfl | rfl | rfl
    · exact one 0
    · exact one 1
    · cases index
  exact (((merge_exact_iff rescan).2 left).2 (by decide)).2

/-- A stored log without its index is fetched again, and counted twice. -/
theorem log_counted_twice : ∃ stored fetched : List LogRecord, Rescan stored fetched ∧
    (∀ c ∈ fetched, c.log ∈ stored.map LogRecord.log) ∧
    totalReceivedAtomic (stored.map LogRecord.transfer) = 1000000 ∧
    totalReceivedAtomic (merged stored fetched) = 2000000 :=
  ⟨[plainRecord 0], [indexedRecord 0], rescan_sample (by decide) (by decide) (by decide), by decide, rfl,
    by decide +kernel⟩

end AvaSettle.Payins
