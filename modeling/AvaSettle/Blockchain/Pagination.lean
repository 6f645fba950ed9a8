import AvaSettle.Async.Sequential
import AvaSettle.Blockchain.Service
import AvaSettle.Data.Chunks

/-!
# Pagination

`paginateLogs` fetches the chunks of its range one after another, so that what it returns is the logs of
the blocks of the range, in order and each once.
-/

namespace AvaSettle.Blockchain
open Async
open Data (chunks numbers)

section
variable {T : Type} {fetchChunk : Nat → Nat → Method (List T)} {size : ℕ+} {toBlock fromBlock fuel : Nat}
  {results : List T}

/-- The ranges are fetched one after another. -/
def fetchAll (fetchChunk : Nat → Nat → Method (List T)) : List (Nat × Nat) → List T → Method (List T)
  | [], results => return results
  | range :: ranges, results => do
    let chunk ← fetchChunk range.1 range.2
    fetchAll fetchChunk ranges (results ++ chunk)

/-- A chunk ends at its size or at the last block. -/
lemma chunkEnd_eq_min : chunkEnd size toBlock fromBlock = min (fromBlock + size - 1) toBlock := by
  unfold chunkEnd
  split <;> omega

/-- With a round of fuel for each block that is left the loop fetches all chunks. -/
lemma paginateFrom_eq_fetchAll (enough : toBlock + 1 - fromBlock ≤ fuel) :
    paginateFrom fetchChunk size toBlock fuel fromBlock results =
      fetchAll fetchChunk (chunks size toBlock fromBlock) results := by
  induction fuel generalizing fromBlock results with
  | zero =>
    rw [Data.chunks_of_lt (by omega)]
    rfl
  | succ fuel ih =>
    have pos := size.pos
    rw [paginateFrom]
    by_cases more : fromBlock ≤ toBlock
    · rw [if_pos more, Data.chunks_of_le more, fetchAll, chunkEnd_eq_min]
      congr 1
      funext chunk
      exact ih (by omega)
    · rw [if_neg more, Data.chunks_of_lt (Nat.lt_of_not_le more)]
      rfl

variable {W : Type} {M : Machine Api W} {rely : Hist Api → W → W → Prop} {logs : Nat → List T}

/-- A chunk is answered with the logs of its blocks. -/
def Answers (M : Machine Api W) (rely : Hist Api → W → W → Prop) (logs : Nat → List T)
    (fetchChunk : Nat → Nat → Method (List T)) (range : Nat × Nat) : Prop :=
  ∀ w h r w' h', M.Runs rely (fetchChunk range.1 range.2) w h r w' h' →
    r = .ok ((numbers range).flatMap logs)

/-- Fetching ranges whose blocks are answered returns the logs of all blocks. -/
lemma fetchAll_answers {ranges : List (Nat × Nat)} {w w' : W} {h h' : Hist Api} {r : Except Exception (List T)}
    (answers : ∀ range ∈ ranges, Answers M rely logs fetchChunk range)
    (run : M.Runs rely (fetchAll fetchChunk ranges results) w h r w' h') :
    r = .ok (results ++ (ranges.flatMap numbers).flatMap logs) := by
  induction ranges generalizing results w h with
  | nil =>
    cases run
    simp
  | cons range ranges ih =>
    obtain ⟨here, later⟩ := List.forall_mem_cons.1 answers
    rcases Machine.runs_bind run with ⟨e, rfl, failed⟩ | ⟨chunk, w₁, h₁, first, second⟩
    · cases here _ _ _ _ _ failed
    · cases here _ _ _ _ _ first
      rw [ih later second]
      simp [List.flatMap_append]

end

/-- The loop fetches consecutive ranges that are not empty, no longer than the chunk size and together just
    the given one, however much fuel is left. Where each range is answered with the logs of its blocks the
    result is the logs of all blocks, in order and each once. -/
theorem paginateLogs_covers {T : Type} (fetchChunk : Nat → Nat → Method (List T)) (size : ℕ+)
    {fromBlock toBlock : Nat} (le : fromBlock ≤ toBlock) :
    ∃ ranges : List (Nat × Nat),
      (∀ fuel, toBlock + 1 - fromBlock ≤ fuel →
        paginateFrom fetchChunk size toBlock fuel fromBlock [] = fetchAll fetchChunk ranges []) ∧
      paginateLogs fromBlock toBlock fetchChunk size = fetchAll fetchChunk ranges [] ∧
      (∀ r ∈ ranges, r.1 ≤ r.2 ∧ r.2 + 1 - r.1 ≤ size) ∧
      (ranges.IsChain fun r s => s.1 = r.2 + 1) ∧ (ranges.Pairwise fun r s => r.2 < s.1) ∧
      ranges.flatMap numbers = List.range' fromBlock (toBlock + 1 - fromBlock) ∧
      ∀ {W : Type} (M : Machine Api W) (rely : Hist Api → W → W → Prop) (logs : Nat → List T),
        (∀ r ∈ ranges, Answers M rely logs fetchChunk r) →
        ∀ w h r w' h', M.Runs rely (paginateLogs fromBlock toBlock fetchChunk size) w h r w' h' →
          r = .ok ((List.range' fromBlock (toBlock + 1 - fromBlock)).flatMap logs) := by
  have fetched : paginateLogs fromBlock toBlock fetchChunk size =
      fetchAll fetchChunk (chunks size toBlock fromBlock) [] := by
    rw [paginateLogs, if_neg (Nat.not_lt.2 le)]
    exact paginateFrom_eq_fetchAll (Nat.le_refl _)
  refine ⟨chunks size toBlock fromBlock, fun fuel enough => paginateFrom_eq_fetchAll enough, fetched,
    fun r mem => ?_, Data.isChain_chunks, Data.pairwise_chunks, Data.flatMap_numbers_chunks, ?_⟩
  · obtain ⟨-, ordered, -, short⟩ := Data.bounds_of_mem_chunks mem
    exact ⟨ordered, short⟩
  · intro W M rely logs answers w h r w' h' run
    rw [fetched] at run
    have all := fetchAll_answers answers run
    rwa [Data.flatMap_numbers_chunks, List.nil_append] at all

/-- Nine blocks with one log each, in chunks of four. -/
theorem paginateLogs_covers_nine : ∃ ranges : List (Nat × Nat),
    ranges.flatMap numbers = List.range' 1 9 ∧
    ∀ r w' h', services.Runs (fun _ _ _ => True)
      (paginateLogs 1 9 (fun f t => (return numbers (f, t) : Method (List Nat))) 4) .sample [] r w' h' →
        r = .ok (List.range' 1 9) := by
  obtain ⟨ranges, -, -, -, -, -, all, returns⟩ :=
    paginateLogs_covers (fun f t => (return numbers (f, t) : Method (List Nat))) 4
      (show 1 ≤ 9 by decide)
  refine ⟨ranges, all, fun r w' h' run => ?_⟩
  have result := returns _ _ (fun n => [n]) (fun range _ w h r w' h' run => ?_) _ _ _ _ _ run
  · rwa [List.flatMap_singleton'] at result
  · cases run
    rw [List.flatMap_singleton']

end AvaSettle.Blockchain
