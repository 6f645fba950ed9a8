import AvaSettle.ChainFlow.Service
import AvaSettle.Data.Joined
import AvaSettle.Payouts.Runs

/-!
# What a batch reference identifies

A batch is referred to by the hash of its external ids, sorted and joined by `|`. The API of payouts
refuses an external id with a `|` in it, and the compatibility wrapper does not. So a payout of the
wrapper can have the id that the join of two others is, and its batch has their reference.
-/

namespace AvaSettle.ChainFlow.BatchRef
open Async Payouts Blockchain
open Data (sortStrings pieces)

/-! ## External ids -/

/-- What the validation of `CreatePayoutDto` lets pass: `^[A-Za-z0-9._:-]+$`, at most 120 characters. -/
def isExternalId (id : String) : Bool :=
  decide (id ≠ "" ∧ id.length ≤ 120) &&
    id.toList.all fun c => c.isAlphanum || decide (c ∈ ['.', '_', ':', '-'])

/-- The separator of the join. -/
def separator : Char := '|'

/-- What is hashed. -/
def joined (ids : List String) : String := "|".intercalate (sortStrings ids)

/-- The pieces of the sorted ids, each cut at the separator. -/
def cut (ids : List String) : List (List Char) := pieces separator ((sortStrings ids).map String.toList)

/-- The lists are different batches with the same pieces. -/
def Mistakable (ids₁ ids₂ : List String) : Prop := cut ids₁ = cut ids₂ ∧ ¬ids₁.Perm ids₂

/-- The library tells the two texts apart: their bytes differ where they do, and the hashes of these. -/
structure Tells (d : Deployment) (s₁ s₂ : String) : Prop where
  bytes : d.stringToBytes s₁ = d.stringToBytes s₂ → s₁ = s₂
  hashes : d.keccak256 (d.stringToBytes s₁) = d.keccak256 (d.stringToBytes s₂) →
    d.stringToBytes s₁ = d.stringToBytes s₂

section
variable {d : Deployment} {ids₁ ids₂ : List String} {id : String}

/-- An external id that passes the validation has no separator in it. -/
lemma separator_not_mem (valid : isExternalId id = true) : separator ∉ id.toList := by
  intro mem
  have all := List.all_eq_true.1 (Bool.and_eq_true_iff.1 valid).2 separator mem
  revert all
  decide

/-- Sorting a list that has strings leaves some. -/
lemma sortStrings_ne_nil (ne : ids₁ ≠ []) : (sortStrings ids₁).map String.toList ≠ [] := by
  obtain ⟨id, mem⟩ := List.exists_mem_of_ne_nil _ ne
  exact List.ne_nil_of_mem (List.mem_map_of_mem (Data.mem_sortStrings.2 mem))

/-- The joins of two batches are equal just when their pieces are. -/
lemma joined_eq_iff (ne₁ : ids₁ ≠ []) (ne₂ : ids₂ ≠ []) :
    joined ids₁ = joined ids₂ ↔ cut ids₁ = cut ids₂ := by
  rw [← String.toList_inj, joined, joined, String.toList_intercalate, String.toList_intercalate]
  exact Data.intercalate_eq_iff (sortStrings_ne_nil ne₁) (sortStrings_ne_nil ne₂)

/-- The references of two batches are equal just when their joins are. -/
lemma batchRef_eq_iff (tells : Tells d (joined ids₁) (joined ids₂)) :
    batchRefFromExternalIds d ids₁ = batchRefFromExternalIds d ids₂ ↔ joined ids₁ = joined ids₂ := by
  constructor
  · intro eq
    exact tells.bytes (tells.hashes eq)
  · intro eq
    exact congrArg (fun s => d.keccak256 (d.stringToBytes s)) eq

/-- The order of a batch does not matter. -/
lemma cut_of_perm (perm : ids₁.Perm ids₂) : cut ids₁ = cut ids₂ := by
  rw [cut, cut, Data.sortStrings_eq_iff.2 perm]

/-- Where no id has the separator in it, the pieces are the ids. -/
lemma perm_of_cut (free : ∀ id ∈ ids₁ ++ ids₂, separator ∉ id.toList) (eq : cut ids₁ = cut ids₂) :
    ids₁.Perm ids₂ := by
  have whole {ids : List String} (sub : ∀ id ∈ ids, id ∈ ids₁ ++ ids₂) :
      cut ids = (sortStrings ids).map String.toList := by
    refine Data.pieces_of_not_mem fun l mem => ?_
    obtain ⟨id, sorted, rfl⟩ := List.mem_map.1 mem
    exact free id (sub id (Data.mem_sortStrings.1 sorted))
  rw [whole fun _ => List.mem_append_left _, whole fun _ => List.mem_append_right _] at eq
  exact Data.sortStrings_eq_iff.1 (List.map_injective_iff.2 (fun _ _ => String.toList_inj.1) eq)

/-- The references of two batches tell whether they are the same just when the batches cannot be
    mistaken for each other, and they cannot where no id has the separator in it; the ids that the
    validation lets pass have none. -/
theorem batchRef_identifies_iff (ne₁ : ids₁ ≠ []) (ne₂ : ids₂ ≠ [])
    (tells : Tells d (joined ids₁) (joined ids₂)) :
    ((batchRefFromExternalIds d ids₁ = batchRefFromExternalIds d ids₂ ↔ ids₁.Perm ids₂) ↔
        ¬Mistakable ids₁ ids₂) ∧
      ((∀ id ∈ ids₁ ++ ids₂, separator ∉ id.toList) → ¬Mistakable ids₁ ids₂) ∧
      ((∀ id ∈ ids₁ ++ ids₂, isExternalId id = true) → ¬Mistakable ids₁ ids₂) := by
  have apart (free : ∀ id ∈ ids₁ ++ ids₂, separator ∉ id.toList) : ¬Mistakable ids₁ ids₂ :=
    fun mistakable => mistakable.2 (perm_of_cut free mistakable.1)
  refine ⟨?_, apart, fun valid => apart fun id mem => separator_not_mem (valid id mem)⟩
  rw [batchRef_eq_iff tells, joined_eq_iff ne₁ ne₂, Mistakable, not_and, not_not]
  exact ⟨fun iff => iff.1, fun only => ⟨only, cut_of_perm⟩⟩

end

/-! ## Concrete batches -/

/-- A deployment whose library is that of the concrete runs on the texts of two batches. -/
def batchDeployment : Deployment :=
  { asyncDeployment with
    stringToBytes := fun s =>
      if s = "inv-1|inv-2" then "0x696e762d317c696e762d32"
      else if s = "inv-1|inv-3" then "0x696e762d317c696e762d33"
      else "0x"
    keccak256 := fun bytes =>
      if bytes = "0x696e762d317c696e762d32" then
        "0x224cebf31f033309bf9f0057cfa117aef98e11b15d9156bd42e4bf408e91f783"
      else if bytes = "0x696e762d317c696e762d33" then
        "0x3daca32dd105121cc91e5f9a512eb5747d7bacf3c64ee699a34a4d80d5619cda"
      else "0xc5d2460186f7233c927e7db2dcc703c0e500b653ca82273b7bfad8045d85a470" }

/-- A batch of two payouts, the batch in the other order, and another batch of one of them. -/
theorem batchRef_identifies_pairs :
    ((batchRefFromExternalIds batchDeployment ["inv-2", "inv-1"] =
        batchRefFromExternalIds batchDeployment ["inv-1", "inv-2"] ↔
      ["inv-2", "inv-1"].Perm ["inv-1", "inv-2"]) ↔ ¬Mistakable ["inv-2", "inv-1"] ["inv-1", "inv-2"]) ∧
    ((batchRefFromExternalIds batchDeployment ["inv-2", "inv-1"] =
        batchRefFromExternalIds batchDeployment ["inv-1", "inv-3"] ↔
      ["inv-2", "inv-1"].Perm ["inv-1", "inv-3"]) ↔ ¬Mistakable ["inv-2", "inv-1"] ["inv-1", "inv-3"]) :=
  ⟨(batchRef_identifies_iff (by simp) (by simp) ⟨by decide, by decide⟩).1,
    (batchRef_identifies_iff (by simp) (by simp) ⟨by decide, by decide⟩).1⟩

/-- The endpoints that create payouts. -/
inductive Creation (d : Deployment) : Method Unit → Prop where
  | prepararRetiro {dto context} : Creation d (prepararRetiro d dto context).discard
  | createPayout {dto context} (valid : isExternalId dto.externalId = true) :
    Creation d (createPayout d dto context).discard

/-- The creations of the concrete runs. -/
abbrev creating : Machine Api World := machine Eq (Creation asyncDeployment) fun _ _ _ => True

/-- A payout of one USDC with the external id. -/
def plainDto (externalId : String) : CreatePayoutDto :=
  { sampleDto with externalId := externalId, executeImmediately := false }

/-- The withdrawal whose transaction is `a|b`. -/
def joinedDto : ChainFlowRetiroDto where
  tcTransaccionExterna := some "a|b"
  tnMonto := .str "1"
  tcCuentaDestino := some sampleAddress

/-- The schedule on which the payouts `a` and `b` and the withdrawal `a|b` are created. -/
def creations : List (Choice Api World) :=
  .enter (createPayout asyncDeployment (plainDto "a") .sample).discard :: (Choice.steps 0 5 ++
    .env (fun w => { w with nextUuid := "1" }) ::
    .enter (createPayout asyncDeployment (plainDto "b") .sample).discard :: (Choice.steps 1 5 ++
      .env (fun w => { w with nextUuid := "2" }) ::
      .enter (prepararRetiro asyncDeployment joinedDto .sample).discard :: Choice.steps 2 5))

/-- Payouts of one client: a batch of the payouts `a` and `b` has the reference of the batch of the
    withdrawal `a|b`. -/
theorem batchRef_mistaken : ∃ s, creating.Reachable .sample s ∧
    s.world.payouts.rows.map (fun r => (r.clientId, r.externalId)) =
      [(some "client", "a"), (some "client", "b"), (some "client", "a|b")] ∧
    ∀ d : Deployment, batchRefFromExternalIds d ["a", "b"] = batchRefFromExternalIds d ["a|b"] ∧
      ¬["a", "b"].Perm ["a|b"] := by
  obtain ⟨s, ran, rows⟩ : ∃ s, creating.run Machine.always creations ⟨.sample, []⟩ = some s ∧
      s.world.payouts.rows.map (fun r => (r.clientId, r.externalId)) =
        [(some "client", "a"), (some "client", "b"), (some "client", "a|b")] := ⟨_, rfl, rfl⟩
  refine ⟨s, Machine.steps_of_run (fun _ _ _ _ => trivial) ?_ ran, rows, fun d => ⟨?_, by decide⟩⟩
  · have later (id : Uuid) (w : World) : creating.env w { w with nextUuid := id } :=
      ⟨rfl, rfl, rfl, rfl, rfl, rfl, rfl, rfl, rfl⟩
    simp only [creations, List.forall_mem_cons, List.forall_mem_append]
    exact ⟨.createPayout rfl, Choice.legal_steps, later _, .createPayout rfl, Choice.legal_steps, later _,
      .prepararRetiro, Choice.legal_steps⟩
  · have same : joined ["a", "b"] = joined ["a|b"] := by decide
    exact congrArg (fun s => d.keccak256 (d.stringToBytes s)) same

end AvaSettle.ChainFlow.BatchRef
