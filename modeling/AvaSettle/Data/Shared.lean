import AvaSettle.Data.Table

/-!
# Shared tables

A table whose rows belong to owners. What one owner does to it is told from the state in which it
begins: the rows of all others stay as they are, and a key that is not another's then is the owner's
to write. Where no row is deleted, a key stays with the owner of its row.
-/

namespace AvaSettle.Data.Table

variable {ρ κ ω : Type} {key : ρ → κ} [DecidableEq κ] {owner : ρ → ω} {o : ω}
  {t t' t₀ t₁ t₂ t₃ : Table key} {k : κ} {r : ρ}

/-- The rows of all other owners are the same. -/
def Tended (owner : ρ → ω) (o : ω) (t t' : Table key) : Prop :=
  ∀ k r, owner r ≠ o → (t'.find? k = some r ↔ t.find? k = some r)

/-- No other owner has a row under the key. -/
def Free (owner : ρ → ω) (o : ω) (t : Table key) (k : κ) : Prop :=
  ∀ r, t.find? k = some r → owner r = o

/-- Nothing is done to the rows of others by doing nothing. -/
lemma Tended.refl : Tended owner o t t := fun _ _ _ => Iff.rfl

/-- Tending the rows of one owner twice is tending them. -/
lemma Tended.trans (h₁ : Tended owner o t₁ t₂) (h₂ : Tended owner o t₂ t₃) : Tended owner o t₁ t₃ :=
  fun k r ne => (h₂ k r ne).trans (h₁ k r ne)

/-- A key that was free has no row of another owner. -/
lemma Tended.free (tended : Tended owner o t₀ t) (free : Free owner o t₀ k) : Free owner o t k := by
  intro r found
  by_contra ne
  exact ne (free r ((tended k r ne).1 found))

/-- The key of a row of the owner was free. -/
lemma Tended.free_of_found (tended : Tended owner o t₀ t) (found : t.find? k = some r)
    (own : owner r = o) : Free owner o t₀ k := by
  intro r₀ before
  by_contra ne
  have still := (tended k r₀ ne).2 before
  obtain rfl := Option.some.inj (found.symm.trans still)
  exact ne own

/-- An insertion for the owner tends the owner's rows. -/
lemma tended_insert (inserted : t.insert r = some t') (own : owner r = o) :
    Tended owner o t t' := by
  intro k r' ne
  rw [find?_insert inserted]
  split
  case isTrue eq =>
    subst eq
    have absent := fresh_of_insert inserted
    constructor
    · intro same
      obtain rfl := Option.some.inj same
      exact absurd own ne
    · intro found
      cases absent.symm.trans found
  case isFalse => rfl

/-- An update of a row that no other owns tends the owner's rows. -/
lemma tended_update {guard : ρ → Bool} {p : Patch key} (free : Free owner o t k)
    (keeps : ∀ r, owner (p.apply r) = owner r) : Tended owner o t (t.update k guard p).2 := by
  intro k' r' ne
  rw [find?_update]
  cases found : t.find? k' with
  | none => simp
  | some r =>
    rw [Option.map_some]
    split
    case isFalse => rfl
    case isTrue here =>
      obtain ⟨rfl, -⟩ : k' = k ∧ guard r = true := by simpa using here
      have own := free r found
      constructor
      · intro same
        obtain rfl := Option.some.inj same
        exact absurd ((keeps r).trans own) ne
      · intro same
        obtain rfl := Option.some.inj same
        exact absurd own ne

/-- Erasing a row that no other owns tends the owner's rows. -/
lemma tended_erase (free : Free owner o t k) : Tended owner o t (t.erase k) := by
  intro k' r ne
  rw [find?_erase]
  split
  case isFalse => rfl
  case isTrue eq =>
    subst eq
    exact iff_of_false (by simp) fun found => ne (free r found)

/-- The row that an update of a free key returns is the owner's. -/
lemma owner_of_update {guard : ρ → Bool} {p : Patch key} (free : Free owner o t k)
    (keeps : ∀ r, owner (p.apply r) = owner r) (written : (t.update k guard p).1 = some r) :
    owner r = o := by
  obtain ⟨r₀, found, -, rfl⟩ := of_update written
  exact (keeps r₀).trans (free r₀ found)

/-! ## Rows that stay -/

/-- Every row is still there, with its owner. -/
def Persists (owner : ρ → ω) (t t' : Table key) : Prop :=
  ∀ k r, t.find? k = some r → ∃ r', t'.find? k = some r' ∧ owner r' = owner r

/-- Rows persist when nothing happens. -/
lemma Persists.refl : Persists owner t t := fun _ r found => ⟨r, found, rfl⟩

/-- Rows that persist twice persist. -/
lemma Persists.trans (h₁ : Persists owner t₁ t₂) (h₂ : Persists owner t₂ t₃) :
    Persists owner t₁ t₃ := by
  intro k r found
  obtain ⟨r', found, same⟩ := h₁ k r found
  obtain ⟨r'', found, same'⟩ := h₂ k r' found
  exact ⟨r'', found, same'.trans same⟩

/-- Rows persist when another is inserted. -/
lemma persists_insert (inserted : t.insert r = some t') : Persists owner t t' := by
  intro k r' found
  refine ⟨r', ?_, rfl⟩
  rw [find?_insert inserted, if_neg]
  · exact found
  · rintro rfl
    cases (fresh_of_insert inserted).symm.trans found

/-- Rows persist when one is updated and keeps its owner. -/
lemma persists_update {guard : ρ → Bool} {p : Patch key} (keeps : ∀ r, owner (p.apply r) = owner r) :
    Persists owner t (t.update k guard p).2 := by
  intro k' r found
  rw [find?_update, found, Option.map_some]
  refine ⟨_, rfl, ?_⟩
  split
  case isTrue => exact keeps r
  case isFalse => rfl

end AvaSettle.Data.Table
