import Mathlib.Data.List.Nodup
import Mathlib.Data.List.Basic

/-!
# Keyed tables

A database table as the list of its rows, in the order of their insertion, with the primary key
distinct by construction. A statement over one row is looked up by its key; an update is guarded by
a condition on the row and returns the row it wrote, as `UPDATE … RETURNING` does.
-/

namespace AvaSettle.Data

/-- A table whose rows have distinct keys. -/
structure Table {ρ κ : Type} (key : ρ → κ) where
  /-- The rows, the oldest first. -/
  rows : List ρ
  /-- The primary key. -/
  nodup : (rows.map key).Nodup

/-- A change of a row that keeps its key. -/
structure Patch {ρ κ : Type} (key : ρ → κ) where
  /-- The changed row. -/
  apply : ρ → ρ
  /-- The key is not among the columns that change. -/
  key_apply : ∀ r, key (apply r) = key r

variable {ρ κ : Type} {key : ρ → κ}

/-- Apply a patch to the rows that satisfy a condition. -/
def Patch.applyIf (p : Patch key) (c : ρ → Bool) (r : ρ) : ρ :=
  if c r then p.apply r else r

namespace Table

/-- The table without rows. -/
def empty : Table key := ⟨[], .nil⟩

instance : Inhabited (Table key) := ⟨empty⟩

/-- The rows that satisfy a condition. -/
def select (t : Table key) (p : ρ → Bool) : List ρ := t.rows.filter p

/-- A row with a fresh key keeps the keys different. -/
private lemma nodup_concat {l : List ρ} {r : ρ} (nodup : (l.map key).Nodup)
    (fresh : key r ∉ l.map key) : ((l ++ [r]).map key).Nodup := by
  rw [List.map_append, List.map_singleton]
  exact List.nodup_append_comm.1 (List.nodup_cons.2 ⟨fresh, nodup⟩)

/-- A patch keeps the key of a row. -/
private lemma key_applyIf (p : Patch key) (c : ρ → Bool) (r : ρ) :
    key (p.applyIf c r) = key r := by
  unfold Patch.applyIf
  split
  case isTrue => exact p.key_apply r
  case isFalse => rfl

/-- A patch keeps the keys of the rows. -/
private lemma map_key_applyIf (p : Patch key) (c : ρ → Bool) (l : List ρ) :
    (l.map (p.applyIf c)).map key = l.map key := by
  rw [List.map_map]
  exact List.map_congr_left fun r _ => key_applyIf p c r

variable [DecidableEq κ]

/-- The row of a key. -/
def find? (t : Table key) (k : κ) : Option ρ := t.rows.find? fun r => decide (key r = k)

/-- Insert a row; `none` where its key is taken. -/
def insert (t : Table key) (r : ρ) : Option (Table key) :=
  if h : key r ∈ t.rows.map key then none
  else some ⟨t.rows ++ [r], nodup_concat t.nodup h⟩

/-- Update the row of a key where the guard holds; the result is the row written. -/
def update (t : Table key) (k : κ) (guard : ρ → Bool) (p : Patch key) :
    Option ρ × Table key :=
  (((t.find? k).filter guard).map p.apply,
    ⟨t.rows.map (p.applyIf fun r => decide (key r = k) && guard r),
      (map_key_applyIf p _ t.rows).symm ▸ t.nodup⟩)

/-- Update every row that satisfies a condition. -/
def updateWhere (t : Table key) (c : ρ → Bool) (p : Patch key) : Table key :=
  ⟨t.rows.map (p.applyIf c), (map_key_applyIf p c t.rows).symm ▸ t.nodup⟩

/-- Delete the row of a key. -/
def erase (t : Table key) (k : κ) : Table key :=
  ⟨t.rows.filter fun r => !decide (key r = k), t.nodup.sublist (List.filter_sublist.map key)⟩

/-! ## Lookups -/

/-- Nothing is found in the empty table. -/
@[simp] lemma find?_empty (k : κ) : (empty : Table key).find? k = none := rfl

/-- A row that is found has the key. -/
lemma key_of_find? {t : Table key} {k r} (h : t.find? k = some r) : key r = k := by
  simpa using List.find?_some h

/-- A row that is found is one of the table. -/
lemma mem_of_find? {t : Table key} {k r} (h : t.find? k = some r) : r ∈ t.rows :=
  List.mem_of_find?_eq_some h

/-- A row is found by its key where keys are different. -/
private lemma find?_of_mem_aux {l : List ρ} (nodup : (l.map key).Nodup) {r : ρ} (mem : r ∈ l) :
    l.find? (fun r' => decide (key r' = key r)) = some r := by
  induction l with
  | nil => cases mem
  | cons a l ih =>
    rw [List.map_cons, List.nodup_cons] at nodup
    cases mem with
    | head => simp
    | tail _ mem =>
      have ne : key a ≠ key r := fun h => nodup.1 (h ▸ List.mem_map_of_mem mem)
      rw [List.find?_cons_of_neg (by simpa using ne)]
      exact ih nodup.2 mem

/-- A row of the table is the row of its key. -/
lemma find?_of_mem {t : Table key} {r} (mem : r ∈ t.rows) : t.find? (key r) = some r :=
  find?_of_mem_aux t.nodup mem

/-- The rows that are found by a key are those that have it. -/
lemma find?_eq_some_iff {t : Table key} {k r} : t.find? k = some r ↔ r ∈ t.rows ∧ key r = k := by
  constructor
  · exact fun h => ⟨mem_of_find? h, key_of_find? h⟩
  · rintro ⟨mem, rfl⟩
    exact find?_of_mem mem

/-- No row is found by a key that no row has. -/
lemma find?_eq_none_iff {t : Table key} {k} : t.find? k = none ↔ k ∉ t.rows.map key := by
  simp [find?]

/-- An inserted row is found, and nothing else changes. -/
lemma find?_insert {t t' : Table key} {r} (h : t.insert r = some t') (k : κ) :
    t'.find? k = if k = key r then some r else t.find? k := by
  unfold insert at h
  split at h
  case isTrue => cases h
  case isFalse fresh =>
    cases h
    split
    case isTrue hk =>
      subst hk
      exact find?_eq_some_iff.2 ⟨by simp, rfl⟩
    case isFalse hk =>
      have ne : ¬ key r = k := fun h => hk h.symm
      simp [find?, List.find?_append, ne]

/-- An inserted row is the last one. -/
lemma rows_insert {t t' : Table key} {r} (h : t.insert r = some t') : t'.rows = t.rows ++ [r] := by
  unfold insert at h
  split at h
  case isTrue => cases h
  case isFalse => cases h; rfl

/-- A row is inserted only where its key is fresh. -/
lemma fresh_of_insert {t t' : Table key} {r} (h : t.insert r = some t') :
    t.find? (key r) = none := by
  unfold insert at h
  split at h
  case isTrue => cases h
  case isFalse fresh => exact find?_eq_none_iff.2 fresh

/-- An update changes the row of its key, where the guard holds, and nothing else. -/
lemma find?_update (t : Table key) (k : κ) (guard : ρ → Bool) (p : Patch key) (k' : κ) :
    (t.update k guard p).2.find? k' =
      (t.find? k').map fun r => if decide (k' = k) && guard r then p.apply r else r := by
  have keys : (fun r => decide (key r = k')) ∘ p.applyIf (fun r => decide (key r = k) && guard r) =
      fun r => decide (key r = k') :=
    funext fun r => by simp [key_applyIf]
  change List.find? _ (List.map _ _) = Option.map _ (List.find? _ _)
  rw [List.find?_map, keys]
  refine Option.map_congr fun r found => ?_
  have hr : key r = k' := by simpa using List.find?_some found
  simp [Patch.applyIf, hr]

/-- An update of many rows changes each of them on its own. -/
lemma find?_updateWhere (t : Table key) (c : ρ → Bool) (p : Patch key) (k : κ) :
    (t.updateWhere c p).find? k = (t.find? k).map (p.applyIf c) := by
  have keys : (fun r => decide (key r = k)) ∘ p.applyIf c = fun r => decide (key r = k) :=
    funext fun r => by simp [key_applyIf]
  change List.find? _ (List.map _ _) = Option.map _ (List.find? _ _)
  rw [List.find?_map, keys]

/-- The row an update returns was there before and satisfied the guard. -/
lemma of_update {t : Table key} {k guard} {p : Patch key} {r}
    (h : (t.update k guard p).1 = some r) :
    ∃ r₀, t.find? k = some r₀ ∧ guard r₀ = true ∧ r = p.apply r₀ := by
  obtain ⟨r₀, hf, rfl⟩ := Option.map_eq_some_iff.1 h
  obtain ⟨hf, hg⟩ := Option.filter_eq_some_iff.1 hf
  exact ⟨r₀, hf, hg, rfl⟩

/-- An update that returns no row changes nothing. -/
lemma find?_update_of_none {t : Table key} {k guard} {p : Patch key}
    (h : (t.update k guard p).1 = none) (k' : κ) :
    (t.update k guard p).2.find? k' = t.find? k' := by
  rw [find?_update]
  cases hr : t.find? k' with
  | none => rfl
  | some r =>
    by_cases hk : k' = k
    · subst hk
      have hg : guard r = false := by
        simpa [update, hr, Option.filter] using h
      simp [hg]
    · simp [hk]

/-- A deleted row is gone, and nothing else changes. -/
lemma find?_erase (t : Table key) (k k' : κ) :
    (t.erase k).find? k' = if k' = k then none else t.find? k' := by
  split
  case isTrue h =>
    subst h
    exact find?_eq_none_iff.2 (by simp [erase])
  case isFalse h =>
    cases hr : t.find? k' with
    | none =>
      rw [find?_eq_none_iff] at hr ⊢
      exact fun mem => hr (List.map_subset key List.filter_sublist.subset mem)
    | some r =>
      obtain ⟨mem, rfl⟩ := find?_eq_some_iff.1 hr
      exact find?_eq_some_iff.2 ⟨by simp [erase, mem, h], rfl⟩

end Table

end AvaSettle.Data
