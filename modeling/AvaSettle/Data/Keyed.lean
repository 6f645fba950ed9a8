import Mathlib.Data.List.Induction
import Mathlib.Data.List.Nodup
import Mathlib.Data.List.Perm.Basic

/-!
# Keyed merges

What a map from keys to values holds after a list of values has been put into it one by one, in the
order in which its keys were first seen. A value with a key that is there takes the place of the old
one, as `Map.set` does.
-/

namespace AvaSettle.Data

variable {α κ : Type} [DecidableEq κ] {key : α → κ} {a b : α} {l xs ys : List α}

/-- Put a value into the map. -/
def put (key : α → κ) (l : List α) (a : α) : List α :=
  if key a ∈ l.map key then l.map fun b => if key b = key a then a else b else l ++ [a]

/-- The values of the map, after all of them have been put into it. -/
def byKey (key : α → κ) (l : List α) : List α :=
  l.foldl (put key) []

/-- The keys after an element is put are those before, and its own. -/
lemma map_key_put : (put key l a).map key = if key a ∈ l.map key then l.map key
    else l.map key ++ [key a] := by
  unfold put
  split
  case isTrue =>
    rw [List.map_map]
    refine List.map_congr_left fun b _ => ?_
    simp only [Function.comp_apply]
    split
    case isTrue eq => exact eq.symm
    case isFalse => rfl
  case isFalse => simp

/-- Putting an element keeps the keys different. -/
lemma nodup_put (nodup : (l.map key).Nodup) : ((put key l a).map key).Nodup := by
  rw [map_key_put]
  split
  case isTrue => exact nodup
  case isFalse fresh => exact List.nodup_append_comm.1 (List.nodup_cons.2 ⟨fresh, nodup⟩)

/-- An element that is put is there. -/
lemma mem_put_self : a ∈ put key l a := by
  unfold put
  split
  case isTrue taken =>
    obtain ⟨b, hb, eq⟩ := List.mem_map.1 taken
    exact List.mem_map.2 ⟨b, hb, if_pos eq⟩
  case isFalse => simp

/-- A value stays, unless one with its key takes its place. -/
lemma mem_put_of_mem (mem : b ∈ l) (same : key b = key a → b = a) : b ∈ put key l a := by
  by_cases eq : key b = key a
  · exact same eq ▸ mem_put_self
  · unfold put
    split
    case isTrue => exact List.mem_map.2 ⟨b, mem, if_neg eq⟩
    case isFalse => exact List.mem_append_left _ mem

/-- What is in the map has been put into it, or was there before with another key. -/
lemma mem_put : b ∈ put key l a ↔ b = a ∨ b ∈ l ∧ key b ≠ key a := by
  constructor
  · intro mem
    unfold put at mem
    split at mem
    case isTrue =>
      obtain ⟨c, hc, rfl⟩ := List.mem_map.1 mem
      split
      case isTrue => exact .inl rfl
      case isFalse ne => exact .inr ⟨hc, ne⟩
    case isFalse fresh =>
      rcases List.mem_append.1 mem with mem | mem
      · exact .inr ⟨mem, fun eq => fresh (eq ▸ List.mem_map_of_mem mem)⟩
      · exact .inl (List.mem_singleton.1 mem)
  · rintro (rfl | ⟨mem, ne⟩)
    · exact mem_put_self
    · exact mem_put_of_mem mem fun eq => absurd eq ne

/-- What is there after an element is put was there before, or is that element. -/
lemma mem_of_mem_put (mem : b ∈ put key l a) : b ∈ l ∨ b = a :=
  (mem_put.1 mem).symm.imp_left And.left

/-- Putting elements one by one keeps the keys different. -/
private lemma nodup_foldl (nodup : (l.map key).Nodup) :
    ((xs.foldl (put key) l).map key).Nodup := by
  induction xs generalizing l with
  | nil => exact nodup
  | cons x xs ih => exact ih (nodup_put nodup)

/-- The keys of the map are distinct. -/
theorem nodup_byKey : ((byKey key l).map key).Nodup :=
  nodup_foldl .nil

/-- What is there after elements are put was there before, or is one of them. -/
private lemma mem_of_mem_foldl (mem : b ∈ xs.foldl (put key) l) : b ∈ l ∨ b ∈ xs := by
  induction xs generalizing l with
  | nil => exact .inl mem
  | cons x xs ih =>
    rcases ih mem with mem | mem
    · rcases mem_of_mem_put mem with mem | rfl
      · exact .inl mem
      · exact .inr List.mem_cons_self
    · exact .inr (List.mem_cons_of_mem _ mem)

/-- Nothing is lost where keys are not shared. -/
private lemma mem_foldl (inj : ∀ a ∈ l ++ xs, ∀ b ∈ l ++ xs, key a = key b → a = b)
    (mem : b ∈ l ∨ b ∈ xs) : b ∈ xs.foldl (put key) l := by
  induction xs generalizing l with
  | nil => simpa using mem
  | cons x xs ih =>
    have sub : ∀ c ∈ put key l x ++ xs, c ∈ l ++ x :: xs := fun c hc => by
      rcases List.mem_append.1 hc with hc | hc
      · rcases mem_of_mem_put hc with hc | rfl <;> simp [*]
      · simp [hc]
    refine ih (fun a ha b hb => inj a (sub a ha) b (sub b hb)) ?_
    rcases mem with mem | mem
    · exact .inl (mem_put_of_mem mem (inj b (by simp [mem]) x (by simp)))
    · rcases List.mem_cons.1 mem with rfl | mem
      · exact .inl mem_put_self
      · exact .inr mem

/-- Elements that are put replace those with their keys. -/
private lemma mem_foldl_iff (inj : ∀ a ∈ xs, ∀ b ∈ xs, key a = key b → a = b) :
    b ∈ xs.foldl (put key) l ↔ b ∈ xs ∨ b ∈ l ∧ ∀ x ∈ xs, key x ≠ key b := by
  induction xs generalizing l with
  | nil => simp
  | cons x xs ih =>
    rw [List.foldl_cons, ih fun a ha b hb => inj a (List.mem_cons_of_mem _ ha) b
      (List.mem_cons_of_mem _ hb), mem_put, List.mem_cons, List.forall_mem_cons]
    constructor
    · rintro (mem | ⟨rfl | ⟨mem, ne⟩, apart⟩)
      · exact .inl (.inr mem)
      · exact .inl (.inl rfl)
      · exact .inr ⟨mem, ne.symm, apart⟩
    · rintro ((rfl | mem) | ⟨mem, ne, apart⟩)
      · by_cases again : b ∈ xs
        · exact .inl again
        · refine .inr ⟨.inl rfl, fun y hy eq => again ?_⟩
          exact inj b List.mem_cons_self y (List.mem_cons_of_mem _ hy) eq.symm ▸ hy
      · exact .inl mem
      · exact .inr ⟨.inr ⟨mem, ne.symm⟩, apart⟩

/-- The map holds values that have been put into it. -/
theorem mem_of_mem_byKey (mem : b ∈ byKey key l) : b ∈ l :=
  (mem_of_mem_foldl mem).resolve_left List.not_mem_nil

/-- Where values with one key are equal, the map holds all that have been put into it. -/
theorem mem_byKey (inj : ∀ a ∈ l, ∀ b ∈ l, key a = key b → a = b) : b ∈ byKey key l ↔ b ∈ l :=
  ⟨mem_of_mem_byKey, fun mem => mem_foldl (by simpa using inj) (.inr mem)⟩

/-- What is put into the map last is in it. -/
theorem mem_byKey_append_right (inj : ∀ a ∈ ys, ∀ b ∈ ys, key a = key b → a = b) (mem : b ∈ ys) :
    b ∈ byKey key (xs ++ ys) := by
  rw [byKey, List.foldl_append, mem_foldl_iff inj]
  exact .inl mem

/-- Values that are put into the map later take the place of those with their keys. -/
theorem mem_byKey_append (nodup : (xs.map key).Nodup)
    (inj : ∀ a ∈ ys, ∀ b ∈ ys, key a = key b → a = b) :
    b ∈ byKey key (xs ++ ys) ↔ b ∈ ys ∨ b ∈ xs ∧ ∀ y ∈ ys, key y ≠ key b := by
  rw [byKey, List.foldl_append, mem_foldl_iff inj, ← byKey,
    mem_byKey fun a ha b hb eq => List.inj_on_of_nodup_map nodup ha hb eq]

/-- The map holds the last of the values with each key. -/
theorem mem_byKey_iff_getLast? :
    b ∈ byKey key l ↔ (l.filter fun a => key a = key b).getLast? = some b := by
  induction l using List.reverseRecOn with
  | nil => simp [byKey]
  | append_singleton l x ih =>
    have step : byKey key (l ++ [x]) = put key (byKey key l) x := by
      rw [byKey, List.foldl_append]
      rfl
    rw [step, mem_put, ih, List.filter_append]
    by_cases same : key x = key b
    · simp [same, eq_comm]
    · have other : b ≠ x := fun eq => same (congrArg key eq.symm)
      simp [same, other, Ne.symm same]

end AvaSettle.Data
