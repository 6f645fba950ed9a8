import Mathlib.Data.List.Perm.Basic
import Mathlib.Data.List.Nodup
import Mathlib.Data.List.DropRight

/-!
# Lists

What lists that are filtered, mapped, split at a separator or related to one another have in common with
their elements. Whether all or some characters of a list have a property is decided along the list, and not
by a search through all characters.
-/

namespace AvaSettle.Data

/-! ## Characters -/

section
variable {p : Char → Prop} [DecidablePred p]

instance (priority := 2000) decidableForallMem {l : List Char} : Decidable (∀ c ∈ l, p c) :=
  List.decidableBAll p l

instance (priority := 2000) decidableExistsMem {l : List Char} : Decidable (∃ c ∈ l, p c) :=
  List.decidableBEx p l

instance (priority := 2000) decidableForallMemOption {o : Option Char} : Decidable (∀ c ∈ o, p c) :=
  Option.decidableForallMem o

end

variable {α β : Type} {a : α} {b : β} {l l' : List α} {ys : List β}

/-! ## Filters -/

section
variable {p : α → Bool}

/-- A filter that only one element passes. -/
lemma filter_eq_singleton (nodup : l.Nodup) (mem : a ∈ l) (only : ∀ b ∈ l, p b = true ↔ b = a) :
    l.filter p = [a] := by
  apply List.perm_singleton.1
  apply (List.perm_ext_iff_of_nodup (nodup.filter _) (List.nodup_singleton a)).2
  intro b
  rw [List.mem_filter, List.mem_singleton]
  constructor
  · intro h
    exact (only b h.1).1 h.2
  · rintro rfl
    exact ⟨mem, (only b mem).2 rfl⟩

/-- The first element that passes a filter, where no other does. -/
lemma head?_filter_of_unique (mem : a ∈ l) (holds : p a = true) (only : ∀ b ∈ l, p b = true → b = a) :
    (l.filter p).head? = some a := by
  rw [List.head?_filter]
  cases found : l.find? p with
  | none =>
    have fails := List.find?_eq_none.1 found a mem
    exact absurd holds fails
  | some b => rw [only b (List.mem_of_find?_eq_some found) (List.find?_some found)]

/-- Filters that agree on corresponding elements. -/
lemma exists_of_filter {R : α → β → Prop} {q : β → Bool} (h : List.Forall₂ R l ys)
    (agree : ∀ a b, R a b → p a = q b) (single : ys.filter q = [b]) : ∃ a, l.filter p = [a] ∧ R a b := by
  have filtered : List.Forall₂ R (l.filter p) (ys.filter q) :=
    List.rel_filter (fun _ _ related => Bool.eq_iff_iff.1 (agree _ _ related)) h
  rw [single] at filtered
  obtain ⟨a, rest, related, none, eq⟩ := List.forall₂_cons_right_iff.1 filtered
  rw [List.forall₂_nil_right_iff.1 none] at eq
  exact ⟨a, eq, related⟩

/-- What corresponds to an element. -/
lemma exists_of_mem {R : α → β → Prop} (h : List.Forall₂ R l ys) (mem : a ∈ l) : ∃ b ∈ ys, R a b := by
  induction h with
  | nil => cases mem
  | cons related _ ih =>
    rcases List.mem_cons.1 mem with rfl | mem
    · exact ⟨_, List.mem_cons_self, related⟩
    · obtain ⟨b, mem', related⟩ := ih mem
      exact ⟨b, List.mem_cons_of_mem _ mem', related⟩

/-- An element that is kept stops what is dropped from the right. -/
lemma rdropWhile_cons (kept : p a = false) : (a :: l).rdropWhile p = a :: l.rdropWhile p := by
  unfold List.rdropWhile
  rw [List.reverse_cons, List.dropWhile_append]
  split
  case isTrue empty =>
    have none : l.reverse.dropWhile p = [] := by simpa using empty
    simp [none, kept]
  case isFalse => simp

end

/-! ## Repetitions -/

/-- What is left without its repetitions is distinct. -/
lemma nodup_eraseDups [BEq α] [LawfulBEq α] (l : List α) : l.eraseDups.Nodup := by
  induction len : l.length using Nat.strong_induction_on generalizing l with
  | _ n ih =>
    cases l with
    | nil => exact .nil
    | cons a l =>
      rw [List.eraseDups_cons, List.nodup_cons]
      have shorter : (l.filter fun other => !other == a).length < n := by
        have le := List.length_filter_le (fun other => !other == a) l
        rw [List.length_cons] at len
        omega
      refine ⟨fun again => ?_, ih _ shorter _ rfl⟩
      simpa using List.mem_eraseDups.1 again

/-! ## Maps -/

/-- A list whose elements agree in what tells them apart. -/
lemma length_le_one_of_nodup_map {f : α → β} (nodup : (l.map f).Nodup) (same : ∀ a ∈ l, f a = b) :
    l.length ≤ 1 := by
  rwa [List.map_congr_left same, List.map_const', List.nodup_replicate] at nodup

/-- What is found for a key is paired with it. -/
lemma mem_of_lookup {l : List (String × α)} {key : String} (found : l.lookup key = some a) : (key, a) ∈ l := by
  obtain ⟨before, after, rfl, _⟩ := List.lookup_eq_some_iff.1 found
  simp

/-- A map that fails on no element. -/
lemma mapM_eq {f : α → Option β} {g : α → β} (read : ∀ x ∈ l, f x = some (g x)) :
    l.mapM f = some (l.map g) := by
  induction l with
  | nil => rfl
  | cons x l ih =>
    obtain ⟨here, later⟩ := List.forall_mem_cons.1 read
    simp [here, ih later]

/-- Elements are read back from what is written for them. -/
lemma mapM_map {f : β → Option α} {g : α → β} (read : ∀ x ∈ l, f (g x) = some x) : (l.map g).mapM f = some l := by
  induction l with
  | nil => rfl
  | cons x l ih =>
    obtain ⟨here, later⟩ := List.forall_mem_cons.1 read
    simp [here, ih later]

/-- A map fails just when it fails on an element. -/
lemma mapM_isSome {f : α → Option β} : (l.mapM f).isSome ↔ ∀ x ∈ l, (f x).isSome := by
  induction l with
  | nil => simp
  | cons x l ih =>
    rw [List.mapM_cons, List.forall_mem_cons, ← ih]
    cases here : f x with
    | none => simp
    | some y => cases rest : l.mapM f <;> simp

/-- What a map that does not fail consists of. -/
lemma mem_of_mapM {f : α → Option β} (read : l.mapM f = some ys) : b ∈ ys ↔ ∃ x ∈ l, f x = some b := by
  induction l generalizing ys with
  | nil =>
    cases read
    simp
  | cons x l ih =>
    rw [List.mapM_cons] at read
    obtain ⟨y, here, read⟩ := Option.bind_eq_some_iff.1 read
    obtain ⟨zs, rest, eq⟩ := Option.bind_eq_some_iff.1 read
    cases eq
    rw [List.mem_cons, ih rest, List.exists_mem_cons_iff, here, Option.some.injEq, eq_comm]

/-! ## Searches -/

section
variable {f : α → Option β}

/-- What is found once there is one more element. -/
lemma findSome?_concat : (l ++ [a]).findSome? f = (l.findSome? f).or (f a) := by
  simp [List.findSome?_append]

/-- What has been found stays found. -/
lemma findSome?_concat_of_some (found : l.findSome? f = some b) : (l ++ [a]).findSome? f = some b := by
  rw [findSome?_concat, found, Option.some_or]

/-- Where nothing has been found, the last element decides. -/
lemma findSome?_concat_of_none (none : l.findSome? f = none) : (l ++ [a]).findSome? f = f a := by
  rw [findSome?_concat, none, Option.none_or]

end

/-! ## Parts -/

/-- Lists with first parts of one length agree just when their parts do. -/
lemma append_iff {e e' : List α} (len : e.length = e'.length) : e ++ l = e' ++ l' ↔ e = e' ∧ l = l' := by
  constructor
  · intro eq
    exact List.append_inj eq len
  · rintro ⟨rfl, rfl⟩
    rfl

/-- A list is split in one way at the last occurrence of an element. -/
lemma eq_of_append_last {xs xs' : List α} (fresh : a ∉ l) (fresh' : a ∉ l')
    (eq : xs ++ a :: l = xs' ++ a :: l') : xs = xs' ∧ l = l' := by
  induction xs generalizing xs' with
  | nil =>
    cases xs' with
    | nil => exact ⟨rfl, List.tail_eq_of_cons_eq eq⟩
    | cons x xs' =>
      obtain ⟨-, rfl⟩ := List.cons.inj eq
      exact absurd (by simp) fresh
  | cons x xs ih =>
    cases xs' with
    | nil =>
      obtain ⟨-, rfl⟩ := List.cons.inj eq
      exact absurd (by simp) fresh'
    | cons x' xs' =>
      obtain ⟨rfl, rest⟩ := List.cons.inj eq
      obtain ⟨rfl, rfl⟩ := ih rest
      exact ⟨rfl, rfl⟩

/-- A list is split in one way at the first occurrence of an element. -/
lemma eq_of_append_first {xs xs' : List α} (fresh : a ∉ xs) (fresh' : a ∉ xs')
    (eq : xs ++ a :: l = xs' ++ a :: l') : xs = xs' ∧ l = l' := by
  have reversed := congrArg List.reverse eq
  simp only [List.reverse_append, List.reverse_cons, List.append_assoc, List.singleton_append] at reversed
  obtain ⟨tails, heads⟩ := eq_of_append_last (by simpa using fresh) (by simpa using fresh') reversed
  exact ⟨List.reverse_injective heads, List.reverse_injective tails⟩

end AvaSettle.Data
