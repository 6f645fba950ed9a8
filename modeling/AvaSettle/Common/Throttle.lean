import Mathlib.Algebra.Order.Ring.Nat
import Mathlib.Data.List.Basic
import Mathlib.Tactic.SplitIfs

/-!
# ThrottleMiddleware

Requests are counted in windows of a second, one for each bucket: a window begins with the first request
after the last one, and admits a fixed number of requests. Entries whose window is over are pruned from time
to time, which changes no decision.
-/

namespace AvaSettle.Common

/-! ## The middleware -/

/-- The value of a header that may be repeated. -/
inductive HeaderValue : Type where
  | one (s : String)
  | many (l : List String)

/-- What the middleware reads of a request. -/
structure Request where
  apiKey : Option HeaderValue
  authorization : Option String
  ip : Option String

/-- The library functions that the middleware calls. -/
structure Library where
  trim : String → String
  sha256 : String → String

/-- `WindowEntry`. -/
structure WindowEntry where
  count : Nat
  resetAt : Nat
  deriving DecidableEq

/-- The entries of the map. -/
abbrev Windows := String → Option WindowEntry

/-- What becomes of a request: it goes on, or is answered with a 429. -/
inductive Answer : Type where
  | next
  | tooManyRequests (retryAfterMs : Nat)
  deriving DecidableEq

/-- A string in a condition: the empty string counts as missing. -/
def nonEmpty (s : Option String) : Option String := s.filter (· ≠ "")

/-- The text after the beginning, or the whole text where it begins otherwise. -/
def withoutStart (start text : String) : String :=
  if start.toList.isPrefixOf text.toList then String.ofList (text.toList.drop start.length) else text

section
variable (d : Library)

/-- `extractApiKey`. -/
def extractApiKey (req : Request) : Option String :=
  let single := match req.apiKey with
    | some (.one s) => some s
    | some (.many l) => l.head?
    | none => none
  match nonEmpty single with
  | some key => some key
  | none =>
    match req.authorization with
    | none => none
    | some authorization =>
      if "Bearer ".toList.isPrefixOf authorization.toList then
        nonEmpty (some (d.trim (withoutStart "Bearer " authorization)))
      else none

/-- `bucketKey`. -/
def bucketKey (req : Request) : String :=
  match extractApiKey d req with
  | some apiKey => "key:" ++ String.ofList ((d.sha256 apiKey).toList.take 16)
  | none => "ip:" ++ withoutStart "::ffff:" (req.ip.getD "unknown")

/-- `windowMs`. -/
def windowMs : Nat := 1000

/-- `use`, for the bucket of the request. -/
def useBucket (limit : Nat) (key : String) (now : Nat) (windows : Windows) : Answer × Windows :=
  match windows key with
  | none => (.next, Function.update windows key (some ⟨1, now + windowMs⟩))
  | some entry =>
    if entry.resetAt ≤ now then (.next, Function.update windows key (some ⟨1, now + windowMs⟩))
    else if limit ≤ entry.count then (.tooManyRequests (entry.resetAt - now), windows)
    else (.next, Function.update windows key (some { entry with count := entry.count + 1 }))

/-- `use`. -/
def use (limit : Nat) (req : Request) (now : Nat) (windows : Windows) : Answer × Windows :=
  if limit ≤ 0 then (.next, windows) else useBucket limit (bucketKey d req) now windows

/-- `prune`. -/
def prune (now : Nat) (windows : Windows) : Windows :=
  fun key => (windows key).filter fun entry => !decide (entry.resetAt ≤ now)

/-! ## Runs -/

/-- A request, or a run of the cleanup timer. -/
inductive Event : Type where
  | request (now : Nat) (req : Request)
  | prune (now : Nat)

/-- When it happens. -/
def Event.time : Event → Nat
  | .request now _ => now
  | .prune now => now

/-- The event is a request. -/
def Event.isRequest : Event → Bool
  | .request _ _ => true
  | .prune _ => false

/-- A request that was decided, with the end of the window it fell into. -/
structure Decision where
  key : String
  now : Nat
  resetAt : Nat
  answer : Answer
  deriving DecidableEq

/-- The request was admitted to the bucket. -/
def Decision.admitted (key : String) (x : Decision) : Bool := x.key = key && x.answer = .next

/-- The decisions of a run. -/
def decisions (limit : Nat) : Windows → List Event → List Decision
  | _, [] => []
  | windows, .request now req :: es =>
    let r := use d limit req now windows
    ⟨bucketKey d req, now, ((r.2 (bucketKey d req)).map WindowEntry.resetAt).getD 0, r.1⟩ ::
      decisions limit r.2 es
  | windows, .prune now :: es => decisions limit (prune now windows) es

/-- The map before the first request. -/
def noWindows : Windows := fun _ => none

end

/-! ## One request -/

variable {d : Library} {L now t t₀ : Nat} {k key : String} {w w' : Windows} {e : WindowEntry} {req : Request}
  {es : List Event} {x : Decision}

/-- What a request does to its bucket: it begins a window, is counted in the one that is open, or is
    refused in it. -/
lemma useBucket_cases (L now : Nat) (key : String) (w : Windows) :
    ((∀ e, w key = some e → e.resetAt ≤ now) ∧
      useBucket L key now w = (.next, Function.update w key (some ⟨1, now + windowMs⟩))) ∨
    (∃ e, w key = some e ∧ now < e.resetAt ∧ e.count < L ∧
      useBucket L key now w = (.next, Function.update w key (some ⟨e.count + 1, e.resetAt⟩))) ∨
    ∃ e, w key = some e ∧ now < e.resetAt ∧ L ≤ e.count ∧
      useBucket L key now w = (.tooManyRequests (e.resetAt - now), w) := by
  unfold useBucket
  cases entry : w key with
  | none => exact .inl ⟨nofun, rfl⟩
  | some e =>
    simp only [Option.some.injEq]
    by_cases past : e.resetAt ≤ now
    · exact .inl ⟨fun e' eq => eq ▸ past, if_pos past⟩
    · by_cases full : L ≤ e.count
      · exact .inr (.inr ⟨e, rfl, Nat.lt_of_not_le past, full, by rw [if_neg past, if_pos full]⟩)
      · exact .inr (.inl ⟨e, rfl, Nat.lt_of_not_le past, Nat.lt_of_not_le full,
          by rw [if_neg past, if_neg full]⟩)

/-- The decision on a request, and the entry of its bucket afterwards. -/
structure Decides (L : Nat) (w : Windows) (now : Nat) (key : String) (x : Decision) (w' : Windows) : Prop where
  bucket : x.key = key
  time : x.now = now
  other : ∀ k, k ≠ key → w' k = w k
  cases : (x.answer = .next ∧ x.resetAt = now + windowMs ∧ w' key = some ⟨1, now + windowMs⟩ ∧
      ∀ e, w key = some e → e.resetAt ≤ now) ∨
    ∃ e, w key = some e ∧ now < e.resetAt ∧ x.resetAt = e.resetAt ∧
      ((x.answer = .next ∧ e.count < L ∧ w' key = some ⟨e.count + 1, e.resetAt⟩) ∨
        (x.answer = .tooManyRequests (e.resetAt - now) ∧ L ≤ e.count ∧ w' key = some e))

/-- A request is decided, and the rest in the windows after it. -/
lemma decisions_request (d : Library) (w : Windows) (now : Nat) (req : Request) (es : List Event)
    (pos : 1 ≤ L) : ∃ x w', Decides L w now (bucketKey d req) x w' ∧
      decisions d L w (.request now req :: es) = x :: decisions d L w' es := by
  have run : use d L req now w = useBucket L (bucketKey d req) now w := if_neg (Nat.not_le.2 pos)
  refine ⟨_, _, ⟨rfl, rfl, fun k other => ?_, ?_⟩, rfl⟩
  · rw [run]
    rcases useBucket_cases L now (bucketKey d req) w with
      ⟨-, eq⟩ | ⟨e, -, -, -, eq⟩ | ⟨e, -, -, -, eq⟩
    · rw [eq]
      exact Function.update_of_ne other _ _
    · rw [eq]
      exact Function.update_of_ne other _ _
    · rw [eq]
  · rw [run]
    rcases useBucket_cases L now (bucketKey d req) w with
      ⟨past, eq⟩ | ⟨e, entry, live, room, eq⟩ | ⟨e, entry, live, full, eq⟩
    · rw [eq]
      exact .inl ⟨rfl, by simp, by simp, past⟩
    · rw [eq]
      exact .inr ⟨e, entry, live, by simp, .inl ⟨rfl, room, by simp⟩⟩
    · rw [eq]
      exact .inr ⟨e, entry, live, by simp [entry], .inr ⟨rfl, full, entry⟩⟩

/-- What is left after pruning are the windows that are still open. -/
lemma prune_eq_some : prune now w key = some e ↔ w key = some e ∧ now < e.resetAt := by
  simp [prune, Option.filter_eq_some_iff]

/-! ## Windows -/

/-- No event is before the time. -/
abbrev After (t₀ : Nat) (es : List Event) : Prop := ∀ e ∈ es, t₀ ≤ e.time

/-- Events in the order of their times. -/
abbrev Ordered (es : List Event) : Prop := es.Pairwise fun a b => a.time ≤ b.time

/-- The decisions of a run fall into windows that are open. -/
lemma timed (pos : 1 ≤ L) (ordered : Ordered es) (after : After t₀ es)
    (begun : ∀ k e, w k = some e → e.resetAt ≤ t₀ + windowMs) :
    ∀ x ∈ decisions d L w es, x.now < x.resetAt ∧ x.resetAt ≤ x.now + windowMs := by
  induction es generalizing w t₀ with
  | nil => exact fun x mem => absurd mem List.not_mem_nil
  | cons event es ih =>
    obtain ⟨next, rest⟩ := List.pairwise_cons.1 ordered
    have now := after event List.mem_cons_self
    cases event with
    | prune now' =>
      refine ih rest next fun k e entry => ?_
      have bound := begun k e (prune_eq_some.1 entry).1
      simp only [Event.time] at now ⊢
      omega
    | request now' req =>
      obtain ⟨x, w', decides, eq⟩ := decisions_request d w now' req es pos
      rw [eq]
      simp only [Event.time] at now
      refine List.forall_mem_cons.2 ⟨?_, ih rest next fun k e entry => ?_⟩
      · rw [decides.time]
        rcases decides.cases with ⟨-, reset, -⟩ | ⟨e, entry, live, reset, -⟩
        · rw [reset]
          simp [windowMs]
        · have bound := begun _ e entry
          omega
      · simp only [Event.time]
        by_cases same : k = bucketKey d req
        · rw [same] at entry
          rcases decides.cases with ⟨-, -, entry', -⟩ | ⟨e', old, -, -, ⟨-, -, entry'⟩ | ⟨-, -, entry'⟩⟩
          · cases entry.symm.trans entry'
            exact Nat.le_refl _
          · cases entry.symm.trans entry'
            have bound := begun _ e' old
            exact bound.trans (Nat.add_le_add_right now _)
          · cases entry.symm.trans entry'
            have bound := begun _ e old
            exact bound.trans (Nat.add_le_add_right now _)
        · rw [decides.other k same] at entry
          have bound := begun k e entry
          exact bound.trans (Nat.add_le_add_right now _)

/-- The window that ends at `t` is the one of the entry, or it is over and the entry is of a later one. -/
def Passed (k : String) (t t₀ : Nat) (w : Windows) : Prop :=
  (∃ e, w k = some e ∧ e.resetAt = t) ∨ t ≤ t₀ ∧ ∀ e, w k = some e → t + windowMs ≤ e.resetAt

/-- The decisions after a window has begun fall into it or into later ones. -/
lemma apart_of_passed (pos : 1 ≤ L) (ordered : Ordered es) (after : After t₀ es) (passed : Passed k t t₀ w) :
    ∀ x ∈ decisions d L w es, x.key = k → x.resetAt = t ∨ t + windowMs ≤ x.resetAt := by
  induction es generalizing w t₀ with
  | nil => exact fun x mem => absurd mem List.not_mem_nil
  | cons event es ih =>
    obtain ⟨next, rest⟩ := List.pairwise_cons.1 ordered
    have now := after event List.mem_cons_self
    cases event with
    | prune now' =>
      refine ih rest next ?_
      simp only [Event.time] at now ⊢
      rcases passed with ⟨e, entry, reset⟩ | ⟨over', later⟩
      · by_cases live : now' < e.resetAt
        · exact .inl ⟨e, prune_eq_some.2 ⟨entry, live⟩, reset⟩
        · refine .inr ⟨by omega, fun e' entry' => ?_⟩
          obtain ⟨old, open'⟩ := prune_eq_some.1 entry'
          cases entry.symm.trans old
          exact absurd open' live
      · exact .inr ⟨by omega, fun e entry => later e (prune_eq_some.1 entry).1⟩
    | request now' req =>
      obtain ⟨x, w', decides, eq⟩ := decisions_request d w now' req es pos
      rw [eq]
      simp only [Event.time] at now
      by_cases same : bucketKey d req = k
      · subst same
        rcases decides.cases with ⟨-, reset, entry', past⟩ | ⟨e, entry, live, reset, step⟩
        · have gap : t + windowMs ≤ now' + windowMs := by
            rcases passed with ⟨e, entry, rfl⟩ | ⟨over', -⟩
            · exact Nat.add_le_add_right (past e entry) _
            · omega
          refine List.forall_mem_cons.2 ⟨fun _ => .inr (reset ▸ gap), ih rest next (.inr ⟨?_, ?_⟩)⟩
          · simp only [Event.time]
            omega
          · intro e entry
            cases entry.symm.trans entry'
            exact gap
        · obtain ⟨e', entry', reset'⟩ : ∃ e', w' (bucketKey d req) = some e' ∧ e'.resetAt = e.resetAt := by
            rcases step with ⟨-, -, entry'⟩ | ⟨-, -, entry'⟩
            · exact ⟨_, entry', rfl⟩
            · exact ⟨_, entry', rfl⟩
          rcases passed with ⟨e₀, entry₀, rfl⟩ | ⟨over', later⟩
          · cases entry.symm.trans entry₀
            exact List.forall_mem_cons.2 ⟨fun _ => .inl reset, ih rest next (.inl ⟨e', entry', reset'⟩)⟩
          · have gap := later e entry
            refine List.forall_mem_cons.2 ⟨fun _ => .inr (reset ▸ gap), ih rest next (.inr ⟨?_, ?_⟩)⟩
            · simp only [Event.time]
              omega
            · intro e'' entry''
              cases entry''.symm.trans entry'
              rw [reset']
              exact gap
      · refine List.forall_mem_cons.2 ⟨fun own => absurd (decides.bucket.symm.trans own) same, ih rest next ?_⟩
        have kept := decides.other k (Ne.symm same)
        rcases passed with ⟨e, entry, reset⟩ | ⟨over', later⟩
        · exact .inl ⟨e, kept.trans entry, reset⟩
        · refine .inr ⟨?_, fun e entry => later e (kept.symm.trans entry)⟩
          simp only [Event.time]
          omega

/-- The windows of a bucket are a second apart. -/
lemma apart (pos : 1 ≤ L) (ordered : Ordered es) :
    (decisions d L w es).Pairwise fun x y => y.key = x.key →
      y.resetAt = x.resetAt ∨ x.resetAt + windowMs ≤ y.resetAt := by
  induction es generalizing w with
  | nil => exact .nil
  | cons event es ih =>
    obtain ⟨next, rest⟩ := List.pairwise_cons.1 ordered
    cases event with
    | prune now => exact ih rest
    | request now req =>
      obtain ⟨x, w', decides, eq⟩ := decisions_request d w now req es pos
      rw [eq]
      refine List.pairwise_cons.2 ⟨fun y mem same => ?_, ih rest⟩
      refine apart_of_passed pos rest next (.inl ?_) y mem (same.trans decides.bucket)
      rcases decides.cases with ⟨-, reset, entry, -⟩ | ⟨e, -, -, reset, ⟨-, -, entry⟩ | ⟨-, -, entry⟩⟩
      · exact ⟨_, entry, reset.symm⟩
      · exact ⟨_, entry, reset.symm⟩
      · exact ⟨_, entry, reset.symm⟩

/-! ## Bounds -/

/-- How many requests a window that ends at `t` can admit if it has not begun at `t₀`. -/
def fresh (L t t₀ : Nat) : Nat := if t < t₀ + windowMs then 0 else L

/-- How many requests the window of the bucket that ends at `t` can still admit from `t₀` on. -/
def room (L : Nat) (k : String) (t t₀ : Nat) (w : Windows) : Nat :=
  match w k with
  | none => fresh L t t₀
  | some e => if e.resetAt = t then L - e.count else fresh L t t₀

/-- Less can be admitted afresh from a later time on. -/
lemma fresh_mono {t₁ : Nat} (le : t₀ ≤ t₁) : fresh L t t₁ ≤ fresh L t t₀ := by
  unfold fresh
  split_ifs <;> omega

/-- Nothing is admitted afresh after the end. -/
lemma fresh_of_le (le : t ≤ t₀) : fresh L t t₀ = 0 := if_pos (by simp only [windowMs]; omega)

/-- One limit is admitted afresh within a window from now. -/
lemma fresh_of_now (le : t₀ ≤ now) : fresh L (now + windowMs) t₀ = L := if_neg (by omega)

/-- There is less room from a later time on. -/
lemma room_mono {t₁ : Nat} (le : t₀ ≤ t₁) : room L k t t₁ w ≤ room L k t t₀ w := by
  unfold room
  cases w k with
  | none => exact fresh_mono le
  | some e =>
    dsimp only
    split
    · exact Nat.le_refl _
    · exact fresh_mono le

/-- Where the entry is of a window that is over, there is room in every later one. -/
lemma fresh_le_room (le : t₀ ≤ now) (past : ∀ e, w k = some e → e.resetAt ≤ now) :
    fresh L t now ≤ room L k t t₀ w := by
  unfold room
  cases entry : w k with
  | none => exact fresh_mono le
  | some e =>
    dsimp only
    split
    · next reset =>
      rw [fresh_of_le (reset ▸ past e entry)]
      exact Nat.zero_le _
    · exact fresh_mono le

/-- Where no window is open, there is room for one limit. -/
lemma room_of_now (le : t₀ ≤ now) (past : ∀ e, w k = some e → e.resetAt ≤ now) :
    room L k (now + windowMs) t₀ w = L := by
  unfold room
  cases entry : w k with
  | none => exact fresh_of_now le
  | some e =>
    have other : e.resetAt ≠ now + windowMs := by
      have bound := past e entry
      simp only [windowMs]
      omega
    exact (if_neg other).trans (fresh_of_now le)

/-- Pruning makes no room. -/
lemma room_prune (le : t₀ ≤ now) : room L k t now (prune now w) ≤ room L k t t₀ w := by
  cases kept : prune now w k with
  | some e =>
    have old := (prune_eq_some.1 kept).1
    have same : room L k t now (prune now w) = room L k t now w := by
      unfold room
      rw [kept, old]
    rw [same]
    exact room_mono le
  | none =>
    have pruned : room L k t now (prune now w) = fresh L t now := by
      unfold room
      rw [kept]
    rw [pruned]
    refine fresh_le_room le fun e entry => ?_
    by_contra live
    rw [prune_eq_some.2 ⟨entry, Nat.lt_of_not_le live⟩] at kept
    cases kept

/-- A request uses up the room that it leaves less. -/
lemma Decides.room_le (decides : Decides L w now key x w') (pos : 1 ≤ L) (le : t₀ ≤ now) :
    room L k t now w' + (if (x.admitted k && x.resetAt = t) = true then 1 else 0) ≤ room L k t t₀ w := by
  by_cases same : key = k
  · subst same
    rcases decides.cases with ⟨next, reset, entry', past⟩ |
      ⟨e, entry, live, reset, ⟨next, free, entry'⟩ | ⟨refused, full, entry'⟩⟩
    · have counted : x.admitted key = true := by simp [Decision.admitted, decides.bucket, next]
      have after : room L key t now w' = if now + windowMs = t then L - 1 else fresh L t now := by
        unfold room
        rw [entry']
      rw [after, counted, reset]
      by_cases own : now + windowMs = t
      · subst own
        rw [room_of_now le past]
        simp only [if_true, Bool.true_and, decide_true]
        omega
      · simpa [own] using fresh_le_room le past
    · have counted : x.admitted key = true := by simp [Decision.admitted, decides.bucket, next]
      have before : room L key t t₀ w = if e.resetAt = t then L - e.count else fresh L t t₀ := by
        unfold room
        rw [entry]
      have after : room L key t now w' = if e.resetAt = t then L - (e.count + 1) else fresh L t now := by
        unfold room
        rw [entry']
      rw [before, after, counted, reset]
      by_cases own : e.resetAt = t
      · simp only [own, if_true, Bool.true_and, decide_true]
        omega
      · simpa [own] using fresh_mono le
    · have uncounted : x.admitted key = false := by simp [Decision.admitted, refused]
      have kept : room L key t now w' = room L key t now w := by
        unfold room
        rw [entry', entry]
      rw [kept, uncounted]
      simpa using room_mono le
  · have uncounted : x.admitted k = false := by simp [Decision.admitted, decides.bucket, same]
    have kept : room L k t now w' = room L k t now w := by
      unfold room
      rw [decides.other k (Ne.symm same)]
    rw [kept, uncounted]
    simpa using room_mono le

/-- A window admits no more requests than there is room for. -/
lemma admitted_le_room (pos : 1 ≤ L) (ordered : Ordered es) (after : After t₀ es) :
    (decisions d L w es).countP (fun x => x.admitted k && x.resetAt = t) ≤ room L k t t₀ w := by
  induction es generalizing w t₀ with
  | nil => exact Nat.zero_le _
  | cons event es ih =>
    obtain ⟨next, rest⟩ := List.pairwise_cons.1 ordered
    have now := after event List.mem_cons_self
    cases event with
    | prune now' => exact (ih rest next).trans (room_prune now)
    | request now' req =>
      obtain ⟨x, w', decides, eq⟩ := decisions_request d w now' req es pos
      rw [eq, List.countP_cons]
      exact (Nat.add_le_add_right (ih rest next) _).trans (decides.room_le pos now)

/-- A bucket admits at most `L` requests in each window. -/
lemma admitted_le (pos : 1 ≤ L) (ordered : Ordered es) (k : String) (t : Nat) :
    (decisions d L noWindows es).countP (fun x => x.admitted k && x.resetAt = t) ≤ L := by
  refine (admitted_le_room pos ordered fun e _ => Nat.zero_le _).trans ?_
  simp only [room, noWindows, fresh]
  split_ifs
  · exact Nat.zero_le _
  · exact Nat.le_refl _

/-- Admitted requests whose windows end within a second are of one window. -/
lemma length_le_of_near {xs : List Decision} {a : Nat}
    (apart : xs.Pairwise fun x y => y.key = x.key → y.resetAt = x.resetAt ∨ x.resetAt + windowMs ≤ y.resetAt)
    (bound : ∀ t, xs.countP (fun x => x.admitted k && x.resetAt = t) ≤ L)
    (own : ∀ x ∈ xs, x.admitted k = true) (near : ∀ x ∈ xs, a < x.resetAt ∧ x.resetAt ≤ a + windowMs) :
    xs.length ≤ L := by
  cases xs with
  | nil => exact Nat.zero_le _
  | cons x xs =>
    obtain ⟨first, -⟩ := List.pairwise_cons.1 apart
    have key (y) (mem : y ∈ x :: xs) : y.key = k := by
      have admitted := own y mem
      simp only [Decision.admitted, Bool.and_eq_true, decide_eq_true_eq] at admitted
      exact admitted.1
    have same : ∀ y ∈ x :: xs, (y.admitted k && y.resetAt = x.resetAt) = true := by
      intro y mem
      have reset : y.resetAt = x.resetAt := by
        rcases List.mem_cons.1 mem with rfl | later
        · rfl
        · have nearX := near x List.mem_cons_self
          have nearY := near y mem
          rcases first y later ((key y mem).trans (key x List.mem_cons_self).symm) with eq | gap
          · exact eq
          · omega
      simp [own y mem, reset]
    rw [← List.countP_eq_length.2 same]
    exact bound x.resetAt

/-- A bucket admits at most `2 * L` requests in a second. -/
lemma admitted_le_two (pos : 1 ≤ L) (ordered : Ordered es) (k : String) (s : Nat) :
    (decisions d L noWindows es).countP
      (fun x => x.admitted k && (s ≤ x.now && x.now < s + windowMs)) ≤ 2 * L := by
  let xs := decisions d L noWindows es
  let within := xs.filter fun x => x.admitted k && (s ≤ x.now && x.now < s + windowMs)
  have open' : ∀ x ∈ xs, x.now < x.resetAt ∧ x.resetAt ≤ x.now + windowMs :=
    timed pos ordered (fun e _ => Nat.zero_le _) nofun
  -- the windows that are over a second after `s` begins, and the others
  have part (p : Decision → Bool) (a : Nat)
      (near : ∀ x ∈ within, p x = true → a < x.resetAt ∧ x.resetAt ≤ a + windowMs) :
      (within.filter p).length ≤ L := by
    have sub : (within.filter p).Sublist xs := List.filter_sublist.trans List.filter_sublist
    refine length_le_of_near (k := k) (a := a) ((apart pos ordered).sublist sub)
      (fun t => (sub.countP_le).trans (admitted_le pos ordered k t)) (fun x mem => ?_) fun x mem => ?_
    · have inside := (List.mem_filter.1 (List.mem_filter.1 mem).1).2
      simp only [Bool.and_eq_true] at inside
      exact inside.1
    · obtain ⟨inside, holds⟩ := List.mem_filter.1 mem
      exact near x inside holds
  have split : within.length =
      (within.filter fun x => x.resetAt ≤ s + windowMs).length +
        (within.filter fun x => !decide (x.resetAt ≤ s + windowMs)).length :=
    List.length_eq_length_filter_add _
  have times (x) (mem : x ∈ within) : s < x.resetAt ∧ x.resetAt < s + windowMs + windowMs := by
    obtain ⟨run, inside⟩ := List.mem_filter.1 mem
    have live := open' x run
    simp only [Bool.and_eq_true, decide_eq_true_eq] at inside
    omega
  have early := part (fun x => x.resetAt ≤ s + windowMs) s fun x mem holds =>
    ⟨(times x mem).1, of_decide_eq_true holds⟩
  have late := part (fun x => !decide (x.resetAt ≤ s + windowMs)) (s + windowMs) fun x mem holds => by
    have bound := (times x mem).2
    simp only [Bool.not_eq_true', decide_eq_false_iff_not, Nat.not_le] at holds
    exact ⟨holds, bound.le⟩
  rw [List.countP_eq_length_filter]
  change within.length ≤ 2 * L
  omega

/-- A request after the windows of its bucket is admitted. -/
lemma next_of_past (pos : 1 ≤ L) {pre post : List Decision} (run : decisions d L w es = pre ++ x :: post)
    (past : ∀ y ∈ pre, y.key = x.key → y.resetAt ≤ x.now) (old : ∀ e, w x.key = some e → e.resetAt ≤ x.now) :
    x.answer = .next := by
  induction es generalizing w pre with
  | nil => cases pre <;> cases run
  | cons event es ih =>
    cases event with
    | prune now => exact ih run past fun e entry => old e (prune_eq_some.1 entry).1
    | request now req =>
      obtain ⟨y, w', decides, eq⟩ := decisions_request d w now req es pos
      rw [eq] at run
      cases pre with
      | nil =>
        obtain ⟨rfl, -⟩ := List.cons.inj run
        rcases decides.cases with ⟨next, -⟩ | ⟨e, entry, live, -⟩
        · exact next
        · have over' := old e (decides.bucket ▸ entry)
          rw [decides.time] at over'
          omega
      | cons z pre =>
        obtain ⟨rfl, later⟩ := List.cons.inj run
        obtain ⟨first, past⟩ := List.forall_mem_cons.1 past
        refine ih later past fun e entry => ?_
        by_cases same : x.key = bucketKey d req
        · have bound := first (decides.bucket.trans same.symm)
          rw [same] at entry
          rcases decides.cases with ⟨-, reset, entry', -⟩ | ⟨e', -, -, reset, ⟨-, -, entry'⟩ | ⟨-, -, entry'⟩⟩
          · cases entry.symm.trans entry'
            exact reset ▸ bound
          · cases entry.symm.trans entry'
            exact reset ▸ bound
          · cases entry.symm.trans entry'
            exact reset ▸ bound
        · rw [decides.other _ same] at entry
          exact old e entry

/-! ## Pruning -/

/-- The maps agree on the windows that are open. -/
def Agree (t₀ : Nat) (w w' : Windows) : Prop :=
  ∀ k, w k = w' k ∨ (∀ e, w k = some e → e.resetAt ≤ t₀) ∧ ∀ e, w' k = some e → e.resetAt ≤ t₀

/-- Maps that agree on the bucket decide alike. -/
lemma Decides.agree {x' : Decision} {w₁ w₁' : Windows} (decides : Decides L w now key x w₁)
    (decides' : Decides L w' now key x' w₁')
    (agree : w key = w' key ∨ (∀ e, w key = some e → e.resetAt ≤ now) ∧ ∀ e, w' key = some e → e.resetAt ≤ now) :
    x = x' ∧ w₁ key = w₁' key := by
  have equal (answer : x.answer = x'.answer) (reset : x.resetAt = x'.resetAt) : x = x' := by
    cases x
    cases x'
    cases decides.bucket.trans decides'.bucket.symm
    cases decides.time.trans decides'.time.symm
    cases answer
    cases reset
    rfl
  have live (e : WindowEntry) (entry : w key = some e) (open' : now < e.resetAt) : w' key = some e := by
    rcases agree with eq | ⟨past, -⟩
    · exact eq.symm.trans entry
    · have over' := past e entry
      omega
  have live' (e : WindowEntry) (entry : w' key = some e) (open' : now < e.resetAt) : w key = some e := by
    rcases agree with eq | ⟨-, past⟩
    · exact eq.trans entry
    · have over' := past e entry
      omega
  rcases decides.cases with ⟨next, reset, entry, past⟩ | ⟨e, old, open', reset, step⟩
  · rcases decides'.cases with ⟨next', reset', entry', -⟩ | ⟨e, old, open', -⟩
    · exact ⟨equal (next.trans next'.symm) (reset.trans reset'.symm), entry.trans entry'.symm⟩
    · have over' := past e (live' e old open')
      omega
  · rcases decides'.cases with ⟨-, -, -, past⟩ | ⟨e', old', -, reset', step'⟩
    · have over' := past e (live e old open')
      omega
    · cases (live e old open').symm.trans old'
      rcases step with ⟨next, room, entry⟩ | ⟨refused, full, entry⟩
      · rcases step' with ⟨next', -, entry'⟩ | ⟨-, full, -⟩
        · exact ⟨equal (next.trans next'.symm) (reset.trans reset'.symm), entry.trans entry'.symm⟩
        · omega
      · rcases step' with ⟨-, room, -⟩ | ⟨refused', -, entry'⟩
        · omega
        · exact ⟨equal (refused.trans refused'.symm) (reset.trans reset'.symm), entry.trans entry'.symm⟩

/-- Without the runs of the timer the decisions are the same. -/
lemma decisions_filter (pos : 1 ≤ L) (ordered : Ordered es) (after : After t₀ es) (agree : Agree t₀ w w') :
    decisions d L w es = decisions d L w' (es.filter Event.isRequest) := by
  induction es generalizing w w' t₀ with
  | nil => rfl
  | cons event es ih =>
    obtain ⟨next, rest⟩ := List.pairwise_cons.1 ordered
    have now := after event List.mem_cons_self
    cases event with
    | prune now' =>
      refine ih rest next fun k => ?_
      simp only [Event.time] at now ⊢
      cases entry : prune now' w k with
      | some e =>
        obtain ⟨old, live⟩ := prune_eq_some.1 entry
        rcases agree k with eq | ⟨over', over''⟩
        · exact .inl (old.symm.trans eq)
        · have past := over' e old
          omega
      | none =>
        refine .inr ⟨nofun, fun e old => ?_⟩
        rcases agree k with eq | ⟨-, over'⟩
        · by_contra live
          rw [prune_eq_some.2 ⟨eq.trans old, Nat.lt_of_not_le live⟩] at entry
          cases entry
        · exact (over' e old).trans now
    | request now' req =>
      simp only [Event.time] at now
      have agree' := agree (bucketKey d req)
      obtain ⟨x, w₁, decides, eq⟩ := decisions_request d w now' req es pos
      obtain ⟨x', w₁', decides', eq'⟩ := decisions_request d w' now' req (es.filter Event.isRequest) pos
      obtain ⟨rfl, entries⟩ := decides.agree decides' (agree'.imp_right fun past =>
        ⟨fun e entry => (past.1 e entry).trans now, fun e entry => (past.2 e entry).trans now⟩)
      rw [eq, List.filter_cons_of_pos rfl, eq']
      congr 1
      refine ih rest next fun k => ?_
      by_cases same : k = bucketKey d req
      · exact .inl (same ▸ entries)
      · rw [decides.other k same, decides'.other k same]
        exact (agree k).imp_right fun past =>
          ⟨fun e entry => (past.1 e entry).trans now, fun e entry => (past.2 e entry).trans now⟩

/-! ## The throttle -/

/-- In every run a bucket admits at most `L` requests in a window and `2 * L` in a second, a request after
    its windows is admitted, and the decisions are those without pruning. -/
theorem throttle_bounds (d : Library) {L : Nat} (pos : 1 ≤ L) {es : List Event} (ordered : Ordered es) :
    (∀ k t, (decisions d L noWindows es).countP (fun x => x.admitted k && x.resetAt = t) ≤ L) ∧
    (∀ k s, (decisions d L noWindows es).countP
        (fun x => x.admitted k && (s ≤ x.now && x.now < s + windowMs)) ≤ 2 * L ∧
      (decisions d L noWindows es).countP
        (fun x => x.admitted k && (s < x.now && x.now ≤ s + windowMs)) ≤ 2 * L) ∧
    (∀ pre x post, decisions d L noWindows es = pre ++ x :: post →
      (∀ y ∈ pre, y.key = x.key → y.resetAt ≤ x.now) → x.answer = .next) ∧
    decisions d L noWindows es = decisions d L noWindows (es.filter Event.isRequest) := by
  refine ⟨admitted_le pos ordered, fun k s => ⟨admitted_le_two pos ordered k s, ?_⟩,
    fun pre x post run past => next_of_past pos run past nofun,
    decisions_filter pos ordered (fun e _ => Nat.zero_le _) fun k => .inl rfl⟩
  -- times are whole milliseconds
  refine le_trans (List.countP_mono_left fun x _ holds => ?_) (admitted_le_two pos ordered k (s + 1))
  simp only [Bool.and_eq_true, decide_eq_true_eq] at holds ⊢
  obtain ⟨admitted, from', upto⟩ := holds
  exact ⟨admitted, from', by omega⟩

/-- The requests below carry no key, so that neither function is called. -/
def sampleLibrary : Library := ⟨fun s => s, fun s => s⟩

/-- Three requests of one address, and a run of the timer, with a limit of one request. -/
theorem throttle_bounds_three : (1 ≤ 1 ∧ Ordered
    [.request 0 ⟨none, none, none⟩, .request 999 ⟨none, none, none⟩, .prune 1000,
      .request 1000 ⟨none, none, none⟩]) ∧
    (decisions sampleLibrary 1 noWindows [.request 0 ⟨none, none, none⟩, .request 999 ⟨none, none, none⟩,
      .prune 1000, .request 1000 ⟨none, none, none⟩]).countP
        (fun x => x.admitted "ip:unknown" && x.resetAt = 1000) ≤ 1 := by
  have ordered : Ordered [.request 0 ⟨none, none, none⟩, .request 999 ⟨none, none, none⟩, .prune 1000,
      .request 1000 ⟨none, none, none⟩] := by
    simp [Event.time]
  exact ⟨⟨Nat.le_refl 1, ordered⟩, (throttle_bounds sampleLibrary (Nat.le_refl 1) ordered).1 "ip:unknown" 1000⟩

end AvaSettle.Common
