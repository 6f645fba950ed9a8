import Mathlib.Data.List.Basic

/-!
# Sessions of a transactional store

A store with its committed changes and a session for every connection. A query runs statements one after
the other on one connection: outside a transaction they are a transaction of their own, which ends with the
query, and inside one they wait for its end. A statement that fails ends the query, and the transaction it
is in can only be rolled back.
-/

namespace AvaSettle.Sql

/-- A statement: a change, a read, or the control of the transaction. -/
inductive Statement (E : Type) : Type where
  | effect (e : E)
  | read
  | begin
  | commit
  | rollback
  deriving DecidableEq, Repr

/-- The session of a connection between two queries. -/
inductive Session (E : Type) : Type where
  | idle
  | active (pending : List E)
  | aborted
  deriving DecidableEq, Repr

/-- A store: its committed changes in their order, and the sessions of its connections. -/
structure Store (C E : Type) where
  committed : List E
  session : C → Session E

variable {C E F : Type}

/-- The same statement over other changes. -/
def Statement.map (f : E → F) : Statement E → Statement F
  | .effect e => .effect (f e)
  | .read => .read
  | .begin => .begin
  | .commit => .commit
  | .rollback => .rollback

/-- The change of a statement. -/
def Statement.change : Statement E → Option E
  | .effect e => some e
  | _ => none

/-- The statement leaves the transaction alone. -/
def Statement.Plain : Statement E → Prop
  | .effect _ => True
  | .read => True
  | _ => False

/-- The changes that a session has not committed yet. -/
def Session.pending : Session E → List E
  | .idle => []
  | .active pending => pending
  | .aborted => []

/-- Runs statements in a transaction, one that was begun (`block`) or that of the query, with the changes
    pending in it and the committed ones, where the statement number `fails` fails. Returns the session
    and the committed changes after the query, and whether all its statements succeeded. -/
def runBlock : List (Statement E) → Option Nat → Bool → List E → List E → Session E × List E × Bool
  | [], _, block, pending, db => if block then (.active pending, db, true) else (.idle, db ++ pending, true)
  | .commit :: _, some 0, _, _, db => (.idle, db, false)
  | .rollback :: _, some 0, _, _, db => (.idle, db, false)
  | _ :: _, some 0, block, _, db => (if block then .aborted else .idle, db, false)
  | .effect e :: sts, fails, block, pending, db => runBlock sts (fails.map Nat.pred) block (pending ++ [e]) db
  | .read :: sts, fails, block, pending, db => runBlock sts (fails.map Nat.pred) block pending db
  | .begin :: sts, fails, _, pending, db => runBlock sts (fails.map Nat.pred) true pending db
  | .commit :: sts, fails, _, pending, db => runBlock sts (fails.map Nat.pred) false [] (db ++ pending)
  | .rollback :: sts, fails, _, _, db => runBlock sts (fails.map Nat.pred) false [] db

/-- Runs statements in a session: in a transaction that has failed only its end is accepted. -/
def Session.run (s : Session E) (sts : List (Statement E)) (fails : Option Nat) (db : List E) :
    Session E × List E × Bool :=
  match s, sts with
  | .idle, sts => runBlock sts fails false [] db
  | .active pending, sts => runBlock sts fails true pending db
  | .aborted, [] => (.aborted, db, true)
  | .aborted, .commit :: sts => runBlock (.rollback :: sts) fails false [] db
  | .aborted, .rollback :: sts => runBlock (.rollback :: sts) fails false [] db
  | .aborted, _ :: _ => (.aborted, db, false)

section
variable [DecidableEq C]

/-- Runs a query on a connection. -/
def Store.query (w : Store C E) (c : C) (sts : List (Statement E)) (fails : Option Nat) : Store C E × Bool :=
  let r := (w.session c).run sts fails w.committed
  (⟨r.2.1, Function.update w.session c r.1⟩, r.2.2)

end

/-- What a connection reads: the committed changes and those of its own transaction. -/
def Store.view (w : Store C E) (c : C) : List E := w.committed ++ (w.session c).pending

/-- A store without open transactions. -/
def Store.ofCommitted (db : List E) : Store C E := ⟨db, fun _ => .idle⟩

/-! ## What a query does -/

variable {sts : List (Statement E)} {fails : Option Nat} {block : Bool} {pending db : List E}
  {s : Session E} {p : E → Bool}

/-- A block without statements commits what is pending, unless it is left open. -/
lemma runBlock_nil : runBlock [] fails block pending db =
    if block then (.active pending, db, true) else (.idle, db ++ pending, true) := rfl

/-- A statement that fails ends the query, and only the end of a transaction ends it all the same. -/
lemma runBlock_fault (st : Statement E) (sts : List (Statement E)) (block : Bool) (pending db : List E) :
    ∃ s : Session E, s.pending = [] ∧ runBlock (st :: sts) (some 0) block pending db = (s, db, false) ∧
      (block = true → st.Plain → s = .aborted) := by
  cases st with
  | commit => exact ⟨.idle, rfl, rfl, nofun⟩
  | rollback => exact ⟨.idle, rfl, rfl, nofun⟩
  | effect e => cases block <;> exact ⟨_, rfl, rfl, by simp⟩
  | read => cases block <;> exact ⟨_, rfl, rfl, by simp⟩
  | begin => cases block <;> exact ⟨_, rfl, rfl, by simp⟩

/-- What a statement that does not fail leaves to the others. -/
lemma runBlock_cons (st : Statement E) (ok : fails ≠ some 0) :
    runBlock (st :: sts) fails block pending db =
      match st with
      | .effect e => runBlock sts (fails.map Nat.pred) block (pending ++ [e]) db
      | .read => runBlock sts (fails.map Nat.pred) block pending db
      | .begin => runBlock sts (fails.map Nat.pred) true pending db
      | .commit => runBlock sts (fails.map Nat.pred) false [] (db ++ pending)
      | .rollback => runBlock sts (fails.map Nat.pred) false [] db := by
  cases fails with
  | none => cases st <;> rfl
  | some n =>
    cases n with
    | zero => exact absurd rfl ok
    | succ n => cases st <;> rfl

/-- Changes of a kind are neither made nor committed by statements without such changes, where none are
    pending. -/
lemma runBlock_filter (free : ∀ st ∈ sts, ∀ e ∈ st.change, p e = false) (none : pending.filter p = []) :
    (runBlock sts fails block pending db).2.1.filter p = db.filter p ∧
      (runBlock sts fails block pending db).1.pending.filter p = [] := by
  induction sts generalizing fails block pending db with
  | nil =>
    rw [runBlock_nil]
    cases block with
    | true => exact ⟨rfl, none⟩
    | false => exact ⟨by simp [none], rfl⟩
  | cons st sts ih =>
    obtain ⟨here, later⟩ := List.forall_mem_cons.1 free
    by_cases fault : fails = some 0
    · obtain ⟨s, ended, eq, -⟩ := runBlock_fault st sts block pending db
      rw [fault, eq, ended]
      exact ⟨rfl, rfl⟩
    · rw [runBlock_cons st fault]
      cases st with
      | effect e =>
        have change : p e = false := here e rfl
        exact ih later (by simp [none, change])
      | read => exact ih later none
      | begin => exact ih later none
      | commit =>
        have same : (db ++ pending).filter p = db.filter p := by
          rw [List.filter_append, none, List.append_nil]
        rw [← same]
        exact ih later rfl
      | rollback => exact ih later rfl

/-- A query without changes of a kind neither makes nor commits any, where none are pending on its
    connection, and none are pending there afterwards. -/
theorem Session.run_filter (fails : Option Nat) (db : List E) (free : ∀ st ∈ sts, ∀ e ∈ st.change, p e = false)
    (none : s.pending.filter p = []) :
    (s.run sts fails db).2.1.filter p = db.filter p ∧ (s.run sts fails db).1.pending.filter p = [] := by
  cases s with
  | idle => exact runBlock_filter free rfl
  | active pending => exact runBlock_filter free none
  | aborted =>
    cases sts with
    | nil => exact ⟨rfl, rfl⟩
    | cons st sts =>
      obtain ⟨_, later⟩ := List.forall_mem_cons.1 free
      have ended : ∀ st ∈ Statement.rollback :: sts, ∀ e ∈ st.change, p e = false :=
        List.forall_mem_cons.2 ⟨nofun, later⟩
      cases st with
      | commit => exact runBlock_filter ended rfl
      | rollback => exact runBlock_filter ended rfl
      | effect e => exact ⟨rfl, rfl⟩
      | read => exact ⟨rfl, rfl⟩
      | begin => exact ⟨rfl, rfl⟩

/-- Plain statements stay pending in their block, or abort it. -/
lemma runBlock_plain (plain : ∀ st ∈ sts, st.Plain) :
    runBlock sts fails true pending db = (.active (pending ++ sts.filterMap Statement.change), db, true) ∨
      runBlock sts fails true pending db = (.aborted, db, false) := by
  induction sts generalizing fails pending with
  | nil => exact .inl (by simp [runBlock_nil])
  | cons st sts ih =>
    obtain ⟨here, later⟩ := List.forall_mem_cons.1 plain
    by_cases fault : fails = some 0
    · right
      obtain ⟨s, -, eq, aborted⟩ := runBlock_fault st sts true pending db
      rw [fault, eq, aborted rfl here]
    · rw [runBlock_cons st fault]
      cases st with
      | effect e =>
        have joined : pending ++ (Statement.effect e :: sts).filterMap Statement.change =
            pending ++ [e] ++ sts.filterMap Statement.change := by
          simp [Statement.change]
        rw [joined]
        exact ih later
      | read => exact ih later
      | begin => cases here
      | commit => cases here
      | rollback => cases here

/-- Plain statements in a transaction are pending when all of them succeed, and else abort it. -/
theorem Session.run_plain (fails : Option Nat) (pending db : List E) (plain : ∀ st ∈ sts, st.Plain) :
    (Session.active pending).run sts fails db =
        (.active (pending ++ sts.filterMap Statement.change), db, true) ∨
      (Session.active pending).run sts fails db = (.aborted, db, false) :=
  runBlock_plain plain

/-- Plain statements in a transaction of which none fails are pending. -/
theorem Session.run_spared (pending db : List E) (plain : ∀ st ∈ sts, st.Plain)
    (succeed : ∀ k ∈ fails, sts.length ≤ k) :
    (Session.active pending).run sts fails db =
      (.active (pending ++ sts.filterMap Statement.change), db, true) := by
  change runBlock sts fails true pending db = _
  induction sts generalizing fails pending with
  | nil => simp [runBlock_nil]
  | cons st sts ih =>
    obtain ⟨here, later⟩ := List.forall_mem_cons.1 plain
    have ok : fails ≠ some 0 := by
      rintro rfl
      exact absurd (succeed 0 rfl) (by simp)
    have next : ∀ k ∈ fails.map Nat.pred, sts.length ≤ k := by
      intro k mem
      obtain ⟨k', mem', rfl⟩ := Option.map_eq_some_iff.1 mem
      exact Nat.le_pred_of_lt (succeed k' mem')
    rw [runBlock_cons st ok]
    cases st with
    | effect e => simpa [Statement.change] using ih (pending ++ [e]) later next
    | read => exact ih pending later next
    | begin => cases here
    | commit => cases here
    | rollback => cases here

/-- `BEGIN` begins a transaction, or fails. -/
theorem Session.run_begin (fails : Option Nat) (db : List E) :
    Session.idle.run [.begin] fails db = (.active [], db, true) ∨
      Session.idle.run [.begin] fails db = (.idle, db, false) := by
  by_cases fault : fails = some 0
  · rw [fault]
    exact .inr rfl
  · rw [Session.run, runBlock_cons .begin fault]
    exact .inl rfl

/-- `COMMIT` commits what is pending, or fails and rolls it back. -/
theorem Session.run_commit (fails : Option Nat) (pending db : List E) :
    (Session.active pending).run [.commit] fails db = (.idle, db ++ pending, true) ∨
      (Session.active pending).run [.commit] fails db = (.idle, db, false) := by
  by_cases fault : fails = some 0
  · rw [fault]
    exact .inr rfl
  · left
    rw [Session.run, runBlock_cons .commit fault]
    change (Session.idle, db ++ pending ++ [], true) = _
    rw [List.append_nil]

section
variable [DecidableEq C] {w : Store C E} {c c' : C}

/-- A query changes the session of its own connection only. -/
@[simp] lemma Store.session_query_of_ne (other : c' ≠ c) :
    (w.query c sts fails).1.session c' = w.session c' :=
  Function.update_of_ne other _ _

/-- A query moves the session that it is sent over. -/
@[simp] lemma Store.session_query_self :
    (w.query c sts fails).1.session c = ((w.session c).run sts fails w.committed).1 :=
  Function.update_self _ _ _

end

end AvaSettle.Sql
