import AvaSettle.Data.Utf16
import AvaSettle.Model.Records
import AvaSettle.Sql.Sessions

/-!
# Migrations

`runSqlMigrations`: every migration that is not recorded is run between `BEGIN` and `COMMIT` and recorded
in the same transaction, and a failure is rolled back. Each of these statements is a query of its own to the
pool, which gives it to any idle connection, while a transaction belongs to the connection that began it.
So a migration is all or nothing in the runs in which one connection serves its queries up to `COMMIT`.
-/

namespace AvaSettle.Database.Migrations
open Sql (Statement Session Store)

/-- A change of the database: one that a migration makes, the row that records it, the table of these
    rows, or a change that somebody else makes. -/
inductive Change (D F : Type) : Type where
  | schema (d : D)
  | row (version fileName checksum : String)
  | table
  | other (x : F)
  deriving DecidableEq, Repr

/-- A file of the migrations directory. -/
structure MigrationFile where
  fileName : String
  sql : String
  deriving DecidableEq, Repr

/-- `fileName.replace(/\.sql$/, '')`. -/
def version (f : MigrationFile) : String :=
  if f.fileName.toList.drop (f.fileName.length - 4) = ".sql".toList then
    String.ofList (f.fileName.toList.take (f.fileName.length - 4))
  else f.fileName

/-- The server, which reads a script as statements, and the digest of a script. -/
structure Server (D : Type) where
  script : String → List (Statement D)
  sha256 : String → String

/-- How the pool serves a call of the runner: what others query before it, the connection it is given to
    and the number of the statement that fails, if one does. -/
structure Slot (C F : Type) where
  others : List (C × List (Statement F) × Option Nat) := []
  conn : C
  fails : Option Nat := none

variable {C D F : Type} [DecidableEq C]

/-- A query of somebody else. -/
def foreign (w : Store C (Change D F)) (o : C × List (Statement F) × Option Nat) : Store C (Change D F) :=
  (w.query o.1 (o.2.1.map (Statement.map .other)) o.2.2).1

/-- What others query before a call. -/
def Slot.before (slot : Slot C F) (w : Store C (Change D F)) : Store C (Change D F) :=
  slot.others.foldl foreign w

/-- Others leave the transaction of the connection alone: what they query over it neither ends the
    transaction nor fails. -/
def Slot.Spares (slot : Slot C F) (c : C) : Prop :=
  ∀ o ∈ slot.others, o.1 = c → (∀ st ∈ o.2.1, st.Plain) ∧ ∀ k ∈ o.2.2, o.2.1.length ≤ k

/-- `pool.query`: whether it succeeds. -/
def Slot.call (slot : Slot C F) (sts : List (Statement (Change D F))) (w : Store C (Change D F)) :
    Store C (Change D F) × Bool :=
  (slot.before w).query slot.conn sts slot.fails

/-- The checksum of the row with a version. -/
def checksumOf (version : String) (db : List (Change D F)) : Option String :=
  db.findSome? fun
    | .row v _ checksum => if v = version then some checksum else none
    | _ => none

/-- What happened to a file. -/
inductive FileResult : Type where
  | applied
  | skipped
  | threw (e : Exception)

/-- The outcome of a file: the number of the next call and the database. -/
structure FileRun (C D F : Type) where
  result : FileResult
  next : Nat
  store : Store C (Change D F)

/-- The number after the last call for the file that is not a `ROLLBACK`, which only follows a failure. -/
def FileRun.ended (r : FileRun C D F) : Nat :=
  match r.result with
  | .threw _ => r.next - 1
  | _ => r.next

/-- The row that records a file. -/
def recordOf (s : Server D) (f : MigrationFile) : Change D F :=
  .row (version f) f.fileName (s.sha256 f.sql)

/-- A file, from the call number `n` on. -/
def migrateFile (s : Server D) (slots : Nat → Slot C F) (n : Nat) (f : MigrationFile)
    (w : Store C (Change D F)) : FileRun C D F :=
  let existing := checksumOf (version f) (((slots n).before w).view (slots n).conn)
  let (w, ok) := (slots n).call [.read] w
  if !ok then ⟨.threw .unknown, n + 1, w⟩
  else match existing with
  | some checksum =>
    if checksum ≠ s.sha256 f.sql then
      ⟨.threw (.error ("Migration " ++ f.fileName ++ " was already applied with a different checksum.")), n + 1, w⟩
    else ⟨.skipped, n + 1, w⟩
  | none =>
    let (w, ok) := (slots (n + 1)).call [.begin] w
    if !ok then ⟨.threw .unknown, n + 2, w⟩
    else
      let (w, ok) := (slots (n + 2)).call ((s.script f.sql).map (Statement.map .schema)) w
      if !ok then ⟨.threw .unknown, n + 4, ((slots (n + 3)).call [.rollback] w).1⟩
      else
        let (w, ok) := (slots (n + 3)).call [.effect (recordOf s f)] w
        if !ok then ⟨.threw .unknown, n + 5, ((slots (n + 4)).call [.rollback] w).1⟩
        else
          let (w, ok) := (slots (n + 4)).call [.commit] w
          if !ok then ⟨.threw .unknown, n + 6, ((slots (n + 5)).call [.rollback] w).1⟩
          else ⟨.applied, n + 5, w⟩

/-- A run over files: those that are done with what happened to them, the file on which it threw, and the
    database. -/
structure Run (C D F : Type) where
  done : List (MigrationFile × Bool)
  threw : Option (MigrationFile × Exception)
  store : Store C (Change D F)

/-- The loop over the files, from the call number `n` on. -/
def runFiles (s : Server D) (slots : Nat → Slot C F) :
    List MigrationFile → Nat → List (MigrationFile × Bool) → Store C (Change D F) → Run C D F
  | [], _, done, w => ⟨done, none, w⟩
  | f :: files, n, done, w =>
    let r := migrateFile s slots n f w
    match r.result with
    | .applied => runFiles s slots files r.next (done ++ [(f, true)]) r.store
    | .skipped => runFiles s slots files r.next (done ++ [(f, false)]) r.store
    | .threw e => ⟨done, some (f, e), r.store⟩

/-- The files of a directory that are migrations, in their order. -/
def migrationFiles (directory : List MigrationFile) : List MigrationFile :=
  (Data.sortStrings ((directory.map MigrationFile.fileName).filter fun name =>
    name.toList.drop (name.length - 4) = ".sql".toList)).filterMap fun name =>
      directory.find? fun f => f.fileName == name

/-- `runSqlMigrations` after the directory is found: the table of the rows is made first. -/
def runSqlMigrations (s : Server D) (directory : List MigrationFile) (slots : Nat → Slot C F)
    (w : Store C (Change D F)) : Option (Run C D F) :=
  let (w, ok) := (slots 0).call [.effect .table] w
  if ok then some (runFiles s slots (migrationFiles directory) 1 [] w) else none

/-! ## All or nothing -/

/-- A change that a migration makes or that records it. -/
def own : Change D F → Bool
  | .schema _ => true
  | .row _ _ _ => true
  | .table => false
  | .other _ => false

/-- The changes of a file: those of its script and its row. -/
def changes (s : Server D) (f : MigrationFile) : List (Change D F) :=
  ((s.script f.sql).filterMap Statement.change).map .schema ++ [recordOf s f]

/-- Each file is all or nothing: of the changes of the files just those of the applied ones have been
    committed and none is pending, every file that is done has its row, and these are all the files before
    the one on which the run threw. -/
structure AllOrNothing (s : Server D) (files : List MigrationFile) (db : List (Change D F))
    (r : Run C D F) : Prop where
  committed : r.store.committed.filter own =
    db.filter own ++ (r.done.filter Prod.snd).flatMap fun p => changes s p.1
  pending : ∀ c, (r.store.session c).pending.filter own = []
  recorded : ∀ p ∈ r.done, ∃ name, .row (version p.1) name (s.sha256 p.1.sql) ∈ r.store.committed
  earlier : ∀ f e, r.threw = some (f, e) → ∃ rest, files = r.done.map Prod.fst ++ f :: rest

/-- One connection serves the queries for a file from its `BEGIN` up to its `COMMIT` or the one that fails:
    it is in no transaction at first, others leave its transaction alone in between, and the script does not
    control the transaction itself. -/
def Together (s : Server D) (slots : Nat → Slot C F) (n : Nat) (f : MigrationFile)
    (w : Store C (Change D F)) : Prop :=
  n + 1 < (migrateFile s slots n f w).next →
    (∀ st ∈ s.script f.sql, st.Plain) ∧
    ((slots (n + 1)).before ((slots n).call [.read] w).1).session (slots (n + 1)).conn = .idle ∧
    ∀ k, n + 2 ≤ k → k < (migrateFile s slots n f w).ended →
      (slots k).conn = (slots (n + 1)).conn ∧ (slots k).Spares (slots (n + 1)).conn

/-- One connection serves the transaction of a file, for every file that the run gets to. -/
def AllTogether (s : Server D) (slots : Nat → Slot C F) :
    List MigrationFile → Nat → Store C (Change D F) → Prop
  | [], _, _ => True
  | f :: files, n, w =>
    Together s slots n f w ∧
      ((∀ e, (migrateFile s slots n f w).result ≠ .threw e) →
        AllTogether s slots files (migrateFile s slots n f w).next (migrateFile s slots n f w).store)

/-! ## Queries -/

/-- No change of a migration is pending on a connection but `c`. -/
def ClearBut (c : Option C) (w : Store C (Change D F)) : Prop :=
  ∀ c', some c' ≠ c → (w.session c').pending.filter own = []

/-- The changes of migrations that have been committed. -/
def migrated (w : Store C (Change D F)) : List (Change D F) := w.committed.filter own

variable {s : Server D} {slots : Nat → Slot C F} {slot : Slot C F} {n : Nat} {f : MigrationFile}
  {w : Store C (Change D F)} {c : C} {h : Option C} {sts : List (Statement (Change D F))}

/-- A query that makes no change of a migration, on a connection where none is pending. -/
lemma query_clear (fails : Option Nat) (clear : ClearBut h w) (off : some c ≠ h)
    (free : ∀ st ∈ sts, ∀ e ∈ st.change, own e = false) :
    ClearBut h (w.query c sts fails).1 ∧ migrated (w.query c sts fails).1 = migrated w := by
  obtain ⟨committed, pending⟩ :=
    Session.run_filter fails w.committed free (clear c off)
  refine ⟨fun c' off' => ?_, committed⟩
  by_cases same : c' = c
  · subst same
    rwa [Store.session_query_self]
  · rw [Store.session_query_of_ne same]
    exact clear c' off'

/-- The statements of a file leave the rows of the migrations alone. -/
lemma foreign_free (sts : List (Statement F)) :
    ∀ st ∈ sts.map (Statement.map (Change.other (D := D))), ∀ e ∈ st.change, own e = false := by
  rw [List.forall_mem_map]
  intro st _ e change
  cases st with
  | effect x =>
    cases change
    rfl
  | read => cases change
  | begin => cases change
  | commit => cases change
  | rollback => cases change

omit [DecidableEq C] in
/-- Plain statements stay plain among other changes. -/
lemma plain_map {E E' : Type} {sts : List (Statement E)} (f : E → E') (plain : ∀ st ∈ sts, st.Plain) :
    ∀ st ∈ sts.map (Statement.map f), st.Plain := by
  rw [List.forall_mem_map]
  intro st mem
  have here := plain st mem
  cases st with
  | effect d => trivial
  | read => trivial
  | begin => exact here
  | commit => exact here
  | rollback => exact here

/-- Others neither make nor commit a change of a migration where none is pending. -/
lemma before_clear (slot : Slot C F) (clear : ClearBut none w) :
    ClearBut none (slot.before w) ∧ migrated (slot.before w) = migrated w := by
  rw [Slot.before]
  induction slot.others generalizing w with
  | nil => exact ⟨clear, rfl⟩
  | cons o others ih =>
    obtain ⟨clear', same⟩ := query_clear o.2.2 clear nofun (foreign_free o.2.1)
    obtain ⟨clear'', same'⟩ := ih clear'
    exact ⟨clear'', same'.trans same⟩

/-- A call that makes no change of a migration, while none is pending. -/
lemma call_clear (slot : Slot C F) (sts : List (Statement (Change D F))) (clear : ClearBut none w)
    (free : ∀ st ∈ sts, ∀ e ∈ st.change, own e = false) :
    ClearBut none (slot.call sts w).1 ∧ migrated (slot.call sts w).1 = migrated w := by
  obtain ⟨clear, same⟩ := before_clear slot clear
  obtain ⟨clear, same'⟩ := query_clear slot.fails clear nofun free
  exact ⟨clear, same'.trans same⟩

/-- The transaction of a connection has these changes of migrations pending, and no other has any. -/
def Held (c : C) (es : List (Change D F)) (w : Store C (Change D F)) : Prop :=
  (∃ pending, w.session c = .active pending ∧ pending.filter own = es) ∧ ClearBut (some c) w

variable {es : List (Change D F)}

omit [DecidableEq C] in
/-- A store that is clear everywhere is clear but for a session. -/
lemma but_of_clear (clear : ClearBut none w) : ClearBut (some c) w := fun c' _ => clear c' nofun

variable {session : Session (Change D F)} {db pending : List (Change D F)}

/-- A store that is clear but for a session stays so when that session moves. -/
lemma but_update (clear : ClearBut (some c) w) :
    ClearBut (some c) ⟨db, Function.update w.session c session⟩ := by
  intro c' other
  change (Function.update w.session c session c').pending.filter own = []
  rw [Function.update_of_ne fun eq => other (congrArg some eq)]
  exact clear c' other

/-- A store is clear again when its session has nothing pending of its own. -/
lemma clear_update (clear : ClearBut (some c) w) (here : session.pending.filter own = []) :
    ClearBut none ⟨db, Function.update w.session c session⟩ := by
  intro c' _
  by_cases same : c' = c
  · subst same
    change (Function.update w.session c' session c').pending.filter own = []
    rwa [Function.update_self]
  · exact but_update clear c' fun eq => same (Option.some.inj eq)

/-- What is pending in a session is held there. -/
lemma held_update (clear : ClearBut (some c) w) :
    Held c (pending.filter own) ⟨db, Function.update w.session c (.active pending)⟩ :=
  ⟨⟨pending, Function.update_self _ _ _, rfl⟩, but_update clear⟩

/-- What others query over the connection without ending its transaction leaves the changes of
    migrations there. -/
lemma query_held {sts : List (Statement F)} {fails : Option Nat} (held : Held c es w)
    (plain : ∀ st ∈ sts, st.Plain) (succeed : ∀ k ∈ fails, sts.length ≤ k) :
    Held c es (w.query c (sts.map (Statement.map .other)) fails).1 ∧
      migrated (w.query c (sts.map (Statement.map .other)) fails).1 = migrated w := by
  obtain ⟨⟨pending, active, rfl⟩, clear⟩ := held
  have none : ((sts.map (Statement.map (Change.other (D := D)))).filterMap Statement.change).filter own = [] := by
    apply List.filter_eq_nil_iff.2
    intro e mem
    obtain ⟨st, inside, change⟩ := List.mem_filterMap.1 mem
    simp [foreign_free sts st inside e change]
  have run := Session.run_spared pending w.committed (plain_map (Change.other (D := D)) plain)
    (by simpa using succeed)
  simp only [Store.query, active, run]
  refine ⟨?_, rfl⟩
  have mine : (pending ++ (sts.map (Statement.map Change.other)).filterMap Statement.change).filter own =
      pending.filter own := by rw [List.filter_append, none, List.append_nil]
  rw [← mine]
  exact held_update clear

/-- What is held by a connection stays there while others leave its transaction alone. -/
lemma before_held (held : Held c es w) (spares : slot.Spares c) :
    Held c es (slot.before w) ∧ migrated (slot.before w) = migrated w := by
  rw [Slot.before]
  rw [Slot.Spares] at spares
  generalize slot.others = others at spares
  induction others generalizing w with
  | nil => exact ⟨held, rfl⟩
  | cons o others ih =>
    obtain ⟨here, later⟩ := List.forall_mem_cons.1 spares
    have step : Held c es (foreign w o) ∧ migrated (foreign w o) = migrated w := by
      by_cases mine : o.1 = c
      · obtain ⟨plain, succeed⟩ := here mine
        have kept := query_held held plain succeed
        rwa [← mine] at kept ⊢
      · obtain ⟨⟨pending, active, eq⟩, clear⟩ := held
        obtain ⟨clear, same⟩ := query_clear o.2.2 clear (fun eq => mine (Option.some.inj eq))
          (foreign_free o.2.1)
        have left : (foreign w o).session c = w.session c :=
          Store.session_query_of_ne fun eq => mine eq.symm
        exact ⟨⟨⟨pending, left.trans active, eq⟩, clear⟩, same⟩
    obtain ⟨kept, same⟩ := ih step.1 later
    exact ⟨kept, same.trans step.2⟩

/-- `BEGIN` on an idle connection. -/
lemma call_begin (clear : ClearBut none w) (idle : (slot.before w).session slot.conn = .idle) :
    migrated (slot.call [.begin] w).1 = migrated w ∧
      ((slot.call [.begin] w).2 = true → Held slot.conn [] (slot.call [.begin] w).1) ∧
      ((slot.call [.begin] w).2 = false → ClearBut none (slot.call [.begin] w).1) := by
  obtain ⟨clear, same⟩ := before_clear slot clear
  rcases Session.run_begin slot.fails (slot.before w).committed with ok | failed
  · simp only [Slot.call, Store.query, idle, ok]
    exact ⟨same, fun _ => held_update (but_of_clear clear), nofun⟩
  · simp only [Slot.call, Store.query, idle, failed]
    exact ⟨same, nofun, fun _ => clear_update (but_of_clear clear) rfl⟩

/-- A query of plain statements in the transaction of its connection. -/
lemma call_plain (sts : List (Statement (Change D F))) (held : Held c es w) (conn : slot.conn = c)
    (spares : slot.Spares c) (plain : ∀ st ∈ sts, st.Plain) :
    migrated (slot.call sts w).1 = migrated w ∧
      ((slot.call sts w).2 = true →
        Held c (es ++ (sts.filterMap Statement.change).filter own) (slot.call sts w).1) ∧
      ((slot.call sts w).2 = false → ClearBut none (slot.call sts w).1) := by
  subst conn
  obtain ⟨⟨⟨pending, active, rfl⟩, clear⟩, same⟩ := before_held held spares
  rcases Session.run_plain slot.fails pending (slot.before w).committed plain with ok | failed
  · simp only [Slot.call, Store.query, active, ok, ← List.filter_append]
    exact ⟨same, fun _ => held_update clear, nofun⟩
  · simp only [Slot.call, Store.query, active, failed]
    exact ⟨same, nofun, fun _ => clear_update clear rfl⟩

/-- `COMMIT` in the transaction of its connection. -/
lemma call_commit (held : Held c es w) (conn : slot.conn = c) (spares : slot.Spares c) :
    ClearBut none (slot.call [.commit] w).1 ∧
      migrated (slot.call [.commit] w).1 = migrated w ++ if (slot.call [.commit] w).2 then es else [] := by
  subst conn
  obtain ⟨⟨⟨pending, active, rfl⟩, clear⟩, same⟩ := before_held held spares
  rcases Session.run_commit slot.fails pending (slot.before w).committed with ok | failed
  · simp only [Slot.call, Store.query, active, ok]
    refine ⟨clear_update clear rfl, ?_⟩
    rw [← same]
    exact List.filter_append ..
  · simp only [Slot.call, Store.query, active, failed]
    exact ⟨clear_update clear rfl, by simpa [migrated] using same⟩

/-! ## Files -/

/-- The statements of a file that change something are those of its text. -/
lemma changes_schema {sts : List (Statement D)} :
    ((sts.map (Statement.map (Change.schema (F := F)))).filterMap Statement.change).filter own =
      (sts.filterMap Statement.change).map .schema := by
  induction sts with
  | nil => rfl
  | cons st sts ih =>
    cases st with
    | effect d => exact congrArg (Change.schema d :: ·) ih
    | read => exact ih
    | begin => exact ih
    | commit => exact ih
    | rollback => exact ih

/-- A checksum that is found is recorded for a file. -/
lemma mem_of_checksumOf {name checksum : String} {db : List (Change D F)}
    (found : checksumOf name db = some checksum) : ∃ file, .row name file checksum ∈ db := by
  obtain ⟨x, mem, eq⟩ := List.exists_of_findSome?_eq_some found
  cases x with
  | row v file checksum' =>
    simp only [Option.ite_none_right_eq_some, Option.some.injEq] at eq
    obtain ⟨rfl, rfl⟩ := eq
    exact ⟨file, mem⟩
  | schema d => cases eq
  | table => cases eq
  | other x => cases eq

/-- What a file leaves: nothing of a migration is pending, just an applied file has committed its changes,
    and a skipped one is recorded. -/
structure Filed (s : Server D) (f : MigrationFile) (w : Store C (Change D F)) (r : FileRun C D F) : Prop where
  clear : ClearBut none r.store
  changed : migrated r.store = migrated w ++ match r.result with | .applied => changes s f | _ => []
  recorded : r.result = .skipped →
    ∃ name, Change.row (version f) name (s.sha256 f.sql) ∈ r.store.committed

/-- A file that is rolled back has left what was migrated. -/
lemma filed_of_rollback {next : Nat} {e : Exception} {w' : Store C (Change D F)} (clear : ClearBut none w')
    (same : migrated w' = migrated w) : Filed s f w ⟨.threw e, next, (slot.call [.rollback] w').1⟩ := by
  obtain ⟨clear, same'⟩ := call_clear slot [.rollback] clear (by simp [Statement.change])
  exact ⟨clear, by simp [same', same], by simp⟩

/-- A file whose transaction one connection serves is all or nothing. -/
theorem migrateFile_filed (clear : ClearBut none w) (together : Together s slots n f w) :
    Filed s f w (migrateFile s slots n f w) := by
  rw [Together] at together
  have read := call_clear (slots n) [.read] clear (by simp [Statement.change])
  generalize eq : migrateFile s slots n f w = r at together
  rw [migrateFile] at eq
  split at eq
  next w₁ ok₁ call₁ =>
  rw [call₁] at read together
  split at eq
  · subst eq
    exact ⟨read.1, by simp [read.2], by simp⟩
  · split at eq
    · next checksum found =>
      split at eq
      · subst eq
        exact ⟨read.1, by simp [read.2], by simp⟩
      · next same =>
        subst eq
        obtain ⟨name, mem⟩ := mem_of_checksumOf found
        simp only [ne_eq, not_not] at same
        refine ⟨read.1, by simp [read.2], fun _ => ⟨name, ?_⟩⟩
        -- the row is read where no change of a migration is pending, so it is committed
        obtain ⟨clear', before⟩ := before_clear (slots n) clear
        have inside : Change.row (version f) name checksum ∈ migrated ((slots n).before w) := by
          rcases List.mem_append.1 mem with mem | mem
          · exact List.mem_filter.2 ⟨mem, rfl⟩
          · have none := clear' (slots n).conn (by simp)
            exact absurd (List.mem_filter.2 ⟨mem, rfl⟩) (none ▸ List.not_mem_nil)
        rw [before, ← read.2, same] at inside
        exact (List.mem_filter.1 inside).1
    · split at eq
      next w₂ ok₂ call₂ =>
      have late : n + 1 < r.next := by
        repeat' split at eq
        all_goals subst eq; simp
      obtain ⟨plain, idle, one⟩ := together late
      obtain ⟨same₂, held₂, clear₂⟩ := call_begin read.1 idle
      rw [call₂] at same₂ held₂ clear₂
      have same₂ := same₂.trans read.2
      split at eq
      · next failed =>
        subst eq
        exact ⟨clear₂ (by simpa using failed), by simp [same₂], by simp⟩
      · next began =>
        split at eq
        next w₃ ok₃ call₃ =>
        have late : n + 2 < r.ended := by
          repeat' split at eq
          all_goals subst eq; simp [FileRun.ended]
        obtain ⟨conn, spares⟩ := one (n + 2) le_rfl late
        obtain ⟨same₃, held₃, clear₃⟩ :=
          call_plain _ (held₂ (by simpa using began)) conn spares (plain_map .schema plain)
        rw [call₃, changes_schema, List.nil_append] at held₃
        rw [call₃] at same₃ clear₃
        have same₃ := same₃.trans same₂
        split at eq
        · next failed =>
          subst eq
          exact filed_of_rollback (clear₃ (by simpa using failed)) same₃
        · next ran =>
          split at eq
          next w₄ ok₄ call₄ =>
          have late : n + 3 < r.ended := by
            repeat' split at eq
            all_goals subst eq; simp [FileRun.ended]
          obtain ⟨conn, spares⟩ := one (n + 3) (by omega) late
          obtain ⟨same₄, held₄, clear₄⟩ :=
            call_plain [.effect (recordOf s f)] (held₃ (by simpa using ran)) conn spares (by simp [Statement.Plain])
          rw [call₄] at same₄ held₄ clear₄
          have same₄ := same₄.trans same₃
          split at eq
          · next failed =>
            subst eq
            exact filed_of_rollback (clear₄ (by simpa using failed)) same₄
          · next recorded =>
            split at eq
            next w₅ ok₅ call₅ =>
            have late : n + 4 < r.ended := by
              repeat' split at eq
              all_goals subst eq; simp [FileRun.ended]
            obtain ⟨conn, spares⟩ := one (n + 4) (by omega) late
            obtain ⟨clear₅, same₅⟩ := call_commit (held₄ (by simpa using recorded)) conn spares
            rw [call₅] at clear₅ same₅
            rw [same₄] at same₅
            split at eq
            · next failed =>
              subst eq
              have lost : ok₅ = false := by simpa using failed
              exact filed_of_rollback clear₅ (by simpa [lost] using same₅)
            · next committed =>
              subst eq
              have ended : ok₅ = true := by simpa using committed
              rw [ended, if_pos rfl] at same₅
              exact ⟨clear₅, same₅, by simp⟩

/-! ## Runs -/

variable {files : List MigrationFile} {done : List (MigrationFile × Bool)}

/-- What holds between two files: nothing of a migration is pending, just the applied files have committed
    their changes, and all files that are done are recorded. -/
structure Between (s : Server D) (db : List (Change D F)) (done : List (MigrationFile × Bool))
    (w : Store C (Change D F)) : Prop where
  clear : ClearBut none w
  changed : migrated w = db.filter own ++ (done.filter Prod.snd).flatMap fun p => changes s p.1
  recorded : ∀ p ∈ done, ∃ name, Change.row (version p.1) name (s.sha256 p.1.sql) ∈ w.committed

omit [DecidableEq C] in
/-- What was committed stays so. -/
lemma mem_committed {x : Change D F} {w' : Store C (Change D F)} (mem : x ∈ w.committed) (mine : own x = true)
    (kept : ∃ more, migrated w' = migrated w ++ more) : x ∈ w'.committed := by
  obtain ⟨more, eq⟩ := kept
  have inside : x ∈ migrated w' := eq ▸ List.mem_append_left _ (List.mem_filter.2 ⟨mem, mine⟩)
  exact (List.mem_filter.1 inside).1

omit [DecidableEq C] in
/-- A file that does not throw is done. -/
lemma between_step {r : FileRun C D F} {applied : Bool} (between : Between s db done w) (filed : Filed s f w r)
    (result : r.result = if applied then .applied else .skipped) :
    Between s db (done ++ [(f, applied)]) r.store := by
  obtain ⟨clear, changed, skipped⟩ := filed
  rw [result] at changed skipped
  have kept : ∃ more, migrated r.store = migrated w ++ more := ⟨_, changed⟩
  refine ⟨clear, ?_, ?_⟩
  · rw [changed, between.changed]
    cases applied <;> simp
  · intro p mem
    rcases List.mem_append.1 mem with mem | mem
    · obtain ⟨name, row⟩ := between.recorded p mem
      exact ⟨name, mem_committed row rfl kept⟩
    · rw [List.mem_singleton.1 mem]
      cases applied with
      | false => exact skipped rfl
      | true =>
        have inside : recordOf s f ∈ migrated r.store := by
          rw [changed]
          simp [changes]
        exact ⟨f.fileName, (List.mem_filter.1 inside).1⟩

/-- The loop, from a state between two files. -/
theorem runFiles_allOrNothing (between : Between s db done w) (together : AllTogether s slots files n w) :
    AllOrNothing s (done.map Prod.fst ++ files) db (runFiles s slots files n done w) := by
  induction files generalizing n done w with
  | nil =>
    rw [runFiles]
    exact ⟨between.changed, fun c => between.clear c (by simp), between.recorded, fun f e threw => by cases threw⟩
  | cons f files ih =>
    obtain ⟨here, later⟩ := together
    have filed := migrateFile_filed between.clear here
    have appended (b : Bool) : done.map Prod.fst ++ f :: files = (done ++ [(f, b)]).map Prod.fst ++ files := by simp
    rw [runFiles]
    cases result : (migrateFile s slots n f w).result with
    | applied =>
      rw [appended true]
      exact ih (between_step between filed result) (later fun e threw => by rw [result] at threw; cases threw)
    | skipped =>
      rw [appended false]
      exact ih (between_step between filed result) (later fun e threw => by rw [result] at threw; cases threw)
    | threw e =>
      obtain ⟨clear, changed, _⟩ := filed
      rw [result] at changed
      simp only [List.append_nil] at changed
      refine ⟨changed.trans between.changed, fun c => clear c (by simp), fun p mem => ?_, fun f' e' threw => ?_⟩
      · obtain ⟨name, row⟩ := between.recorded p mem
        exact ⟨name, mem_committed row rfl ⟨[], by simpa using changed⟩⟩
      · cases threw
        exact ⟨files, rfl⟩

/-- In every run in which one connection serves the transaction of each file, each file is all or nothing. -/
theorem migrations_all_or_nothing (s : Server D) (directory : List MigrationFile) (slots : Nat → Slot C F)
    (db : List (Change D F))
    (together : AllTogether s slots (migrationFiles directory) 1
      ((slots 0).call [.effect .table] (.ofCommitted db)).1) :
    ∀ r, runSqlMigrations s directory slots (.ofCommitted db) = some r →
      AllOrNothing s (migrationFiles directory) db r := by
  intro r eq
  have start : ClearBut none (Store.ofCommitted (C := C) db) := fun _ _ => rfl
  obtain ⟨clear, same⟩ := call_clear (slots 0) [.effect .table] start (by simp [Statement.change, own])
  rw [runSqlMigrations] at eq
  split at eq
  next w ok call =>
  rw [call] at clear same together
  split at eq
  · cases eq
    have between : Between s db [] w := ⟨clear, by simpa [migrated, Store.ofCommitted] using same, by simp⟩
    exact runFiles_allOrNothing between together
  · cases eq

/-! ## Two connections -/

/-- A server that reads every script as one change. -/
def sampleServer : Server String := ⟨fun sql => [.effect sql], id⟩

/-- A directory with one migration. -/
def sampleDirectory : List MigrationFile := [⟨"001_init.sql", "CREATE TABLE t"⟩]

/-- The insert of the row fails on the connection that serves the transaction, over which somebody else
    reads in between. The pool closes that connection, and `ROLLBACK` is given to the other one. -/
def onOne (n : Nat) : Slot Bool Unit where
  others := if n = 4 then [(false, [.read], none)] else []
  conn := decide (n = 5)
  fails := if n = 4 then some 0 else none

/-- The insert of the row fails, and the script and the insert are given to the second connection. -/
def onTwo (n : Nat) : Slot Bool Unit := { conn := n = 3 ∨ n = 4, fails := if n = 4 then some 0 else none }

/-- On one connection a failing file leaves the files before it recorded and nothing of itself. -/
theorem all_or_nothing_on_one :
    ∃ r, runSqlMigrations sampleServer sampleDirectory onOne (.ofCommitted []) = some r ∧
      r.threw.isSome = true ∧ AllOrNothing sampleServer (migrationFiles sampleDirectory) [] r := by
  have together : Together sampleServer onOne 1 ⟨"001_init.sql", "CREATE TABLE t"⟩
      ((onOne 0).call [.effect .table] (.ofCommitted [])).1 := by
    refine fun _ => ⟨?_, rfl, fun k _ lt => ?_⟩
    · intro st mem
      cases List.mem_singleton.1 mem
      trivial
    · have before : k ≠ 5 := Nat.ne_of_lt lt
      refine ⟨decide_eq_false before, fun o mem _ => ?_⟩
      have reads : o = (false, [.read], none) := by
        rw [onOne] at mem
        split at mem
        · exact List.mem_singleton.1 mem
        · cases mem
      subst reads
      exact ⟨by simp [Statement.Plain], by simp⟩
  exact ⟨_, rfl, rfl, migrations_all_or_nothing sampleServer sampleDirectory onOne [] ⟨together, fun _ => trivial⟩
    _ rfl⟩

/-- The failed migration stays: its script was committed on the second connection, and the transaction
    that is rolled back is that of the first. -/
theorem nothing_lost_on_two :
    ∃ r, runSqlMigrations sampleServer sampleDirectory onTwo (.ofCommitted []) = some r ∧
      r.threw.isSome = true ∧ ¬ AllOrNothing sampleServer (migrationFiles sampleDirectory) [] r := by
  refine ⟨_, rfl, rfl, fun claim => ?_⟩
  have stays : [Change.schema (F := Unit) "CREATE TABLE t"] = [] := claim.committed
  cases stays

end AvaSettle.Database.Migrations
