import Mathlib.Data.List.Sort
import Mathlib.Data.String.Basic
import ModelGate.Data.Text
import ModelGate.Errors

/-! `ApplyMigrations` of `internal/storage` over any sequence of startups.

A run works in one transaction: on a copy of the committed database that
replaces it at the commit and is discarded by any error before. The advisory
lock lets one run at a time, so a history is a list of runs. A run may fail at
any step of its own; scripts neither commit nor write `schema_migrations`.
-/

set_option autoImplicit false

namespace ModelGate.Storage

open Data

/-- The root of a file system: names, with whether they are directories, and the contents of
its files. -/
structure FileSystem where
  entries : List (String × Bool)
  contents : String → Bytes
  distinct : (entries.map Prod.fst).Nodup

/-- The rows of `schema_migrations` and the scripts executed, each under its file name. -/
structure Database where
  versions : List String
  executed : List (String × Bytes)

def Database.empty : Database := ⟨[], []⟩

/-- The steps of a run that can fail. Those of the loop are counted by file. -/
inductive Step where
  | begin
  | lock
  | create
  | list
  | check (index : Nat)
  | read (index : Nat)
  | apply (index : Nat)
  | record (index : Nat)
  | commit

/-- The error each step of a run would fail with. -/
abbrev Faults := Step → Option Err

def attempt (faults : Faults) (step : Step) (message : String) : Except Err Unit :=
  match faults step with
  | some err => .error (.wrap message err)
  | none => .ok ()

/-- A directory listing as `ApplyMigrations` sorts it. Strings are ordered by code point,
which is the order of their UTF-8 bytes. -/
def migrationFiles (fs : FileSystem) : List String :=
  let files := fs.entries.filter fun (name, isDir) => !isDir && ".sql".toList.isSuffixOf name.toList
  (files.map Prod.fst).insertionSort (· ≤ ·)

/-- The body of the loop. The check reads the transaction's own rows. -/
def applyFile (faults : Faults) (fs : FileSystem) (index : Nat) (name : String) (tx : Database) :
    Except Err Database := do
  attempt faults (.check index) ("check migration " ++ name)
  if name ∈ tx.versions then pure tx
  else
    attempt faults (.read index) ("read migration " ++ name)
    let contents := fs.contents name
    attempt faults (.apply index) ("apply migration " ++ name)
    let tx := { tx with executed := tx.executed ++ [(name, contents)] }
    attempt faults (.record index) ("record migration " ++ name)
    pure { tx with versions := tx.versions ++ [name] }

def applyFiles (faults : Faults) (fs : FileSystem) :
    Nat → List String → Database → Except Err Database
  | _, [], tx => pure tx
  | index, name :: names, tx => do
      let tx ← applyFile faults fs index name tx
      applyFiles faults fs (index + 1) names tx

/-- What a run does in its transaction before the commit. -/
def migrate (faults : Faults) (fs : FileSystem) (tx : Database) : Except Err Database := do
  attempt faults .lock "acquire migration lock"
  attempt faults .create "create schema_migrations"
  attempt faults .list "list migrations"
  applyFiles faults fs 0 (migrationFiles fs) tx

/-- The deferred rollback discards the transaction unless it has been committed. -/
def ApplyMigrations (faults : Faults) (fs : FileSystem) (db : Database) : Database × Option Err :=
  match attempt faults .begin "begin migration transaction" with
  | .error err => (db, some err)
  | .ok _ =>
      match migrate faults fs db with
      | .error err => (db, some err)
      | .ok tx =>
          match attempt faults .commit "commit migrations" with
          | .error err => (db, some err)
          | .ok _ => (tx, none)

structure Startup where
  fs : FileSystem
  faults : Faults

def startups (db : Database) (runs : List Startup) : Database :=
  runs.foldl (fun db run => (ApplyMigrations run.faults run.fs db).1) db

/-! What a run may execute -/

def IsMigration (fs : FileSystem) (name : String) : Prop :=
  (name, false) ∈ fs.entries ∧ ".sql".toList <:+ name.toList

theorem mem_migrationFiles {fs : FileSystem} {name : String} :
    name ∈ migrationFiles fs ↔ IsMigration fs name := by
  simp only [migrationFiles, List.mem_insertionSort, List.mem_map, List.mem_filter,
    Bool.and_eq_true, Bool.not_eq_true', List.isSuffixOf_iff_suffix, IsMigration]
  constructor
  · rintro ⟨⟨_, _⟩, ⟨listed, rfl, suffix⟩, rfl⟩
    exact ⟨listed, suffix⟩
  · rintro ⟨listed, suffix⟩
    exact ⟨(name, false), ⟨listed, rfl, suffix⟩, rfl⟩

theorem migrationFiles_increasing (fs : FileSystem) : (migrationFiles fs).Pairwise (· < ·) := by
  have sublist := (List.filter_sublist (p := fun entry : String × Bool =>
    !entry.2 && ".sql".toList.isSuffixOf entry.1.toList) (l := fs.entries)).map Prod.fst
  have distinct : (migrationFiles fs).Nodup :=
    (List.perm_insertionSort (· ≤ ·) _).nodup_iff.mpr (fs.distinct.sublist sublist)
  have sorted : (migrationFiles fs).Pairwise (· ≤ ·) := List.pairwise_insertionSort _ _
  exact (sorted.and distinct).imp fun both => lt_of_le_of_ne both.1 both.2

/-- The files of a list that a database has not applied yet. -/
def pending (db : Database) (names : List String) : List String := names.filter (· ∉ db.versions)

/-- A database after the files of a list have been executed and recorded. -/
def Database.extended (db : Database) (fs : FileSystem) (names : List String) : Database :=
  ⟨db.versions ++ names, db.executed ++ names.map fun name => (name, fs.contents name)⟩

theorem Database.extended_nil (db : Database) (fs : FileSystem) : db.extended fs [] = db := by
  simp [extended]

theorem Database.extended_cons (db : Database) (fs : FileSystem) (name : String)
    (names : List String) :
    (db.extended fs [name]).extended fs names = db.extended fs (name :: names) := by
  simp [extended]

theorem attempt_of_none {faults : Faults} {step : Step} (sound : faults step = none)
    (message : String) : attempt faults step message = .ok () := by
  rw [attempt, sound]

theorem applyFile_ok {faults : Faults} {fs : FileSystem} {index : Nat} {name : String}
    {tx after : Database} (ran : applyFile faults fs index name tx = .ok after) :
    after = tx.extended fs (pending tx [name]) := by
  unfold applyFile at ran
  simp only [bind, Except.bind] at ran
  split at ran
  · cases ran
  · split at ran
    · rename_i applied
      cases ran
      simp [pending, applied, Database.extended_nil]
    · rename_i fresh
      split at ran
      · cases ran
      · split at ran
        · cases ran
        · split at ran
          · cases ran
          · cases ran
            simp [pending, fresh, Database.extended]

theorem pending_extended {db : Database} {fs : FileSystem} {name : String} {names : List String}
    (distinct : name ∉ names) :
    pending (db.extended fs (pending db [name])) names = pending db names := by
  apply List.filter_congr
  intro other member
  have differs : other ≠ name := fun same => distinct (same ▸ member)
  by_cases applied : name ∈ db.versions <;> simp [pending, Database.extended, applied, differs]

theorem applyFiles_ok {faults : Faults} {fs : FileSystem} {names : List String} {index : Nat}
    {tx after : Database} (distinct : names.Nodup)
    (ran : applyFiles faults fs index names tx = .ok after) :
    after = tx.extended fs (pending tx names) := by
  induction names generalizing index tx with
  | nil =>
      cases ran
      exact (Database.extended_nil _ _).symm
  | cons name names ih =>
      obtain ⟨fresh, distinct⟩ := List.nodup_cons.mp distinct
      rw [applyFiles] at ran
      simp only [bind, Except.bind] at ran
      split at ran
      · cases ran
      · rename_i first one
        have rest := ih distinct ran
        obtain rfl := applyFile_ok one
        rw [pending_extended fresh] at rest
        rw [rest]
        by_cases applied : name ∈ tx.versions
        · simp [pending, applied, Database.extended_nil]
        · simp [pending, applied, Database.extended_cons]

theorem applyFiles_sound {faults : Faults} (sound : ∀ step, faults step = none) (fs : FileSystem)
    (names : List String) (index : Nat) (tx : Database) :
    ∃ after, applyFiles faults fs index names tx = .ok after := by
  induction names generalizing index tx with
  | nil => exact ⟨tx, rfl⟩
  | cons name names ih =>
      have one : ∃ first, applyFile faults fs index name tx = .ok first := by
        simp only [applyFile, attempt_of_none (sound _), bind, Except.bind, pure, Except.pure]
        split <;> exact ⟨_, rfl⟩
      obtain ⟨first, one⟩ := one
      obtain ⟨after, rest⟩ := ih (index + 1) first
      refine ⟨after, ?_⟩
      simp only [applyFiles, bind, Except.bind, one, rest]

/-! Runs -/

/-- A run fails and changes nothing, or it commits what was pending. -/
theorem applyMigrations_cases (faults : Faults) (fs : FileSystem) (db : Database) :
    (∃ err, ApplyMigrations faults fs db = (db, some err)) ∨
      ApplyMigrations faults fs db = (db.extended fs (pending db (migrationFiles fs)), none) := by
  unfold ApplyMigrations
  split
  · exact .inl ⟨_, rfl⟩
  · split
    · exact .inl ⟨_, rfl⟩
    · rename_i tx ran
      split
      · exact .inl ⟨_, rfl⟩
      · simp only [migrate, bind, Except.bind] at ran
        split at ran
        · cases ran
        · split at ran
          · cases ran
          · split at ran
            · cases ran
            · rw [applyFiles_ok (migrationFiles_increasing fs).nodup ran]
              exact .inr rfl

theorem applyMigrations_sound {faults : Faults} (sound : ∀ step, faults step = none)
    (fs : FileSystem) (db : Database) : (ApplyMigrations faults fs db).2 = none := by
  obtain ⟨after, ran⟩ := applyFiles_sound sound fs (migrationFiles fs) 0 db
  simp only [ApplyMigrations, migrate, attempt_of_none (sound _), bind, Except.bind, ran]

/-- Every script executed is recorded, once. -/
structure Recorded (db : Database) : Prop where
  names : db.executed.map Prod.fst = db.versions
  once : db.versions.Nodup

theorem recorded_extended {db : Database} (recorded : Recorded db) (fs : FileSystem)
    {names : List String} (distinct : names.Nodup) :
    Recorded (db.extended fs (pending db names)) := by
  constructor
  · simp [Database.extended, recorded.names, Function.comp_def]
  · refine recorded.once.append (distinct.filter _) fun version old fresh => ?_
    have unapplied := (List.mem_filter.mp fresh).2
    simp [old] at unapplied

theorem recorded_run {db : Database} (recorded : Recorded db) (faults : Faults) (fs : FileSystem) :
    Recorded (ApplyMigrations faults fs db).1 := by
  rcases applyMigrations_cases faults fs db with ⟨err, failed⟩ | succeeded
  · rw [failed]
    exact recorded
  · rw [succeeded]
    exact recorded_extended recorded fs (migrationFiles_increasing fs).nodup

theorem recorded_startups (runs : List Startup) {db : Database} (recorded : Recorded db) :
    Recorded (startups db runs) := by
  induction runs generalizing db with
  | nil => exact recorded
  | cons run runs ih => exact ih (recorded_run recorded run.faults run.fs)

theorem pending_after (db : Database) (fs : FileSystem) (names : List String) :
    pending (db.extended fs (pending db names)) names = [] := by
  rw [pending, List.filter_eq_nil_iff]
  intro name member
  by_cases applied : name ∈ db.versions <;> simp [pending, Database.extended, applied, member]

/-- After any history of startups nothing has been executed twice; a further run that fails
changes nothing, one that succeeds applies exactly its pending files in increasing order and
leaves nothing to the same files, and one without a fault succeeds. -/
theorem migrations_once (runs : List Startup) (faults : Faults) (fs : FileSystem) :
    let db := startups .empty runs
    let after := (ApplyMigrations faults fs db).1
    let result := (ApplyMigrations faults fs db).2
    (after.executed.map Prod.fst).Nodup ∧
    (result ≠ none → after = db) ∧
    (result = none →
      (∀ version, version ∈ after.versions ↔ version ∈ db.versions ∨ IsMigration fs version) ∧
      (∃ fresh : List String, fresh.Pairwise (· < ·) ∧
        (∀ name, name ∈ fresh ↔ IsMigration fs name ∧ name ∉ db.versions) ∧
        after.executed = db.executed ++ fresh.map fun name => (name, fs.contents name)) ∧
      ∀ again, (ApplyMigrations again fs after).1 = after) ∧
    ((∀ step, faults step = none) → result = none) := by
  intro db after result
  have started : Recorded db := recorded_startups runs ⟨rfl, List.nodup_nil⟩
  have recorded : Recorded after := recorded_run started faults fs
  refine ⟨by rw [recorded.names]; exact recorded.once, ?_, fun succeeded => ?_, fun sound => ?_⟩
  · intro fails
    rcases applyMigrations_cases faults fs db with ⟨err, failed⟩ | succeeded
    · exact congrArg Prod.fst failed
    · exact absurd (congrArg Prod.snd succeeded) fails
  · have committed : after = db.extended fs (pending db (migrationFiles fs)) := by
      rcases applyMigrations_cases faults fs db with ⟨err, failed⟩ | committed
      · have fails : result = some err := congrArg Prod.snd failed
        rw [succeeded] at fails
        cases fails
      · exact congrArg Prod.fst committed
    have membership (name : String) :
        name ∈ pending db (migrationFiles fs) ↔ IsMigration fs name ∧ name ∉ db.versions := by
      rw [pending, List.mem_filter, mem_migrationFiles, decide_eq_true_eq]
    rw [committed]
    refine ⟨fun version => ?_, ⟨pending db (migrationFiles fs), ?_, membership, rfl⟩,
      fun again => ?_⟩
    · rw [Database.extended, List.mem_append, membership]
      tauto
    · exact (migrationFiles_increasing fs).filter _
    · -- Nothing is pending, so a further run commits the database it started from.
      rcases applyMigrations_cases again fs (db.extended fs (pending db (migrationFiles fs))) with
        ⟨err, failed⟩ | same
      · rw [failed]
      · rw [same, pending_after, Database.extended_nil]
  · exact applyMigrations_sound sound fs db

end ModelGate.Storage
