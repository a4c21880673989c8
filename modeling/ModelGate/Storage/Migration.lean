import ModelGate.Semantics.Finish
import ModelGate.Storage.Migrate

/-! `ApplyMigrations` statement by statement, on a database that other servers may start on.

What a transaction does is seen by itself alone until it commits. A statement
that fails ends its transaction, and with a transaction its advisory lock ends.
An operation on the embedded files says whether it failed. Scripts neither
commit nor touch `schema_migrations`; whether the database takes one is a
parameter, and depends on the scripts executed before it.
-/

set_option autoImplicit false

namespace ModelGate.Storage.Migration

open Data Semantics

/-! The database -/

structure Draft where
  locked : Bool
  created : Bool
  changes : Database

def Draft.empty : Draft := ⟨false, false, .empty⟩

structure Postgres where
  /-- Whether `schema_migrations` exists. -/
  table : Bool
  committed : Database
  transactions : List (Option Draft)

inductive Statement where
  | lock
  | create
  | apply (name : String) (contents : Bytes)
  | record (name : String)

/-- Whether a script can be executed after others. -/
abbrev Acceptance := List (String × Bytes) → Bytes → Bool

inductive Verdict where
  | takes (own : Draft)
  | refuses (err : Err)
  | waits

inductive Effect where
  | begin
  | exec (tx : Nat) (statement : Statement)
  | check (tx : Nat) (name : String)
  | readDir
  | readFile (name : String)
  | commit (tx : Nat)
  | rollback (tx : Nat)

abbrev effects : Signature where
  Op := Effect
  Reply
    | .begin => Except Err Nat
    | .check _ _ => Except Err Bool
    | .exec _ _ | .readDir | .readFile _ | .commit _ => Option Err
    | .rollback _ => Unit

def Effect.applies : Effect → Bool
  | .exec _ (.apply _ _) => true
  | _ => false

def Failing : (op : Effect) → effects.Reply op → Prop
  | .begin, reply => ∃ err, reply = .error err
  | .check _ _, reply => ∃ err, reply = .error err
  | .exec _ _, reply | .readDir, reply | .readFile _, reply | .commit _, reply => reply ≠ none
  | .rollback _, _ => False

namespace Postgres

variable (pg : Postgres) (accepts : Acceptance)

def start : Postgres := ⟨false, .empty, []⟩

def others (tx : Nat) : List Draft := (pg.transactions.set tx none).filterMap id

def sees (own : Draft) (name : String) : Bool :=
  name ∈ pg.committed.versions ++ own.changes.versions

def judge (tx : Nat) (own : Draft) : Statement → Verdict
  | .lock => if (pg.others tx).any Draft.locked then .waits else .takes { own with locked := true }
  | .create =>
      -- The creation of a table that another transaction is creating waits for it.
      if !pg.table && (pg.others tx).any Draft.created then .waits
      else .takes { own with created := true }
  | .apply name contents =>
      if accepts (pg.committed.executed ++ own.changes.executed) contents then
        .takes { own with
          changes := { own.changes with executed := own.changes.executed ++ [(name, contents)] } }
      else .refuses (.text "script cannot be executed")
  | .record name =>
      if !(pg.table || own.created) then .refuses (.text "schema_migrations does not exist")
      else if pg.sees own name then .refuses (.text "duplicate key in schema_migrations")
      else if (pg.others tx).any fun other => other.changes.versions.contains name then .waits
      else .takes { own with
        changes := { own.changes with versions := own.changes.versions ++ [name] } }

def opened : Postgres := { pg with transactions := pg.transactions ++ [some .empty] }

def update (tx : Nat) (draft : Option Draft) : Postgres :=
  { pg with transactions := pg.transactions.set tx draft }

def commit (tx : Nat) (own : Draft) : Postgres where
  table := pg.table || own.created
  committed := ⟨pg.committed.versions ++ own.changes.versions,
    pg.committed.executed ++ own.changes.executed⟩
  transactions := pg.transactions.set tx none

def answer : (op : Effect) → Option (effects.Reply op × Postgres)
  | .begin => some (.ok pg.transactions.length, pg.opened)
  | .exec tx statement =>
      match pg.transactions[tx]? with
      | some (some own) =>
          match pg.judge accepts tx own statement with
          | .takes next => some (none, pg.update tx (some next))
          | .refuses err => some (some err, pg.update tx none)
          | .waits => none
      | _ => some (some (.text "transaction has ended"), pg)
  | .check tx name =>
      match pg.transactions[tx]? with
      | some (some own) =>
          if pg.table || own.created then some (.ok (pg.sees own name), pg)
          else some (.error (.text "schema_migrations does not exist"), pg.update tx none)
      | _ => some (.error (.text "transaction has ended"), pg)
  | .readDir => some (none, pg)
  | .readFile _ => some (none, pg)
  | .commit tx =>
      match pg.transactions[tx]? with
      | some (some own) => some (none, pg.commit tx own)
      | _ => some (some (.text "transaction has ended"), pg)
  | .rollback tx => some ((), pg.update tx none)

end Postgres

/-- A connection that fails or a context that ends ends the transaction, also while a
statement waits; a commit that fails may still have happened. -/
def Faulty (pg : Postgres) : (op : Effect) → effects.Reply op → Postgres → Prop
  | .begin, reply, next => ∃ err, reply = .error err ∧ next = pg
  | .exec tx _, reply, next => ∃ err, reply = some err ∧ next = pg.update tx none
  | .check tx _, reply, next => ∃ err, reply = .error err ∧ next = pg.update tx none
  | .readDir, reply, next => ∃ err, reply = some err ∧ next = pg
  | .readFile _, reply, next => ∃ err, reply = some err ∧ next = pg
  | .commit tx, reply, next =>
      ∃ err own, pg.transactions[tx]? = some (some own) ∧ reply = some err ∧
      (next = pg.update tx none ∨ next = pg.commit tx own)
  | .rollback _, _, _ => False

def Handles (accepts : Acceptance) (faulty : Bool) (pg : Postgres) (op : Effect)
    (reply : effects.Reply op) (next : Postgres) : Prop :=
  pg.answer accepts op = some (reply, next) ∨ faulty = true ∧ Faulty pg op reply next

/-! `ApplyMigrations` -/

def effect (op : Effect) : Program effects (effects.Reply op) := .call (S := effects) op

/-- An operation that only fails or succeeds, and what follows it. -/
def perform (op : Program effects (Option Err)) (message : String)
    (next : Program effects (Option Err)) :
    Program effects (Option Err) := do
  let failed ← op
  match failed with
  | some err => pure (some (.wrap message err))
  | none => next

/-- The loop over the files, and the commit behind it. -/
def applyFiles (fs : FileSystem) (tx : Nat) : List String → Program effects (Option Err)
  | [] => perform (effect (.commit tx)) "commit migrations" (pure none)
  | name :: names => do
      let applied ← effect (.check tx name)
      match applied with
      | .error err => pure (some (.wrap ("check migration " ++ name) err))
      | .ok true => applyFiles fs tx names
      | .ok false =>
          perform (effect (.readFile name)) ("read migration " ++ name)
            (perform (effect (.exec tx (.apply name (fs.contents name))))
              ("apply migration " ++ name)
              (perform (effect (.exec tx (.record name))) ("record migration " ++ name)
                (applyFiles fs tx names)))

/-- The part under the deferred rollback. -/
def migrate (fs : FileSystem) (tx : Nat) : Program effects (Option Err) :=
  perform (effect (.exec tx .lock)) "acquire migration lock"
    (perform (effect (.exec tx .create)) "create schema_migrations"
      (perform (effect .readDir) "list migrations" (applyFiles fs tx (migrationFiles fs))))

def begun (fs : FileSystem) : Except Err Nat → Program effects (Option Err)
  | .error err => pure (some (.wrap "begin migration transaction" err))
  | .ok tx => (migrate fs tx).ensuring (effect (.rollback tx))

def ApplyMigrations (fs : FileSystem) : Program effects (Option Err) := do
  let answer ← effect .begin
  begun fs answer

/-! The stages of a run -/

/-- Where a run is that holds the lock. -/
inductive Point where
  | locked
  | created
  | looping (left : List String)
  | missing (name : String) (left : List String)
  | loaded (name : String) (left : List String)
  | applied (name : String) (left : List String)

/-- A run in its transaction, with the versions it has recorded there. -/
inductive Stage where
  | idle
  | begun (tx : Nat)
  | working (tx : Nat) (names : List String) (point : Point)
  | ended (tx : Nat)
  | rejected (tx : Nat) (name : String)
  | committed (tx : Nat) (failed : Bool)

structure Progress where
  fs : FileSystem
  stage : Stage

namespace Progress

def first (fs : FileSystem) : Progress := ⟨fs, .idle⟩

def reach (progress : Progress) (stage : Stage) : Progress := { progress with stage }

def transaction (progress : Progress) : Option Nat :=
  match progress.stage with
  | .idle => none
  | .begun tx | .working tx _ _ | .ended tx | .rejected tx _ | .committed tx _ => some tx

/-- The point a statement is executed at. -/
def Executes (progress : Progress) (tx : Nat) : Statement → Prop
  | .lock => progress.stage = .begun tx
  | .create => progress.stage = .working tx [] .locked
  | .apply name contents => contents = progress.fs.contents name ∧
      ∃ names left, progress.stage = .working tx names (.loaded name left)
  | .record name => ∃ names left, progress.stage = .working tx names (.applied name left)

def May (progress : Progress) : Effect → Prop
  | .begin => progress.stage = .idle
  | .exec tx statement => progress.Executes tx statement
  | .check tx name => ∃ names left, progress.stage = .working tx names (.looping (name :: left))
  | .readDir => ∃ tx, progress.stage = .working tx [] .created
  | .readFile name => ∃ tx names left, progress.stage = .working tx names (.missing name left)
  | .commit tx => ∃ names, progress.stage = .working tx names (.looping [])
  | .rollback tx => progress.transaction = some tx

def executed (progress : Progress) (tx : Nat) : Statement → Stage
  | .lock => .working tx [] .locked
  | .create => .working tx [] .created
  | .apply name _ =>
      match progress.stage with
      | .working _ names (.loaded _ left) => .working tx names (.applied name left)
      | stage => stage
  | .record name =>
      match progress.stage with
      | .working _ names (.applied _ left) => .working tx (names ++ [name]) (.looping left)
      | stage => stage

def checked (progress : Progress) (tx : Nat) (name : String) (found : Bool) : Stage :=
  match progress.stage with
  | .working _ names (.looping (_ :: left)) =>
      .working tx names (if found then .looping left else .missing name left)
  | stage => stage

def loads (progress : Progress) : Stage :=
  match progress.stage with
  | .working tx names .created => .working tx names (.looping (migrationFiles progress.fs))
  | .working tx names (.missing name left) => .working tx names (.loaded name left)
  | stage => stage

def broken (tx : Nat) : Statement → Stage
  | .apply name _ => .rejected tx name
  | _ => .ended tx

def rolledBack (progress : Progress) (tx : Nat) : Stage :=
  match progress.stage with
  | .committed tx failed => .committed tx failed
  | .rejected tx name => .rejected tx name
  | _ => .ended tx

def after (progress : Progress) : (op : Effect) → effects.Reply op → Progress
  | .begin, .ok tx => progress.reach (.begun tx)
  | .begin, .error _ => progress
  | .exec tx statement, none => progress.reach (progress.executed tx statement)
  | .exec tx statement, some _ => progress.reach (broken tx statement)
  | .check tx name, .ok found => progress.reach (progress.checked tx name found)
  | .check tx _, .error _ => progress.reach (.ended tx)
  | .readDir, none => progress.reach progress.loads
  | .readDir, some _ => progress
  | .readFile _, none => progress.reach progress.loads
  | .readFile _, some _ => progress
  | .commit tx, failed => progress.reach (.committed tx failed.isSome)
  | .rollback tx, _ => progress.reach (progress.rolledBack tx)

theorem after_fs (progress : Progress) (op : Effect) (reply : effects.Reply op) :
    (progress.after op reply).fs = progress.fs := by
  unfold after
  split <;> rfl

theorem after_of_committed {progress : Progress} {tx : Nat} {failed : Bool}
    (stage : progress.stage = .committed tx failed) {op : Effect} (allowed : progress.May op)
    (reply : effects.Reply op) : (progress.after op reply).stage = .committed tx failed := by
  cases op with
  | begin => cases stage.symm.trans allowed
  | exec number statement =>
      cases statement with
      | lock => cases stage.symm.trans allowed
      | create => cases stage.symm.trans allowed
      | apply name contents =>
          obtain ⟨-, _, _, other⟩ := allowed
          cases stage.symm.trans other
      | record name =>
          obtain ⟨_, _, other⟩ := allowed
          cases stage.symm.trans other
  | check number name =>
      obtain ⟨_, _, other⟩ := allowed
      cases stage.symm.trans other
  | readDir =>
      obtain ⟨_, other⟩ := allowed
      cases stage.symm.trans other
  | readFile name =>
      obtain ⟨_, _, _, other⟩ := allowed
      cases stage.symm.trans other
  | commit number =>
      obtain ⟨_, other⟩ := allowed
      cases stage.symm.trans other
  | rollback number =>
      show progress.rolledBack number = .committed tx failed
      rw [rolledBack, stage]

end Progress

/-- What makes an operation fail: any of them a fault, and a script the database too. -/
def migrating (faulty rejecting : Bool) : Protocol effects Progress where
  may := Progress.May
  answers _ op reply := Failing op reply → faulty = true ∨ rejecting = true ∧ op.applies = true
  after := Progress.after

/-- How a run ends, by its stage. -/
def Concluded (faulty rejecting : Bool) : Exit (Option Err) → Progress → Prop
  | .returned none, progress => ∃ tx, progress.stage = .committed tx false
  | .returned (some err), progress =>
      faulty = true ∧ (progress.stage = .idle ∨ (∃ tx, progress.stage = .ended tx) ∨
        ∃ tx cause, progress.stage = .committed tx true ∧ err = .wrap "commit migrations" cause) ∨
      (faulty = true ∨ rejecting = true) ∧ ∃ tx name cause, progress.stage = .rejected tx name ∧
        err = .wrap ("apply migration " ++ name) cause
  | .aborted _, _ => False

section Obeying

variable {faulty rejecting : Bool} {fs : FileSystem} {tx : Nat}

/-- What the deferred rollback makes of a run. -/
def Settled (faulty rejecting : Bool) (tx : Nat) (exit : Exit (Option Err)) (progress : Progress) :
    Prop :=
  progress.transaction = some tx ∧
    Concluded faulty rejecting exit (progress.reach (progress.rolledBack tx))

theorem faulty_of_failing {op : Effect} {reply : effects.Reply op} {progress : Progress}
    (answered : (migrating faulty rejecting).answers progress op reply) (failing : Failing op reply)
    (plain : op.applies = false) : faulty = true :=
  (answered failing).resolve_right fun applies => absurd applies.2 (by rw [plain]; decide)

theorem exec_obeys {progress : Progress} (statement : Statement)
    (allowed : progress.Executes tx statement) (plain : (Effect.exec tx statement).applies = false)
    (message : String) {next : Program effects (Option Err)}
    (rest : Obeys (migrating faulty rejecting) (Settled faulty rejecting tx) next
      (progress.reach (progress.executed tx statement))) :
    Obeys (migrating faulty rejecting) (Settled faulty rejecting tx)
      (perform (effect (.exec tx statement)) message next) progress := by
  refine obeys_call_bind allowed fun failed answered => ?_
  cases failed with
  | none => exact rest
  | some err =>
      have broken := faulty_of_failing answered (Option.some_ne_none err) plain
      cases statement with
      | apply name contents => cases plain
      | _ => exact obeys_done.mpr ⟨rfl, .inl ⟨broken, .inr (.inl ⟨tx, rfl⟩)⟩⟩

theorem apply_obeys {progress : Progress} {name : String} {contents : Bytes}
    (allowed : progress.Executes tx (.apply name contents)) {next : Program effects (Option Err)}
    (rest : Obeys (migrating faulty rejecting) (Settled faulty rejecting tx) next
      (progress.reach (progress.executed tx (.apply name contents)))) :
    Obeys (migrating faulty rejecting) (Settled faulty rejecting tx)
      (perform (effect (.exec tx (.apply name contents))) ("apply migration " ++ name) next)
      progress := by
  refine obeys_call_bind allowed fun failed answered => ?_
  cases failed with
  | none => exact rest
  | some err =>
      have cause := (answered (Option.some_ne_none err)).imp_right And.left
      exact obeys_done.mpr ⟨rfl, .inr ⟨cause, tx, name, err, rfl, rfl⟩⟩

theorem applyFiles_obeys (names left : List String) :
    Obeys (migrating faulty rejecting) (Settled faulty rejecting tx) (applyFiles fs tx left)
      ⟨fs, .working tx names (.looping left)⟩ := by
  induction left generalizing names with
  | nil =>
      refine obeys_call_bind ⟨names, rfl⟩ fun failed answered => ?_
      cases failed with
      | none => exact obeys_done.mpr ⟨rfl, tx, rfl⟩
      | some err =>
          have broken := faulty_of_failing answered (Option.some_ne_none err) rfl
          exact obeys_done.mpr ⟨rfl, .inl ⟨broken, .inr (.inr ⟨tx, err, rfl, rfl⟩)⟩⟩
  | cons name left ih =>
      refine obeys_call_bind ⟨names, left, rfl⟩ fun applied answered => ?_
      rcases applied with err | found
      · have broken := faulty_of_failing answered ⟨err, rfl⟩ rfl
        exact obeys_done.mpr ⟨rfl, .inl ⟨broken, .inr (.inl ⟨tx, rfl⟩)⟩⟩
      · cases found with
        | true => exact ih names
        | false =>
            refine obeys_call_bind ⟨tx, names, left, rfl⟩ fun failed answered => ?_
            cases failed with
            | some err =>
                have broken := faulty_of_failing answered (Option.some_ne_none err) rfl
                exact obeys_done.mpr ⟨rfl, .inl ⟨broken, .inr (.inl ⟨tx, rfl⟩)⟩⟩
            | none =>
                have allowed : Progress.Executes ⟨fs, .working tx names (.loaded name left)⟩ tx
                    (.apply name (fs.contents name)) := ⟨rfl, names, left, rfl⟩
                refine apply_obeys allowed ?_
                exact exec_obeys (.record name) ⟨names, left, rfl⟩ rfl _ (ih (names ++ [name]))

theorem migrate_obeys (fs : FileSystem) (tx : Nat) :
    Obeys (migrating faulty rejecting) (Settled faulty rejecting tx) (migrate fs tx)
      ⟨fs, .begun tx⟩ := by
  refine exec_obeys .lock ?_ rfl _ (exec_obeys .create ?_ rfl _ ?_)
  · exact rfl
  · exact rfl
  · refine obeys_call_bind ⟨tx, rfl⟩ fun failed answered => ?_
    cases failed with
    | none => exact applyFiles_obeys [] (migrationFiles fs)
    | some err =>
        have broken := faulty_of_failing answered (Option.some_ne_none err) rfl
        exact obeys_done.mpr ⟨rfl, .inl ⟨broken, .inr (.inl ⟨tx, rfl⟩)⟩⟩

theorem applyMigrations_obeys (fs : FileSystem) :
    Obeys (migrating faulty rejecting) (Concluded faulty rejecting) (ApplyMigrations fs)
      (.first fs) := by
  refine obeys_call_bind rfl fun answer answered => ?_
  cases answer with
  | error err => exact obeys_done.mpr (.inl ⟨faulty_of_failing answered ⟨err, rfl⟩ rfl, .inl rfl⟩)
  | ok tx =>
      rw [begun, obeys_ensuring]
      refine (migrate_obeys fs tx).mono fun exit last settled => ?_
      exact obeys_perform.mpr ⟨settled.1, fun _ _ => obeys_done.mpr settled.2⟩

/-- A run returns an error only when an operation has failed. -/
theorem failing_of_error {trace : List (Event effects)} {err : Err}
    (runs : (ApplyMigrations fs).Runs trace (.returned (some err))) :
    ∃ event ∈ trace, Failing event.op event.reply := by
  by_contra! sound
  have answered : (migrating false false).Answered (.first fs) trace :=
    Protocol.answered_of_forall
      (fun event member _ failing => absurd failing (sound event member)) _
  rcases (applyMigrations_obeys fs).runs runs answered with ⟨broken, -⟩ |
    ⟨broken | broken, -⟩ <;> cases broken

end Obeying

/-! Its length -/

end ModelGate.Storage.Migration
