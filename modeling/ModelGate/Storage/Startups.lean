import ModelGate.Data.Custody
import ModelGate.Storage.Migration

/-! Any number of servers that start on one database at once.

The runs are interleaved by their statements. Only the run that holds the lock
has done anything in its transaction, and nothing is committed meanwhile, so
what it reads is what a run by itself would read.
-/

set_option autoImplicit false

namespace ModelGate.Storage.Migration

open Data Semantics

variable {accepts : Acceptance} {faulty : Bool}

def startupSystem (accepts : Acceptance) (faulty : Bool) :
    System effects Postgres FileSystem (Option Err) where
  body := ApplyMigrations
  admits _ _ := True
  handles _ := Handles accepts faulty
  moves _ _ := False

theorem Postgres.handles_of_answer {index : Nat} {pg next : Postgres} {op : Effect}
    {reply : effects.Reply op} (answered : pg.answer accepts op = some (reply, next)) :
    (startupSystem accepts faulty).handles index pg op reply next :=
  .inl answered

/-! What a run has done -/

def scripts (fs : FileSystem) (names : List String) : List (String × Bytes) :=
  names.map fun name => (name, fs.contents name)

namespace Point

def created? : Point → Bool
  | .locked => false
  | _ => true

def left (fs : FileSystem) : Point → List String
  | .locked | .created => migrationFiles fs
  | .looping left => left
  | .missing name left | .loaded name left | .applied name left => name :: left

/-- The file that was found to be missing. -/
def current : Point → Option String
  | .missing name _ | .loaded name _ | .applied name _ => some name
  | _ => none

/-- The script that is executed but not recorded. -/
def unrecorded : Point → List String
  | .applied name _ => [name]
  | _ => []

end Point

def draft (fs : FileSystem) (names : List String) (point : Point) : Draft :=
  ⟨true, point.created?, ⟨names, scripts fs (names ++ point.unrecorded)⟩⟩

namespace Progress

def claim (progress : Progress) : Option (Nat × Option Draft) :=
  match progress.stage with
  | .idle => none
  | .begun tx => some (tx, some .empty)
  | .working tx names point => some (tx, some (draft progress.fs names point))
  | .ended tx | .rejected tx _ | .committed tx _ => some (tx, none)

theorem claim_of_transaction (progress : Progress) {tx : Nat}
    (inside : progress.transaction = some tx) : ∃ value, progress.claim = some (tx, value) := by
  obtain ⟨fs, stage⟩ := progress
  cases stage <;> cases inside <;> exact ⟨_, rfl⟩

def Holding (progress : Progress) : Prop :=
  ∃ tx names point, progress.stage = .working tx names point

def Committed (progress : Progress) : Prop := ∃ tx failed, progress.stage = .committed tx failed

section Claims

variable {progress : Progress} {tx : Nat}

theorem claim_begun (stage : progress.stage = .begun tx) :
    progress.claim = some (tx, some .empty) := by
  rw [claim, stage]

theorem claim_working {names : List String} {point : Point}
    (stage : progress.stage = .working tx names point) :
    progress.claim = some (tx, some (draft progress.fs names point)) := by
  rw [claim, stage]

theorem not_committed {stage : Stage} (here : progress.stage = stage)
    (other : ∀ tx failed, stage ≠ .committed tx failed) : ¬progress.Committed := by
  rintro ⟨tx, failed, ended⟩
  exact other tx failed (here.symm.trans ended)

/-- A run executes its statements in its own transaction. -/
theorem claim_of_executes {statement : Statement} (allowed : progress.Executes tx statement) :
    ∃ own, progress.claim = some (tx, some own) ∧ ¬progress.Committed := by
  cases statement with
  | lock => exact ⟨_, claim_begun allowed, not_committed allowed (by simp)⟩
  | create => exact ⟨_, claim_working allowed, not_committed allowed (by simp)⟩
  | apply name contents =>
      obtain ⟨-, names, left, stage⟩ := allowed
      exact ⟨_, claim_working stage, not_committed stage (by simp)⟩
  | record name =>
      obtain ⟨names, left, stage⟩ := allowed
      exact ⟨_, claim_working stage, not_committed stage (by simp)⟩

end Claims

def startup (progress : Progress) : Startup := ⟨progress.fs, fun _ => none⟩

end Progress

/-- The versions a run has recorded are those that were pending among the files it is past. -/
structure Working (committed : Database) (fs : FileSystem) (names : List String) (point : Point) :
    Prop where
  past : ∃ past, migrationFiles fs = past ++ point.left fs ∧ names = pending committed past
  fresh : ∀ name, point.current = some name → name ∉ committed.versions

/-- The runs that committed, in their order. -/
def history (all : List Progress) (order : List Nat) : List Startup :=
  order.filterMap fun index => all[index]?.map Progress.startup

/-- The committed database is that of runs one after another. -/
structure Serial (base committed : Database) (all : List Progress) (order : List Nat) : Prop where
  once : order.Nodup
  members : ∀ index ∈ order, ∃ progress, all[index]? = some progress ∧ progress.Committed
  complete : ∀ index progress tx, all[index]? = some progress →
    progress.stage = .committed tx false → index ∈ order
  result : committed = startups base (history all order)

structure Balanced (base : Database) (pg : Postgres) (all : List Progress) : Prop where
  custody : Custody (all.filterMap Progress.claim) pg.transactions
  single : ∀ (index other : Nat) (progress rival : Progress), all[index]? = some progress →
    all[other]? = some rival → progress.Holding → rival.Holding → index = other
  working : ∀ progress ∈ all, ∀ tx names point, progress.stage = .working tx names point →
    Working pg.committed progress.fs names point
  serial : ∃ order, Serial base pg.committed all order

/-! Files -/

section Files

variable {committed : Database} {fs : FileSystem} {names left : List String} {name : String}

theorem pending_concat (past : List String) :
    pending committed (past ++ [name]) = pending committed past ++ if name ∈ committed.versions then
    [] else [name] := by
  rw [pending, List.filter_append, pending]
  by_cases applied : name ∈ committed.versions <;> simp [applied]

theorem Working.unrecorded {point : Point} (working : Working committed fs names point)
    (head : point.left fs = name :: left) : name ∉ names := by
  obtain ⟨past, files, rfl⟩ := working.past
  have distinct := (migrationFiles_increasing fs).nodup
  rw [files, head, List.nodup_append] at distinct
  intro member
  exact distinct.2.2 name (List.mem_filter.mp member).1 name List.mem_cons_self rfl

theorem Working.passes {point : Point} (working : Working committed fs names point)
    (head : point.left fs = name :: left) :
    Working committed fs (names ++ if name ∈ committed.versions then [] else [name])
      (.looping left) := by
  obtain ⟨past, files, rfl⟩ := working.past
  refine ⟨⟨past ++ [name], ?_, (pending_concat past).symm⟩, by simp [Point.current]⟩
  rw [files, head, List.append_assoc]
  rfl

theorem Working.goes {point next : Point} (working : Working committed fs names point)
    (same : next.left fs = point.left fs)
    (fresh : ∀ name, next.current = some name → name ∉ committed.versions) :
    Working committed fs names next := by
  obtain ⟨past, files, recorded⟩ := working.past
  exact ⟨⟨past, by rw [files, same], recorded⟩, fresh⟩

theorem working_locked : Working committed fs [] .locked :=
  ⟨⟨[], rfl, rfl⟩, by simp [Point.current]⟩

end Files

/-! The order of the commits -/

theorem startups_concat (base : Database) (runs : List Startup) (run : Startup) :
    startups base (runs ++ [run]) =
      (Storage.ApplyMigrations run.faults run.fs (startups base runs)).1 := by
  rw [startups, List.foldl_append]
  rfl

/-- Without a fault a run applies what is pending. -/
theorem applyMigrations_none (fs : FileSystem) (db : Database) :
    (Storage.ApplyMigrations (fun _ => none) fs db).1 =
      db.extended fs (pending db (migrationFiles fs)) := by
  rcases applyMigrations_cases (fun _ => none) fs db with ⟨err, failed⟩ | succeeded
  · have sound : (Storage.ApplyMigrations (fun _ => none) fs db).2 = none :=
      applyMigrations_sound (fun _ => rfl) fs db
    rw [failed] at sound
    cases sound
  · rw [succeeded]

namespace Serial

variable {base committed : Database} {all : List Progress} {order : List Nat} {index : Nat}
  {progress later : Progress}

theorem getElem?_set_map (found : all[index]? = some progress) (same : later.fs = progress.fs)
    (position : Nat) :
    (all.set index later)[position]?.map Progress.startup =
      all[position]?.map Progress.startup := by
  by_cases here : index = position
  · subst here
    rw [List.getElem?_set_self (List.getElem?_eq_some_iff.mp found).1, found, Option.map_some,
      Option.map_some, Progress.startup, Progress.startup, same]
  · rw [List.getElem?_set_ne here]

theorem history_set (found : all[index]? = some progress) (same : later.fs = progress.fs)
    (order : List Nat) : history (all.set index later) order = history all order := by
  unfold history
  simp only [getElem?_set_map found same]

theorem replace (serial : Serial base committed all order) (found : all[index]? = some progress)
    (same : later.fs = progress.fs) (keeps : progress.Committed → later.Committed)
    (fresh : ∀ tx, later.stage = .committed tx false → progress.stage = .committed tx false) :
    Serial base committed (all.set index later) order := by
  refine ⟨serial.once, fun position member => ?_, fun position other tx located stage => ?_, ?_⟩
  · obtain ⟨source, there, done⟩ := serial.members position member
    by_cases here : index = position
    · subst here
      obtain rfl := Option.some.inj (found.symm.trans there)
      exact ⟨later, List.getElem?_set_self (List.getElem?_eq_some_iff.mp found).1, keeps done⟩
    · exact ⟨source, by rw [List.getElem?_set_ne here]; exact there, done⟩
  · rcases getElem?_set_some located with ⟨rfl, rfl⟩ | ⟨-, there⟩
    · exact serial.complete position progress tx found (fresh tx stage)
    · exact serial.complete position other tx there stage
  · rw [history_set found same]
    exact serial.result

theorem spawn (serial : Serial base committed all order) (fs : FileSystem) :
    Serial base committed (all ++ [.first fs]) order := by
  have inside (position : Nat) (member : position ∈ order) : (all ++ [.first fs])[position]? =
      all[position]? := by
    obtain ⟨source, there, -⟩ := serial.members position member
    exact List.getElem?_append_left (List.getElem?_eq_some_iff.mp there).1
  refine ⟨serial.once, fun position member => ?_, fun position other tx located stage => ?_, ?_⟩
  · rw [inside position member]
    exact serial.members position member
  · rcases getElem?_concat_some located with there | rfl
    · exact serial.complete position other tx there stage
    · cases stage
  · have same : history (all ++ [.first fs]) order = history all order :=
      List.filterMap_congr fun position member => by rw [inside position member]
    rw [same]
    exact serial.result

theorem commit (serial : Serial base committed all order) (found : all[index]? = some progress)
    (running : ¬progress.Committed) (same : later.fs = progress.fs) (done : later.Committed) :
    Serial base (committed.extended progress.fs (pending committed (migrationFiles progress.fs)))
      (all.set index later) (order ++ [index]) := by
  have absent : index ∉ order := by
    intro member
    obtain ⟨source, there, ended⟩ := serial.members index member
    obtain rfl := Option.some.inj (found.symm.trans there)
    exact running ended
  have here := List.getElem?_set_self (a := later) (List.getElem?_eq_some_iff.mp found).1
  refine ⟨?_, fun position member => ?_, fun position other tx located stage => ?_, ?_⟩
  · exact List.Nodup.append serial.once (List.nodup_singleton index) (by simpa using absent)
  · rcases List.mem_append.mp member with old | new
    · obtain ⟨source, there, ended⟩ := serial.members position old
      have apart : index ≠ position := fun equal => absent (equal ▸ old)
      exact ⟨source, by rw [List.getElem?_set_ne apart]; exact there, ended⟩
    · obtain rfl := List.mem_singleton.mp new
      exact ⟨later, here, done⟩
  · rcases getElem?_set_some located with ⟨rfl, -⟩ | ⟨-, there⟩
    · exact List.mem_append_right _ (List.mem_singleton.mpr rfl)
    · exact List.mem_append_left _ (serial.complete position other tx there stage)
  · have extended : history (all.set index later) (order ++ [index]) =
        history all order ++ [progress.startup] := by
      rw [history_set found same, history, List.filterMap_append, List.filterMap_cons, found]
      rfl
    rw [extended, startups_concat, ← serial.result]
    exact (applyMigrations_none progress.fs committed).symm

end Serial

/-! The other transactions -/

theorem mem_others {pg : Postgres} {tx : Nat} {other : Draft} (member : other ∈ pg.others tx) :
    ∃ number, number ≠ tx ∧ pg.transactions[number]? = some (some other) := by
  obtain ⟨entry, inside, rfl⟩ := List.mem_filterMap.mp member
  obtain ⟨number, located⟩ := List.mem_iff_getElem?.mp inside
  rcases getElem?_set_some located with ⟨-, impossible⟩ | ⟨apart, there⟩
  · cases impossible
  · exact ⟨number, apart, there⟩

theorem others_of_mem {pg : Postgres} {tx number : Nat} {other : Draft} (apart : number ≠ tx)
    (located : pg.transactions[number]? = some (some other)) : other ∈ pg.others tx := by
  refine List.mem_filterMap.mpr ⟨some other, List.mem_of_getElem? (i := number) ?_, rfl⟩
  rw [List.getElem?_set_ne (Ne.symm apart)]
  exact located

namespace Balanced

variable {base : Database} {pg next : Postgres} {all : List Progress} {index : Nat}
  {progress later : Progress}

theorem located (balanced : Balanced base pg all) (found : all[index]? = some progress) {tx : Nat}
    {value : Option Draft} (claims : progress.claim = some (tx, value)) :
    pg.transactions[tx]? = some value :=
  balanced.custody.agrees (List.mem_filterMap.mpr ⟨progress, List.mem_of_getElem? found, claims⟩)

theorem owner (balanced : Balanced base pg all) {tx : Nat} {own : Draft}
    (located : pg.transactions[tx]? = some (some own)) :
    ∃ (index : Nat) (progress : Progress), all[index]? = some progress ∧
    progress.claim = some (tx, some own) := by
  obtain ⟨progress, member, claims⟩ := List.mem_filterMap.mp (balanced.custody.claimed located)
  obtain ⟨index, found⟩ := List.mem_iff_getElem?.mp member
  exact ⟨index, progress, found, claims⟩

/-- Only a run that holds the lock has done anything. -/
theorem empty_or_holding {tx : Nat} {own : Draft} (claims : progress.claim = some (tx, some own)) :
    own = .empty ∨ progress.Holding := by
  unfold Progress.claim at claims
  split at claims
  · cases claims
  · cases claims
    exact .inl rfl
  · rename_i stage
    exact .inr ⟨_, _, _, stage⟩
  · cases claims
  · cases claims
  · cases claims

theorem others_empty (balanced : Balanced base pg all) (found : all[index]? = some progress)
    {tx : Nat} {value : Option Draft} (claims : progress.claim = some (tx, value))
    (alone : ∀ other rival, all[other]? = some rival → rival.Holding → other = index) :
    ∀ other ∈ pg.others tx, other = .empty := by
  intro other member
  obtain ⟨number, apart, located⟩ := mem_others member
  obtain ⟨position, rival, there, owns⟩ := balanced.owner located
  rcases empty_or_holding owns with empty | holding
  · exact empty
  · obtain rfl := alone position rival there holding
    obtain rfl := Option.some.inj (found.symm.trans there)
    rw [claims] at owns
    exact absurd (congrArg Prod.fst (Option.some.inj owns)).symm apart

theorem alone (balanced : Balanced base pg all) (found : all[index]? = some progress)
    (holding : progress.Holding) (other : Nat) (rival : Progress) (there : all[other]? = some rival)
    (holds : rival.Holding) : other = index :=
  balanced.single other index rival progress there found holds holding

/-! Steps of one run -/

theorem replace (balanced : Balanced base pg all) (found : all[index]? = some progress)
    (same : later.fs = progress.fs)
    (custody : Custody ((all.set index later).filterMap Progress.claim) next.transactions)
    (unchanged : next.committed = pg.committed)
    (alone : later.Holding → ∀ other rival, all[other]? = some rival → rival.Holding →
      other = index)
    (working : ∀ tx names point, later.stage = .working tx names point →
      Working pg.committed progress.fs names point)
    (keeps : progress.Committed → later.Committed)
    (fresh : ∀ tx, later.stage = .committed tx false → progress.stage = .committed tx false) :
    Balanced base next (all.set index later) := by
  obtain ⟨order, serial⟩ := balanced.serial
  refine ⟨custody, fun first second one two here there holds holding => ?_, fun other member => ?_,
    ⟨order, unchanged ▸ serial.replace found same keeps fresh⟩⟩
  · rcases getElem?_set_some here with ⟨rfl, rfl⟩ | ⟨-, located⟩
    · rcases getElem?_set_some there with ⟨rfl, rfl⟩ | ⟨-, placed⟩
      · rfl
      · exact (alone holds second two placed holding).symm
    · rcases getElem?_set_some there with ⟨rfl, rfl⟩ | ⟨-, placed⟩
      · exact alone holding first one located holds
      · exact balanced.single first second one two located placed holds holding
  · rw [unchanged]
    rcases List.mem_or_eq_of_mem_set member with old | rfl
    · exact balanced.working other old
    · intro tx names point stage
      rw [same]
      exact working tx names point stage

theorem go (balanced : Balanced base pg all) (found : all[index]? = some progress) {tx : Nat}
    {names more : List String} {point there : Point}
    (stage : progress.stage = .working tx names point)
    (working : Working pg.committed progress.fs more there) :
    Balanced base (pg.update tx (some (draft progress.fs more there)))
      (all.set index (progress.reach (.working tx more there))) := by
  refine balanced.replace found rfl
    (balanced.custody.holder_changes found (Progress.claim_working stage) rfl) rfl
    (fun _ => balanced.alone found ⟨tx, names, point, stage⟩) ?_ ?_ ?_
  · intro number names point same
    cases same
    exact working
  · exact fun committed => absurd committed (Progress.not_committed stage (by simp))
  · intro tx ended
    cases ended

theorem ends (balanced : Balanced base pg all) (found : all[index]? = some progress) {tx : Nat}
    {value : Option Draft} (claims : progress.claim = some (tx, value))
    (running : ¬progress.Committed) {stage : Stage}
    (gone : (progress.reach stage).claim = some (tx, none))
    (uncommitted : ∀ tx, stage ≠ .committed tx false) :
    Balanced base (pg.update tx none) (all.set index (progress.reach stage)) := by
  refine balanced.replace found rfl (balanced.custody.holder_changes found claims gone) rfl ?_ ?_
    (fun committed => absurd committed running) (fun tx same => absurd same (uncommitted tx))
  · rintro ⟨_, _, _, same⟩
    rw [Progress.claim, same] at gone
    cases gone
  · intro _ _ _ same
    rw [Progress.claim, same] at gone
    cases gone

theorem locks (balanced : Balanced base pg all) (found : all[index]? = some progress) {tx : Nat}
    (stage : progress.stage = .begun tx) (free : (pg.others tx).any Draft.locked = false) :
    Balanced base (pg.update tx (some (draft progress.fs [] .locked)))
      (all.set index (progress.reach (.working tx [] .locked))) := by
  have claims := Progress.claim_begun stage
  refine balanced.replace found rfl (balanced.custody.holder_changes found claims rfl) rfl
    ?_ ?_ ?_ ?_
  · -- Another run that holds the lock would be among the others.
    rintro - other rival there ⟨number, names, point, holding⟩
    by_contra apart
    have owns := Progress.claim_working holding
    have different : number ≠ tx := by
      rintro rfl
      exact apart (balanced.custody.holder_eq there found number owns claims)
    have member := others_of_mem different (balanced.located there owns)
    have locked := List.any_eq_false.mp free _ member
    exact locked rfl
  · intro number names point same
    cases same
    exact working_locked
  · exact fun committed => absurd committed (Progress.not_committed stage (by simp))
  · intro tx ended
    cases ended

theorem takes (balanced : Balanced base pg all) (found : all[index]? = some progress) {tx : Nat}
    {statement : Statement} (allowed : progress.Executes tx statement) {own moved : Draft}
    (located : pg.transactions[tx]? = some (some own))
    (judged : pg.judge accepts tx own statement = .takes moved) :
    Balanced base (pg.update tx (some moved))
      (all.set index (progress.reach (progress.executed tx statement))) := by
  have owned {value : Draft} (claims : progress.claim = some (tx, some value)) : value = own :=
    Option.some.inj (Option.some.inj ((balanced.located found claims).symm.trans located))
  cases statement with
  | lock =>
      have stage : progress.stage = .begun tx := allowed
      obtain rfl := owned (Progress.claim_begun stage)
      simp only [Postgres.judge] at judged
      split at judged
      · cases judged
      · rename_i free
        cases judged
        exact balanced.locks found stage (Bool.eq_false_iff.mpr free)
  | create =>
      have stage : progress.stage = .working tx [] .locked := allowed
      obtain rfl := owned (Progress.claim_working stage)
      have working := balanced.working progress (List.mem_of_getElem? found) tx [] .locked stage
      simp only [Postgres.judge] at judged
      split at judged
      · cases judged
      · cases judged
        have created : Working pg.committed progress.fs [] .created :=
          working.goes rfl (by simp [Point.current])
        exact balanced.go found stage created
  | apply name contents =>
      obtain ⟨rfl, names, left, stage⟩ := allowed
      obtain rfl := owned (Progress.claim_working stage)
      have working := balanced.working progress (List.mem_of_getElem? found) tx names
        (.loaded name left) stage
      have reached : progress.executed tx (.apply name (progress.fs.contents name)) =
          .working tx names (.applied name left) := by
        simp only [Progress.executed, stage]
      have same : draft progress.fs names (.applied name left) = moved := by
        simp only [Postgres.judge] at judged
        split at judged
        · rw [← Verdict.takes.inj judged]
          simp [draft, scripts, Point.unrecorded, Point.created?]
        · cases judged
      rw [reached, ← same]
      exact balanced.go found stage (working.goes rfl working.fresh)
  -- Only here does a file become recorded, and its script has been executed before it.
  | record name =>
      obtain ⟨names, left, stage⟩ := allowed
      obtain rfl := owned (Progress.claim_working stage)
      have working := balanced.working progress (List.mem_of_getElem? found) tx names
        (.applied name left) stage
      have reached : progress.executed tx (.record name) =
          .working tx (names ++ [name]) (.looping left) := by
        simp only [Progress.executed, stage]
      have same : draft progress.fs (names ++ [name]) (.looping left) = moved := by
        simp only [Postgres.judge] at judged
        split at judged
        · cases judged
        · split at judged
          · cases judged
          · split at judged
            · cases judged
            · rw [← Verdict.takes.inj judged]
              simp [draft, scripts, Point.unrecorded, Point.created?]
      have passed := working.passes rfl
      rw [if_neg (working.fresh name rfl)] at passed
      rw [reached, ← same]
      exact balanced.go found stage passed

/-- No statement of a run is refused but its scripts. -/
theorem applies_of_refused (balanced : Balanced base pg all) (found : all[index]? = some progress)
    {tx : Nat} {statement : Statement} (allowed : progress.Executes tx statement) {own : Draft}
    (located : pg.transactions[tx]? = some (some own)) {err : Err}
    (judged : pg.judge accepts tx own statement = .refuses err) :
    ∃ name contents, statement = .apply name contents ∧
    accepts (pg.committed.executed ++ own.changes.executed) contents = false := by
  cases statement with
  | lock =>
      simp only [Postgres.judge] at judged
      split at judged <;> cases judged
  | create =>
      simp only [Postgres.judge] at judged
      split at judged <;> cases judged
  | apply name contents =>
      simp only [Postgres.judge] at judged
      split at judged
      · cases judged
      · rename_i unfit
        exact ⟨name, contents, rfl, Bool.eq_false_iff.mpr unfit⟩
  | record name =>
      -- The file was found missing while the run had the lock, so no row of it is in the way.
      obtain ⟨names, left, stage⟩ := allowed
      have claimed := balanced.located found (Progress.claim_working stage)
      obtain rfl := Option.some.inj (Option.some.inj (claimed.symm.trans located))
      have working := balanced.working progress (List.mem_of_getElem? found) tx names
        (.applied name left) stage
      have unseen : pg.sees (draft progress.fs names (.applied name left)) name = false := by
        simpa [Postgres.sees, draft] using ⟨working.fresh name rfl, working.unrecorded rfl⟩
      simp only [Postgres.judge, unseen] at judged
      split at judged
      · rename_i absent
        simp [draft, Point.created?] at absent
      · split at judged
        · contradiction
        · split at judged <;> cases judged

theorem checks (balanced : Balanced base pg all) (found : all[index]? = some progress) {tx : Nat}
    {name : String} {names left : List String}
    (stage : progress.stage = .working tx names (.looping (name :: left))) :
    Balanced base pg
      (all.set index (progress.reach
          (progress.checked tx name
          (pg.sees (draft progress.fs names (.looping (name :: left))) name)))) := by
  have working := balanced.working progress (List.mem_of_getElem? found) tx names _ stage
  have unrecorded := working.unrecorded rfl
  have same := set_of_getElem? (balanced.located found (Progress.claim_working stage))
  -- A check changes where the run is, not what it has done.
  have stays (there : Point)
      (equal : draft progress.fs names there = draft progress.fs names (.looping (name :: left)))
      (works : Working pg.committed progress.fs names there) :
      Balanced base pg (all.set index (progress.reach (.working tx names there))) := by
    have moved := balanced.go found stage works
    rw [equal, Postgres.update, same] at moved
    exact moved
  simp only [Progress.checked, stage]
  by_cases applied : name ∈ pg.committed.versions
  · have seen : pg.sees (draft progress.fs names (.looping (name :: left))) name = true := by
      simp [Postgres.sees, applied]
    have passed := working.passes rfl
    rw [if_pos applied, List.append_nil] at passed
    rw [seen]
    exact stays (.looping left) rfl passed
  · have unseen : pg.sees (draft progress.fs names (.looping (name :: left))) name = false := by
      simpa [Postgres.sees, draft] using ⟨applied, unrecorded⟩
    rw [unseen]
    refine stays (.missing name left) rfl (working.goes rfl fun other same => ?_)
    cases same
    exact applied

theorem loads (balanced : Balanced base pg all) (found : all[index]? = some progress) {tx : Nat}
    {names : List String} {point there : Point} (stage : progress.stage = .working tx names point)
    (reached : progress.loads = .working tx names there)
    (equal : draft progress.fs names there = draft progress.fs names point)
    (left : there.left progress.fs = point.left progress.fs)
    (current : there.current = point.current) :
    Balanced base pg (all.set index (progress.reach progress.loads)) := by
  have working := balanced.working progress (List.mem_of_getElem? found) tx names point stage
  have located := balanced.located found (Progress.claim_working stage)
  have moved := balanced.go found stage (working.goes left (current ▸ working.fresh))
  rw [equal, Postgres.update, set_of_getElem? located] at moved
  rw [reached]
  exact moved

theorem commits (balanced : Balanced base pg all) (found : all[index]? = some progress) {tx : Nat}
    {names : List String}
    (stage : progress.stage = .working tx names (.looping [])) (failed : Bool) :
    Balanced base (pg.commit tx (draft progress.fs names (.looping [])))
    (all.set index (progress.reach (.committed tx failed))) := by
  have holding : progress.Holding := ⟨tx, names, _, stage⟩
  obtain ⟨past, files, recorded⟩ :=
    (balanced.working progress (List.mem_of_getElem? found) tx names _ stage).past
  obtain rfl : migrationFiles progress.fs = past := files.trans (List.append_nil past)
  have result : (pg.commit tx (draft progress.fs names (.looping []))).committed =
      pg.committed.extended progress.fs (pending pg.committed (migrationFiles progress.fs)) := by
    rw [← recorded]
    simp [Postgres.commit, draft, Database.extended, scripts, Point.unrecorded]
  obtain ⟨order, serial⟩ := balanced.serial
  refine ⟨balanced.custody.holder_changes found (Progress.claim_working stage) rfl,
    fun first second one two here there holds holding' => ?_,
    fun other member number names point working => ?_, order ++ [index], ?_⟩
  · rcases getElem?_set_some here with ⟨rfl, rfl⟩ | ⟨-, located⟩
    · obtain ⟨_, _, _, impossible⟩ := holds
      cases impossible
    · rcases getElem?_set_some there with ⟨rfl, rfl⟩ | ⟨-, placed⟩
      · obtain ⟨_, _, _, impossible⟩ := holding'
        cases impossible
      · exact balanced.single first second one two located placed holds holding'
  · -- No other run holds the lock, so no other run is in the middle of its files.
    obtain ⟨position, located⟩ := List.mem_iff_getElem?.mp member
    rcases getElem?_set_some located with ⟨rfl, rfl⟩ | ⟨apart, there⟩
    · cases working
    · exact absurd (balanced.alone found holding position other there
        ⟨number, names, point, working⟩) apart
  · rw [result]
    exact serial.commit found (Progress.not_committed stage (by simp)) rfl ⟨tx, failed, rfl⟩

theorem rolls_back (balanced : Balanced base pg all) (found : all[index]? = some progress)
    {tx : Nat} (inside : progress.transaction = some tx) :
    Balanced base (pg.update tx none)
      (all.set index (progress.reach (progress.rolledBack tx))) := by
  obtain ⟨value, claims⟩ := progress.claim_of_transaction inside
  by_cases over' : progress.rolledBack tx = progress.stage
  · have gone : value = none := by
      unfold Progress.claim at claims
      unfold Progress.rolledBack at over'
      split at over' <;> rename_i stage
      · rw [stage] at claims
        cases claims
        rfl
      · rw [stage] at claims
        cases claims
        rfl
      · rw [← over'] at claims
        cases claims
        rfl
    subst gone
    rw [over', show progress.reach progress.stage = progress from rfl, set_of_getElem? found,
      Postgres.update, set_of_getElem? (balanced.located found claims)]
    exact balanced
  · have reached : progress.rolledBack tx = .ended tx ∧ ¬progress.Committed := by
      unfold Progress.rolledBack at over' ⊢
      split at over'
      · rename_i stage
        exact absurd stage.symm over'
      · rename_i stage
        exact absurd stage.symm over'
      · rename_i other _
        refine ⟨rfl, ?_⟩
        rintro ⟨_, _, stage⟩
        exact other _ _ stage
    rw [reached.1]
    exact balanced.ends found claims reached.2 rfl (by simp)

section Perform

variable (balanced : Balanced base pg all) (found : all[index]? = some progress)
include balanced found

theorem stays : Balanced base pg (all.set index progress) := by
  rw [set_of_getElem? found]
  exact balanced

theorem exec {tx : Nat} {statement : Statement} {reply : Option Err}
    (allowed : progress.Executes tx statement)
    (handled : Handles accepts faulty pg (.exec tx statement) reply next) :
    (migrating faulty true).answers progress (.exec tx statement) reply ∧
    Balanced base next (all.set index (progress.after (.exec tx statement) reply)) := by
  obtain ⟨own, claims, running⟩ := Progress.claim_of_executes allowed
  have located := balanced.located found claims
  rcases handled with answered | ⟨broken, err, rfl, rfl⟩
  · simp only [Postgres.answer, located] at answered
    cases judged : pg.judge accepts tx own statement with
    | takes moved =>
        rw [judged] at answered
        cases answered
        exact ⟨fun failing => absurd rfl failing, balanced.takes found allowed located judged⟩
    | refuses err =>
        rw [judged] at answered
        cases answered
        obtain ⟨name, contents, rfl, -⟩ := balanced.applies_of_refused found allowed located judged
        exact ⟨fun _ => .inr ⟨rfl, rfl⟩, balanced.ends found claims running rfl
          (by simp [Progress.broken])⟩
    | waits =>
        rw [judged] at answered
        cases answered
  · refine ⟨fun _ => .inl broken, balanced.ends found claims running ?_ ?_⟩
    · cases statement <;> rfl
    · cases statement <;> simp [Progress.broken]

theorem check {tx : Nat} {name : String} {reply : Except Err Bool}
    (allowed : progress.May (.check tx name))
    (handled : Handles accepts faulty pg (.check tx name) reply next) :
    (migrating faulty true).answers progress (.check tx name) reply ∧
    Balanced base next (all.set index (progress.after (.check tx name) reply)) := by
  obtain ⟨names, left, stage⟩ := allowed
  have claims := Progress.claim_working stage
  have located := balanced.located found claims
  rcases handled with answered | ⟨broken, err, rfl, rfl⟩
  · have exists' : (pg.table || (draft progress.fs names (.looping (name :: left))).created) =
        true := by
      simp [draft, Point.created?]
    simp only [Postgres.answer, located, exists', if_true] at answered
    cases answered
    refine ⟨?_, balanced.checks found stage⟩
    rintro ⟨err, failing⟩
    cases failing
  · exact ⟨fun _ => .inl broken,
      balanced.ends found claims (Progress.not_committed stage (by simp)) rfl (by simp)⟩

theorem finish {tx : Nat} {reply : Option Err} (allowed : progress.May (.commit tx))
    (handled : Handles accepts faulty pg (.commit tx) reply next) :
    (migrating faulty true).answers progress (.commit tx) reply ∧
      Balanced base next (all.set index (progress.after (.commit tx) reply)) := by
  obtain ⟨names, stage⟩ := allowed
  have claims := Progress.claim_working stage
  have located := balanced.located found claims
  rcases handled with answered | ⟨broken, err, own, there, rfl, lost⟩
  · simp only [Postgres.answer, located] at answered
    cases answered
    exact ⟨fun failing => absurd rfl failing, balanced.commits found stage false⟩
  · obtain rfl := Option.some.inj (Option.some.inj (located.symm.trans there))
    refine ⟨fun _ => .inl broken, ?_⟩
    -- The commit that failed may have happened.
    rcases lost with rfl | rfl
    · exact balanced.ends found claims (Progress.not_committed stage (by simp)) rfl (by simp)
    · exact balanced.commits found stage true

theorem perform {op : Effect} {reply : effects.Reply op} (allowed : progress.May op)
    (handled : Handles accepts faulty pg op reply next) :
    (migrating faulty true).answers progress op reply ∧
    Balanced base next (all.set index (progress.after op reply)) := by
  cases op with
  | begin =>
      have stage : progress.stage = .idle := allowed
      have free : progress.claim = none := by rw [Progress.claim, stage]
      rcases handled with answered | ⟨broken, err, rfl, rfl⟩
      · cases answered
        have answers : (migrating faulty true).answers progress .begin
            (.ok pg.transactions.length) := by
          rintro ⟨_, failing⟩
          cases failing
        refine ⟨answers, balanced.replace found rfl (balanced.custody.holder_opens found free rfl)
          rfl ?_ ?_ ?_ ?_⟩
        · rintro ⟨_, _, _, impossible⟩
          cases impossible
        · intro _ _ _ impossible
          cases impossible
        · exact fun committed => absurd committed (Progress.not_committed stage (by simp))
        · intro _ impossible
          cases impossible
      · exact ⟨fun _ => .inl broken, balanced.stays found⟩
  | exec tx statement => exact balanced.exec found allowed handled
  | check tx name => exact balanced.check found allowed handled
  | readDir =>
      obtain ⟨tx, stage⟩ := allowed
      have reached : progress.loads = .working tx [] (.looping (migrationFiles progress.fs)) := by
        simp only [Progress.loads, stage]
      rcases handled with answered | ⟨broken, err, rfl, rfl⟩
      · cases answered
        exact ⟨fun failing => absurd rfl failing, balanced.loads found stage reached rfl rfl rfl⟩
      · exact ⟨fun _ => .inl broken, balanced.stays found⟩
  | readFile name =>
      obtain ⟨tx, names, left, stage⟩ := allowed
      have reached : progress.loads = .working tx names (.loaded name left) := by
        simp only [Progress.loads, stage]
      rcases handled with answered | ⟨broken, err, rfl, rfl⟩
      · cases answered
        exact ⟨fun failing => absurd rfl failing, balanced.loads found stage reached rfl rfl rfl⟩
      · exact ⟨fun _ => .inl broken, balanced.stays found⟩
  | commit tx => exact balanced.finish found allowed handled
  | rollback tx =>
      rcases handled with answered | ⟨-, impossible⟩
      · cases answered
        exact ⟨False.elim, balanced.rolls_back found allowed⟩
      · exact impossible.elim

end Perform

/-! Which run is answered -/

/-- A run is answered at once unless it waits for the lock. -/
theorem answered (balanced : Balanced base pg all) (found : all[index]? = some progress)
    {op : Effect} (allowed : progress.May op)
    (first : progress.Holding ∨ ∀ rival ∈ all, ¬rival.Holding) : (pg.answer accepts op).isSome := by
  have alone : ∀ other rival, all[other]? = some rival → rival.Holding → other = index := by
    intro other rival there holds
    rcases first with holding | nobody
    · exact balanced.alone found holding other rival there holds
    · exact absurd holds (nobody rival (List.mem_of_getElem? there))
  -- Nobody else holds the lock, so every other transaction is empty and has nothing to wait for.
  have free {tx : Nat} {own : Draft} (claims : progress.claim = some (tx, some own))
      (p : Draft → Bool) (clean : p .empty = false) : (pg.others tx).any p = false := by
    refine List.any_eq_false.mpr fun other member => ?_
    rw [balanced.others_empty found claims alone other member, clean]
    exact Bool.false_ne_true
  have judges {tx : Nat} {own : Draft}
      {statement : Statement} (claims : progress.claim = some (tx, some own))
      (judged : pg.judge accepts tx own statement ≠ .waits) :
      (pg.answer accepts (.exec tx statement)).isSome := by
    simp only [Postgres.answer, balanced.located found claims]
    split
    · rfl
    · rfl
    · rename_i waits
      exact absurd waits judged
  cases op with
  | begin => rfl
  | exec tx statement =>
      cases statement with
      | lock =>
          have claims := Progress.claim_begun allowed
          refine judges claims ?_
          simp [Postgres.judge, free claims Draft.locked rfl]
      | create =>
          have claims := Progress.claim_working allowed
          refine judges claims ?_
          simp [Postgres.judge, free claims Draft.created rfl]
      | apply name contents =>
          obtain ⟨-, names, left, stage⟩ := allowed
          refine judges (Progress.claim_working stage) ?_
          simp only [Postgres.judge]
          split <;> simp
      | record name =>
          obtain ⟨names, left, stage⟩ := allowed
          have claims := Progress.claim_working stage
          refine judges claims ?_
          simp only [Postgres.judge,
            free claims (fun other => other.changes.versions.contains name) rfl]
          split
          · simp
          · split <;> simp
  | check tx name =>
      simp only [Postgres.answer]
      split
      · split <;> rfl
      · rfl
  | readDir => rfl
  | readFile name => rfl
  | commit tx =>
      simp only [Postgres.answer]
      split <;> rfl
  | rollback tx => rfl

end Balanced

/-! Runs of starting servers -/

/-- A file whose script the database does not take, after what the runs of other starts have
left one after another and after the scripts of the files before it. -/
def Rejected (accepts : Acceptance) (base : Database) (files : List FileSystem) (fs : FileSystem)
    (name : String) : Prop :=
  ∃ (runs : List Startup) (past rest : List String),
    (∀ run ∈ runs, run.fs ∈ files ∧ run.faults = fun _ => none) ∧
    migrationFiles fs = past ++ name :: rest ∧ name ∉ (startups base runs).versions ∧
    accepts ((startups base runs).executed ++ scripts fs (pending (startups base runs) past))
      (fs.contents name) = false

theorem Rejected.mono {base : Database} {files more : List FileSystem} {fs : FileSystem}
    {name : String} (rejected : Rejected accepts base files fs name) (grows : files ⊆ more) :
    Rejected accepts base more fs name := by
  obtain ⟨runs, past, rest, known, parts⟩ := rejected
  exact ⟨runs, past, rest, fun run member => (known run member).imp_left (grows ·), parts⟩

section Rejections

variable {base : Database} {pg next : Postgres} {all : List Progress} {index : Nat}
  {progress : Progress}

theorem Balanced.rejected (balanced : Balanced base pg all) (found : all[index]? = some progress)
    {tx : Nat} {name : String} {contents : Bytes}
    (allowed : progress.Executes tx (.apply name contents)) {own : Draft}
    (located : pg.transactions[tx]? = some (some own))
    (unfit : accepts (pg.committed.executed ++ own.changes.executed) contents = false) :
    Rejected accepts base (all.map Progress.fs) progress.fs name := by
  obtain ⟨rfl, names, left, stage⟩ := allowed
  have claimed := balanced.located found (Progress.claim_working stage)
  obtain rfl := Option.some.inj (Option.some.inj (claimed.symm.trans located))
  have working := balanced.working progress (List.mem_of_getElem? found) tx names _ stage
  obtain ⟨past, files, rfl⟩ := working.past
  obtain ⟨order, serial⟩ := balanced.serial
  have fresh := working.fresh name rfl
  rw [serial.result] at unfit fresh
  refine ⟨history all order, past, left, fun run member => ?_, files, fresh, ?_⟩
  · obtain ⟨position, -, there⟩ := List.mem_filterMap.mp member
    obtain ⟨source, located, rfl⟩ := Option.map_eq_some_iff.mp there
    exact ⟨List.mem_map_of_mem (List.mem_of_getElem? located), rfl⟩
  · simpa [draft, Point.unrecorded] using unfit

theorem Progress.rejects {op : Effect} {reply : effects.Reply op} (allowed : progress.May op)
    {tx : Nat} {name : String} (stage : (progress.after op reply).stage = .rejected tx name) :
    progress.stage = .rejected tx name ∨ ∃ contents, op = .exec tx (.apply name contents) ∧
    Failing op reply := by
  -- Case by case: each other operation either leaves the stage as it is or moves it to a stage
  -- that is not `rejected`.
  cases op with
  | begin =>
      cases reply with
      | ok number => cases stage
      | error err => exact .inl stage
  | exec number statement =>
      cases reply with
      | none =>
          cases statement with
          | lock => cases stage
          | create => cases stage
          | apply file contents =>
              obtain ⟨-, names, left, here⟩ := allowed
              simp only [Progress.after, Progress.reach, Progress.executed, here] at stage
              cases stage
          | record file =>
              obtain ⟨names, left, here⟩ := allowed
              simp only [Progress.after, Progress.reach, Progress.executed, here] at stage
              cases stage
      | some err =>
          cases statement with
          | apply file contents =>
              cases stage
              exact .inr ⟨contents, rfl, Option.some_ne_none err⟩
          | _ => cases stage
  | check number file =>
      obtain ⟨names, left, here⟩ := allowed
      cases reply with
      | error err => cases stage
      | ok found => simp [Progress.after, Progress.reach, Progress.checked, here] at stage
  | readDir =>
      obtain ⟨number, here⟩ := allowed
      cases reply with
      | some err => exact .inl stage
      | none => simp [Progress.after, Progress.reach, Progress.loads, here] at stage
  | readFile file =>
      obtain ⟨number, names, left, here⟩ := allowed
      cases reply with
      | some err => exact .inl stage
      | none => simp [Progress.after, Progress.reach, Progress.loads, here] at stage
  | commit number => cases stage
  | rollback number =>
      refine .inl ?_
      simp only [Progress.after, Progress.reach, Progress.rolledBack] at stage
      split at stage
      · cases stage
      · rename_i here
        rw [here, stage]
      · cases stage

end Rejections

structure Started (accepts : Acceptance) (faulty : Bool) (base : Database) (pg : Postgres)
    (all : List Progress) : Prop where
  balanced : Balanced base pg all
  explained : ∀ progress ∈ all, ∀ tx name, progress.stage = .rejected tx name →
    faulty = true ∨ Rejected accepts base (all.map Progress.fs) progress.fs name

def starting (accepts : Acceptance) (faulty : Bool) :
    Discipline (startupSystem accepts faulty) Progress where
  protocol := migrating faulty true
  first := .first
  post := Concluded faulty true
  obeyed _ fs _ := applyMigrations_obeys fs

theorem Balanced.spawn {base : Database} {pg : Postgres} {all : List Progress}
    (balanced : Balanced base pg all) (fs : FileSystem) :
    Balanced base pg (all ++ [.first fs]) := by
  obtain ⟨order, serial⟩ := balanced.serial
  have idle {progress : Progress} (new : progress = .first fs) : ¬progress.Holding := by
    rintro ⟨_, _, _, stage⟩
    rw [new] at stage
    cases stage
  refine ⟨?_, fun first second one two here there holds holding => ?_,
    fun progress member tx names point stage => ?_, order, serial.spawn fs⟩
  · rw [List.filterMap_append]
    exact balanced.custody.perm
      (by rw [List.filterMap_cons_none rfl, List.filterMap_nil, List.append_nil])
  · rcases getElem?_concat_some here with located | new
    · rcases getElem?_concat_some there with placed | new
      · exact balanced.single first second one two located placed holds holding
      · exact absurd holding (idle new)
    · exact absurd holds (idle new)
  · rcases List.mem_append.mp member with old | new
    · exact balanced.working progress old tx names point stage
    · exact absurd ⟨tx, names, point, stage⟩ (idle (List.mem_singleton.mp new))

theorem Started.perform {base : Database} {pg next : Postgres} {all : List Progress} {index : Nat}
    {progress : Progress} (started : Started accepts faulty base pg all)
    (found : all[index]? = some progress) {op : Effect} {reply : effects.Reply op}
    (allowed : progress.May op) (handled : Handles accepts faulty pg op reply next) :
    Started accepts faulty base next (all.set index (progress.after op reply)) := by
  have files : (all.set index (progress.after op reply)).map Progress.fs = all.map Progress.fs := by
    rw [List.map_set, progress.after_fs]
    exact set_of_getElem? (by rw [List.getElem?_map, found, Option.map_some])
  refine ⟨(started.balanced.perform found allowed handled).2, fun other member tx name stage => ?_⟩
  rw [files]
  rcases List.mem_or_eq_of_mem_set member with old | rfl
  · exact started.explained other old tx name stage
  · rw [progress.after_fs]
    rcases Progress.rejects allowed stage with before | ⟨contents, rfl, failing⟩
    · exact started.explained progress (List.mem_of_getElem? found) tx name before
    · -- The statement was refused by the database, or its connection failed.
      rcases handled with answered | ⟨broken, -⟩
      · refine .inr ?_
        have executes : progress.Executes tx (.apply name contents) := allowed
        obtain ⟨own, claims, -⟩ := Progress.claim_of_executes executes
        have located := started.balanced.located found claims
        simp only [Postgres.answer, located] at answered
        split at answered
        · cases answered
          exact absurd rfl failing
        · rename_i judged
          obtain ⟨_, _, same, unfit⟩ :=
            started.balanced.applies_of_refused found executes located judged
          cases same
          exact started.balanced.rejected found executes located unfit
        · cases answered
      · exact .inl broken

theorem starting_preserves (base : Database) :
    (starting accepts faulty).Preserves (Started accepts faulty base) where
  spawn started _ := by
    refine ⟨started.balanced.spawn _, fun progress member tx name stage => ?_⟩
    rw [List.map_append]
    rcases List.mem_append.mp member with old | new
    · exact (started.explained progress old tx name stage).imp_right
        (·.mono (List.subset_append_left _ _))
    · obtain rfl := List.mem_singleton.mp new
      cases stage
  perform started found allowed handled :=
    ⟨(started.balanced.perform found allowed handled).1, started.perform found allowed handled⟩
  move _ moved := moved.elim

def Postgres.left (table : Bool) (base : Database) : Postgres := ⟨table, base, []⟩

theorem balanced_left (table : Bool) (base : Database) : Balanced base (.left table base) [] where
  custody := .empty
  single _ _ _ _ found := by simp at found
  working := List.forall_mem_nil _
  serial := ⟨[], List.nodup_nil, List.forall_mem_nil _, fun _ _ _ found => by simp at found, rfl⟩

theorem phase_fs (thread : Thread (startupSystem accepts faulty)) :
    ((starting accepts faulty).phase thread).fs = thread.task := by
  have kept (trace : List (Event effects)) (progress : Progress) :
      ((migrating faulty true).advance progress trace).fs = progress.fs := by
    induction trace generalizing progress with
    | nil => rfl
    | cons event trace ih => exact (ih _).trans (progress.after_fs event.op event.reply)
  exact kept thread.past (.first thread.task)

section Runs

variable {table : Bool} {base : Database} {pool : Pool (startupSystem accepts faulty)}
  (steps : (Pool.initial (.left table base)).Steps pool)
include steps

theorem starting_holds : (starting accepts faulty).Holds (Started accepts faulty base) pool :=
  (starting_preserves base).holds_steps
    ((starting accepts faulty).holds_initial ⟨balanced_left table base, List.forall_mem_nil _⟩)
    steps

end Runs

theorem versions_of_startups {base : Database} {runs : List Startup} (run : Startup)
    (member : run ∈ runs) (sound : run.faults = fun _ => none) {name : String}
    (file : IsMigration run.fs name) : name ∈ (startups base runs).versions := by
  have grows (db : Database) (next : Startup) {version : String} (old : version ∈ db.versions) :
      version ∈ (Storage.ApplyMigrations next.faults next.fs db).1.versions := by
    rcases applyMigrations_cases next.faults next.fs db with ⟨err, failed⟩ | succeeded
    · rw [failed]
      exact old
    · rw [succeeded]
      exact List.mem_append_left _ old
  have stays (runs : List Startup) (db : Database)
      {version : String} (old : version ∈ db.versions) : version ∈ (startups db runs).versions := by
    induction runs generalizing db with
    | nil => exact old
    | cons next runs ih => exact ih _ (grows db next old)
  induction runs generalizing base with
  | nil => cases member
  | cons next runs ih =>
      rcases List.mem_cons.mp member with rfl | later
      · refine stays runs _ ?_
        show name ∈ (Storage.ApplyMigrations run.faults run.fs base).1.versions
        rw [sound, applyMigrations_none, Database.extended, List.mem_append]
        by_cases old : name ∈ base.versions
        · exact .inl old
        · exact .inr (List.mem_filter.mpr ⟨mem_migrationFiles.mpr file, by simpa using old⟩)
      · exact ih later

theorem Balanced.recorded {base : Database} {pg : Postgres} {all : List Progress}
    (balanced : Balanced base pg all) (recorded : Recorded base) : Recorded pg.committed := by
  obtain ⟨order, serial⟩ := balanced.serial
  rw [serial.result]
  exact recorded_startups (history all order) recorded

theorem Balanced.applied {base : Database} {pg : Postgres} {all : List Progress}
    (balanced : Balanced base pg all) (recorded : Recorded base) {progress : Progress}
    (member : progress ∈ all) {tx : Nat} (stage : progress.stage = .committed tx false)
    {name : String} (file : IsMigration progress.fs name) :
    name ∈ pg.committed.executed.map Prod.fst := by
  obtain ⟨order, serial⟩ := balanced.serial
  obtain ⟨index, located⟩ := List.mem_iff_getElem?.mp member
  rw [(balanced.recorded recorded).names, serial.result]
  refine versions_of_startups progress.startup (List.mem_filterMap.mpr ⟨index, ?_, ?_⟩) rfl file
  · exact serial.complete index progress tx located stage
  · rw [located, Option.map_some]

section Results

variable {table : Bool} {base : Database} {pool : Pool (startupSystem accepts faulty)}
  (steps : (Pool.initial (.left table base)).Steps pool)
include steps

/-- Servers that start at once leave what they would leave one after another: the committed
database is that of the runs that committed, in some order and without a fault. These are
the runs that returned nil, and at most runs whose commit was what failed. Nothing is
executed twice, and everything of a run that returned nil has been executed. Scripts are
taken neither to commit nor to touch `schema_migrations`. -/
theorem startups_serializable (recorded : Recorded base) :
    ∃ order : List Nat, order.Nodup ∧
    (∀ index ∈ order, ∃ thread, pool.threads[index]? = some thread ∧
      ∀ exit, thread.exit = some exit → exit = .returned none ∨ faulty = true ∧
      ∃ cause, exit = .returned (some (.wrap "commit migrations" cause))) ∧
    pool.shared.committed = startups base (order.filterMap fun index => pool.threads[index]?.map
        fun thread => ⟨thread.task, fun _ => none⟩) ∧
    (pool.shared.committed.executed.map Prod.fst).Nodup ∧
    ∀ index thread, pool.threads[index]? = some thread → thread.exit = some (.returned none) →
    index ∈ order ∧ ∀ name, IsMigration thread.task name →
    name ∈ pool.shared.committed.executed.map Prod.fst := by
  have holds := starting_holds steps
  obtain ⟨order, serial⟩ := holds.1.balanced.serial
  -- `Serial` speaks of the files that the runs have noted; these are the files their servers
  -- were started with.
  have same : history ((starting accepts faulty).phases pool) order = order.filterMap fun index =>
      pool.threads[index]?.map fun thread => ⟨thread.task, fun _ => none⟩ := by
    refine List.filterMap_congr fun index _ => ?_
    rw [Discipline.phases, List.getElem?_map, Option.map_map]
    refine congrArg (Option.map · pool.threads[index]?) (funext fun thread => ?_)
    simp only [Function.comp, Progress.startup, phase_fs]
  have kept := holds.1.balanced.recorded recorded
  refine ⟨order, serial.once, fun index member => ?_, same ▸ serial.result, ?_,
    fun index thread found ended => ?_⟩
  -- A run in the order has committed, so it ended well or with the error of that commit.
  · obtain ⟨progress, located, tx, failed, stage⟩ := serial.members index member
    obtain ⟨thread, found, rfl⟩ := (starting accepts faulty).thread_of_phase located
    refine ⟨thread, found, fun exit ended => ?_⟩
    have concluded := holds.post_of_exit (List.mem_of_getElem? found) ended
    cases exit with
    | aborted reason => exact concluded.elim
    | returned failure =>
        cases failure with
        | none => exact .inl rfl
        | some err =>
            obtain ⟨broken, idle | ⟨_, refused⟩ | ⟨_, cause, -, rfl⟩⟩ |
              ⟨-, _, _, _, rejected, -⟩ := concluded
            · cases stage.symm.trans idle
            · cases stage.symm.trans refused
            · exact .inr ⟨broken, cause, rfl⟩
            · cases stage.symm.trans rejected
  · rw [kept.names]
    exact kept.once
  · obtain ⟨tx, stage⟩ := holds.post_of_exit (List.mem_of_getElem? found) ended
    refine ⟨serial.complete index _ tx ((starting accepts faulty).phases_getElem? found) stage,
      fun name file => ?_⟩
    refine holds.1.balanced.applied recorded
      ((starting accepts faulty).mem_phases (List.mem_of_getElem? found)) stage ?_
    rw [phase_fs]
    exact file

end Results

/-! Two servers of different releases -/

/-- The first release has one file, the second one more. -/
def oldFiles : FileSystem := ⟨[("001_init.sql", false)], fun _ => [], by decide⟩

def newFiles : FileSystem :=
  ⟨[("002_more.sql", false), ("001_init.sql", false), ("embed.go", false)], fun _ => [], by decide⟩

/-- A database that takes every script but a broken one. -/
def sampleAccepts : Acceptance := fun _ contents => decide (contents ≠ utf8 "BROKEN SQL")

def sampleServers : Pool (startupSystem sampleAccepts false) :=
  ⟨.left false .empty, [oldFiles, newFiles].map .start⟩

/-- Both begin, and the second one waits for the lock until the first one has committed. -/
def samplePool : Pool (startupSystem sampleAccepts false) :=
  sampleServers.schedule (Postgres.answer · sampleAccepts)
    ([0, 1, 0, 1] ++ List.replicate 9 0 ++ List.replicate 14 1)

theorem sampleServers_steps : (Pool.initial (.left false .empty)).Steps sampleServers :=
  Pool.spawn_steps [oldFiles, newFiles] (fun _ _ => trivial) []

theorem samplePool_steps : (Pool.initial (.left false .empty)).Steps samplePool :=
  sampleServers_steps.trans (Pool.schedule_steps Postgres.handles_of_answer _ _)

/-- Each file is applied by one of the two. -/
theorem startups_serializable_sample :
    samplePool.shared.committed.executed = [("001_init.sql", []), ("002_more.sql", [])] ∧
      (samplePool.threads.map fun thread => thread.exit.isSome) = [true, true] ∧
      (samplePool.shared.committed.executed.map Prod.fst).Nodup := by
  obtain ⟨order, -, -, -, once, -⟩ := startups_serializable samplePool_steps ⟨rfl, List.nodup_nil⟩
  exact ⟨by decide +kernel, by decide +kernel, once⟩

/-! Every run ends -/

end ModelGate.Storage.Migration
