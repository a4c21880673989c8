import Mathlib.Data.List.MinMax
import ModelGate.Semantics.Finish
import ModelGate.Storage.Ledger

/-! What the usage tables hold after any interleaving of `Record` calls, and that no call hangs. -/

set_option autoImplicit false

namespace ModelGate.Storage.Usage

open Data Numeric Semantics

variable {limits : Limits} {faulty : Bool}

/-! The tables -/

/-- The tables as a new transaction reads them. -/
def Database.tables (db : Database) : Rows :=
  ⟨db.visible.flatMap Rows.providers, db.visible.flatMap Rows.requests,
    db.visible.flatMap Rows.usage⟩

/-- The constraints of the tables, and one usage row for each request. -/
structure Rows.Consistent (rows : Rows) : Prop where
  providers : rows.providers.Nodup
  requests : rows.requestIDs.Nodup
  usage : rows.usageIDs.Perm rows.requestIDs
  references : ∀ row ∈ rows.requests, row.provider ∈ rows.providers

def Database.start (base : Rows) : Database := ⟨base, [], []⟩

namespace Database

variable {db : Database}

theorem tables_requestIDs : db.tables.requestIDs = db.visible.flatMap Rows.requestIDs :=
  List.map_flatMap ..

theorem tables_usageIDs : db.tables.usageIDs = db.visible.flatMap Rows.usageIDs :=
  List.map_flatMap ..

theorem nodup_visible {K : Type} {keys : Rows → List K} (all : (db.bundles.flatMap keys).Nodup) :
    (db.visible.flatMap keys).Nodup := by
  rw [bundles, List.flatMap_append] at all
  exact List.Nodup.of_append_left all

theorem Keyed.consistent (keyed : db.Keyed)
    (paired : ∀ rows ∈ db.visible, rows.usageIDs.Perm rows.requestIDs) : db.tables.Consistent := by
  refine ⟨nodup_visible keyed.providers, ?_, ?_, fun row member => ?_⟩
  · rw [tables_requestIDs]
    exact nodup_visible keyed.requests
  · rw [tables_usageIDs, tables_requestIDs]
    exact List.Perm.flatMap_left _ paired
  · obtain ⟨rows, among, inside⟩ := List.mem_flatMap.mp member
    have known := keyed.references rows (List.mem_append_left _ among) row inside
    rw [List.flatMap_cons] at known
    rcases List.mem_append.mp known with own | seen
    · exact List.mem_flatMap.mpr ⟨rows, among, own⟩
    · exact seen

end Database

theorem Rows.Consistent.balanced {base : Rows} (consistent : base.Consistent) :
    Balanced limits faulty (.start base) [] := by
  have single {K : Type} (keys : Rows → List K) : (Database.start base).bundles.flatMap keys =
      keys base := by
    simp [Database.bundles, Database.visible, Database.start]
  refine ⟨⟨?_, ?_, ?_, ?_⟩, ⟨.empty, ?_, ?_, ?_, List.nodup_nil⟩, ?_⟩
  · rw [single]
    exact consistent.providers
  · rw [single]
    exact consistent.requests
  · rw [single]
    exact consistent.usage.nodup_iff.mpr consistent.requests
  · intro rows member row inside
    obtain rfl : rows = base := by
      simpa [Database.bundles, Database.visible, Database.start] using member
    exact List.mem_append_left _ (consistent.references row inside)
  · exact List.forall_mem_nil _
  · exact List.forall_mem_nil _
  · exact List.forall_mem_nil _
  · intro rows member
    obtain rfl : rows = base := by simpa [Database.visible, Database.start] using member
    exact consistent.usage

/-! Runs of calls -/

def recording (limits : Limits) (faulty : Bool) :
    Discipline (ledgerSystem limits faulty) Progress where
  protocol := storing limits faulty
  first := .first
  post := Concluded faulty
  obeyed _ record _ := record_obeys record

theorem recording_preserves : (recording limits faulty).Preserves (Balanced limits faulty) where
  spawn balanced _ := ⟨balanced.keyed, balanced.tracked.spawn _, balanced.paired⟩
  perform balanced found allowed handled := balanced.perform found allowed handled
  move _ moved := moved.elim

section Runs

variable {base : Rows} {pool : Pool (ledgerSystem limits faulty)} (consistent : base.Consistent)
  (steps : (Pool.initial (.start base)).Steps pool)
include consistent steps

theorem recording_holds : (recording limits faulty).Holds (Balanced limits faulty) pool :=
  recording_preserves.holds_steps
    ((recording limits faulty).holds_initial consistent.balanced) steps

end Runs

theorem after_record (limits : Limits) (progress : Progress) (op : Effect)
    (reply : effects.Reply op) :
    (progress.after limits op reply).record = progress.record ∧
    ∀ given, progress.createdAt = some given →
    (progress.after limits op reply).createdAt = some given := by
  unfold Progress.after
  split
  · exact ⟨rfl, fun given time => by simp only [time, Option.getD_some]⟩
  · exact ⟨rfl, fun _ time => time⟩
  · exact ⟨rfl, fun _ time => time⟩
  · split <;> exact ⟨rfl, fun _ time => time⟩
  · exact ⟨rfl, fun _ time => time⟩
  · split <;> exact ⟨rfl, fun _ time => time⟩
  · exact ⟨rfl, fun _ time => time⟩

theorem phase_record (thread : Thread (ledgerSystem limits faulty)) :
    ((recording limits faulty).phase thread).record = thread.task ∧
    ∀ given, thread.task.createdAt = some given →
    ((recording limits faulty).phase thread).createdAt = some given := by
  have kept (trace : List (Event effects)) (progress : Progress) :
      ((storing limits faulty).advance progress trace).record = progress.record ∧
      ∀ given, progress.createdAt = some given →
      ((storing limits faulty).advance progress trace).createdAt = some given := by
    induction trace generalizing progress with
    | nil => exact ⟨rfl, fun _ time => time⟩
    | cons event trace ih =>
        obtain ⟨same, time⟩ := after_record limits progress event.op event.reply
        obtain ⟨later, kept⟩ := ih (progress.after limits event.op event.reply)
        exact ⟨later.trans same, fun given here => kept given (time given here)⟩
  exact kept thread.past (.first thread.task)

/-- The rows a call leaves: a request and its usage, of the values of its record and one time. -/
def RequestRecord.Written (limits : Limits) (record : RequestRecord) (rows : Rows) : Prop :=
  ∃ createdAt row usage, (∀ given, record.createdAt = some given → createdAt = given) ∧
    (record.insertRequest createdAt).requestRow limits = some row ∧
    (record.insertUsage createdAt).usageRow limits = some usage ∧ rows.requests = [row] ∧
    rows.usage = [usage] ∧ (rows.providers = [] ∨ rows.providers = [record.provider])

theorem Shape.written {record : RequestRecord} {createdAt : Int} {rows : Rows}
    (shape : Shape limits record createdAt 3 rows)
    (time : ∀ given, record.createdAt = some given → createdAt = given) :
    record.Written limits rows := by
  rcases shape.requests with ⟨-, impossible⟩ | ⟨row, accepted, only, -⟩
  · exact absurd impossible (by decide)
  · rcases shape.usage with ⟨-, impossible⟩ | ⟨usage, taken, alone, -⟩
    · exact absurd impossible (by decide)
    · exact ⟨createdAt, row, usage, time, accepted, taken, only, alone,
        shape.providers.imp_right And.left⟩

/-! A run of three calls -/

def sampleRecord (requestID : String) : RequestRecord :=
  ⟨requestID, "mock", "mock-model", "succeeded", 3, 5, 8, 1500000, .ofRat 0, "MISS", "", none⟩

def sampleRecords : List RequestRecord :=
  [sampleRecord "00000000-0000-4000-8000-000000000001",
    sampleRecord "00000000-0000-4000-8000-000000000002",
    sampleRecord "00000000000040008000000000000001"]

/-- Index rows of a third of a page. -/
def sampleLimits : Limits where
  cost _ := true
  name name := decide (name.utf8ByteSize ≤ 2600)
  model provider model := decide (provider.utf8ByteSize + model.utf8ByteSize ≤ 2600)

def sampleCalls (faulty : Bool) : Pool (ledgerSystem sampleLimits faulty) :=
  ⟨.start .empty, sampleRecords.map .start⟩

/-- Two calls with one new provider, the second of which has to wait for the first, and a
third call with the identifier of the first. -/
def samplePool (faulty : Bool) : Pool (ledgerSystem sampleLimits faulty) :=
  (sampleCalls faulty).schedule (Database.answer sampleLimits) [0, 0, 0, 1, 1, 1, 0, 0, 0, 1, 0, 1,
    1, 1, 1, 2, 2, 2, 2, 2]

theorem sampleCalls_steps (faulty : Bool) :
    (Pool.initial (.start .empty)).Steps (sampleCalls faulty) :=
  Pool.spawn_steps sampleRecords (fun _ _ => trivial) []

theorem sample_steps (faulty : Bool) : (Pool.initial (.start .empty)).Steps (samplePool faulty) :=
  (sampleCalls_steps faulty).trans (Pool.schedule_steps Database.handles_of_answer _ _)

theorem empty_consistent : Rows.empty.Consistent :=
  ⟨List.nodup_nil, List.nodup_nil, List.Perm.refl _, List.forall_mem_nil _⟩

def outcomes {faulty : Bool} (pool : Pool (ledgerSystem sampleLimits faulty)) :
    List (Option Bool) :=
  pool.threads.map fun thread => thread.exit.map fun
    | .returned failure => failure.isNone
    | .aborted _ => false

section Runs

variable {base : Rows} {pool : Pool (ledgerSystem limits faulty)} (consistent : base.Consistent)
  (steps : (Pool.initial (.start base)).Steps pool)
include consistent steps

theorem committed_by {commit : Nat × Rows} (member : commit ∈ pool.shared.commits) :
    ∃ (index : Nat) (thread : Thread (ledgerSystem limits faulty)) (failed : Bool),
    pool.threads[index]? = some thread ∧
    ((recording limits faulty).phase thread).stage = .committed commit.1 commit.2 failed := by
  obtain ⟨balanced, -⟩ := recording_holds consistent steps
  obtain ⟨progress, among, failed, stage⟩ := balanced.tracked.origin commit member
  obtain ⟨index, located⟩ := List.mem_iff_getElem?.mp among
  obtain ⟨thread, found, rfl⟩ := (recording limits faulty).thread_of_phase located
  exact ⟨index, thread, failed, found, stage⟩

theorem written_of_committed {thread : Thread (ledgerSystem limits faulty)}
    (member : thread ∈ pool.threads) {tx : Nat} {rows : Rows} {failed : Bool}
    (stage : ((recording limits faulty).phase thread).stage = .committed tx rows failed) :
    thread.task.Written limits rows := by
  obtain ⟨balanced, -⟩ := recording_holds consistent steps
  have sound := balanced.tracked.sound _ ((recording limits faulty).mem_phases member)
  rw [Progress.Sound, stage] at sound
  obtain ⟨createdAt, time, shape⟩ := sound
  obtain ⟨same, given⟩ := phase_record thread
  rw [same] at shape
  exact shape.written fun other here => Option.some.inj (time.symm.trans (given other here))

theorem committed_once {index other : Nat} {first second : Thread (ledgerSystem limits faulty)}
    (found : pool.threads[index]? = some first) (located : pool.threads[other]? = some second)
    {tx : Nat} {mine yours : Rows} {failed broken : Bool}
    (one : ((recording limits faulty).phase first).stage = .committed tx mine failed)
    (two : ((recording limits faulty).phase second).stage = .committed tx yours broken) :
    index = other := by
  obtain ⟨balanced, -⟩ := recording_holds consistent steps
  refine balanced.tracked.custody.holder_eq ((recording limits faulty).phases_getElem? found)
    ((recording limits faulty).phases_getElem? located) tx (b := none) (c := none) ?_ ?_
  · rw [Progress.claim, one]
  · rw [Progress.claim, two]

theorem exit_of_committed {thread : Thread (ledgerSystem limits faulty)}
    (member : thread ∈ pool.threads) {tx : Nat} {rows : Rows} {failed : Bool}
    (stage : ((recording limits faulty).phase thread).stage = .committed tx rows failed)
    {exit : Exit (Option Err)} (ended : thread.exit = some exit) :
    exit = .returned none ∨ faulty = true ∧
    ∃ cause, exit = .returned (some (.wrap "commit usage transaction" cause)) := by
  have concluded := (recording_holds consistent steps).post_of_exit member ended
  cases exit with
  | aborted reason => exact concluded.elim
  | returned failure =>
      cases failure with
      | none => exact .inl rfl
      | some err =>
          rcases concluded with ⟨idle, -⟩ | ⟨_, refused⟩ | ⟨_, _, cause, -, rfl, broken⟩
          · cases stage.symm.trans idle
          · cases stage.symm.trans refused
          · exact .inr ⟨broken, cause, rfl⟩

/-- In every state of every interleaving the tables keep their constraints, and every
request has exactly one usage row, whatever connections failed on the way. -/
theorem tables_consistent : pool.shared.tables.Consistent := by
  obtain ⟨balanced, -⟩ := recording_holds consistent steps
  exact balanced.keyed.consistent balanced.paired

omit consistent steps in
theorem tables_consistent_sample : (samplePool true).shared.tables.requests.length = 2 ∧
    (samplePool true).shared.tables.providers = ["mock"] ∧
    (samplePool true).shared.tables.Consistent :=
  ⟨by decide +kernel, by decide +kernel, tables_consistent empty_consistent (sample_steps true)⟩

/-- Committed transactions are calls: each holds the rows of one call, no call has two, a
call that returned nil has one, and a call that returned an error has none unless its commit
was what failed. -/
theorem commits_match_calls : ∃ owner : Nat → Nat,
    (∀ commit ∈ pool.shared.commits, ∃ thread, pool.threads[owner commit.1]? = some thread ∧
      thread.task.Written limits commit.2 ∧
      ∀ exit, thread.exit = some exit → exit = .returned none ∨
        faulty = true ∧
          ∃ cause, exit = .returned (some (.wrap "commit usage transaction" cause))) ∧
    (pool.shared.commits.map fun commit => owner commit.1).Nodup ∧
    ∀ index thread, pool.threads[index]? = some thread → thread.exit = some (.returned none) →
      ∃ commit ∈ pool.shared.commits, owner commit.1 = index := by
  have holds := recording_holds consistent steps
  have owners (tx : Nat) : ∃ index : Nat, tx ∈ pool.shared.commits.map Prod.fst →
      ∃ thread rows failed, pool.threads[index]? = some thread ∧
      ((recording limits faulty).phase thread).stage = .committed tx rows failed ∧
      (tx, rows) ∈ pool.shared.commits := by
    by_cases among : tx ∈ pool.shared.commits.map Prod.fst
    · obtain ⟨commit, member, rfl⟩ := List.mem_map.mp among
      obtain ⟨index, thread, failed, found, stage⟩ := committed_by consistent steps member
      exact ⟨index, fun _ => ⟨thread, commit.2, failed, found, stage, member⟩⟩
    · exact ⟨0, fun member => absurd member among⟩
  choose owner owned using owners
  refine ⟨owner, fun commit member => ?_, ?_, fun index thread found ended => ?_⟩
  · obtain ⟨thread, rows, failed, found, stage, again⟩ :=
      owned commit.1 (List.mem_map_of_mem member)
    obtain rfl : rows = commit.2 := by
      have once := List.inj_on_of_nodup_map holds.1.tracked.once again member rfl
      rw [← once]
    exact ⟨thread, found, written_of_committed consistent steps (List.mem_of_getElem? found) stage,
      fun exit ended => exit_of_committed consistent steps (List.mem_of_getElem? found) stage ended⟩
  · have composed : (pool.shared.commits.map fun commit => owner commit.1) =
        (pool.shared.commits.map Prod.fst).map owner := by
      rw [List.map_map]
      rfl
    rw [composed]
    refine List.Nodup.map_on (fun tx member number other same => ?_) holds.1.tracked.once
    obtain ⟨first, mine, failed, found, one, -⟩ := owned tx member
    obtain ⟨second, yours, broken, located, two, -⟩ := owned number other
    rw [same, located] at found
    cases found
    cases one.symm.trans two
    rfl
  · obtain ⟨tx, rows, stage⟩ := holds.post_of_exit (List.mem_of_getElem? found) ended
    have stored := holds.1.tracked.stored _
      ((recording limits faulty).mem_phases (List.mem_of_getElem? found)) tx rows stage
    obtain ⟨other, _, _, located, two, -⟩ := owned tx (List.mem_map_of_mem (f := Prod.fst) stored)
    exact ⟨(tx, rows), stored, committed_once consistent steps located found two stage⟩

end Runs

theorem commits_match_calls_sample : (samplePool true).shared.commits.length = 2 ∧
    outcomes (samplePool true) = [some true, some true, some false] ∧
    ∃ owner : Nat → Nat,
      (∀ commit ∈ (samplePool true).shared.commits,
        ∃ thread, (samplePool true).threads[owner commit.1]? = some thread ∧
          thread.task.Written sampleLimits commit.2) ∧
      ((samplePool true).shared.commits.map fun commit => owner commit.1).Nodup ∧
      ∀ index thread, (samplePool true).threads[index]? = some thread →
        thread.exit = some (.returned none) →
        ∃ commit ∈ (samplePool true).shared.commits, owner commit.1 = index := by
  obtain ⟨owner, owned, once, complete⟩ := commits_match_calls empty_consistent (sample_steps true)
  refine ⟨by decide +kernel, by decide +kernel, owner, fun commit member => ?_, once, complete⟩
  obtain ⟨thread, found, written, -⟩ := owned commit member
  exact ⟨thread, found, written⟩

/-! Calls on a database whose connections do not fail -/

section Reliable

variable {base : Rows} {pool : Pool (ledgerSystem limits false)} (consistent : base.Consistent)
  (steps : (Pool.initial (.start base)).Steps pool)
include consistent steps

theorem refused_of_error {thread : Thread (ledgerSystem limits false)}
    (member : thread ∈ pool.threads) {err : Err}
    (ended : thread.exit = some (.returned (some err))) :
    ¬thread.task.Complete ∨ ¬thread.task.Storable limits ∨
    Taken pool.shared.visible thread.task := by
  have holds := recording_holds consistent steps
  obtain ⟨same, -⟩ := phase_record thread
  rw [← same]
  rcases holds.post_of_exit member ended with ⟨-, incomplete⟩ | ⟨tx, refused⟩ |
    ⟨_, _, _, _, _, broken⟩
  · exact .inl (incomplete rfl)
  · have sound := holds.1.tracked.sound _ ((recording limits false).mem_phases member)
    rw [Progress.Sound, refused] at sound
    exact .inr (sound rfl)
  · cases broken

theorem taken_of_nil {thread : Thread (ledgerSystem limits false)} (member : thread ∈ pool.threads)
    (ended : thread.exit = some (.returned none)) : Taken pool.shared.visible thread.task := by
  have holds := recording_holds consistent steps
  obtain ⟨tx, rows, stage⟩ := holds.post_of_exit member ended
  have stored := holds.1.tracked.stored _ ((recording limits false).mem_phases member) tx rows stage
  obtain ⟨createdAt, row, usage, -, accepted, -, only, -⟩ :=
    written_of_committed consistent steps member stage
  refine ⟨row.id, (requestRow_fields accepted).1, List.mem_flatMap.mpr ⟨rows, ?_, ?_⟩⟩
  · exact List.mem_cons_of_mem _ (List.mem_map_of_mem (f := Prod.snd) stored)
  · rw [Rows.requestIDs, only]
    exact List.mem_singleton.mpr rfl

theorem ended_cases {thread : Thread (ledgerSystem limits false)} (member : thread ∈ pool.threads)
    {exit : Exit (Option Err)} (ended : thread.exit = some exit) :
    exit = .returned none ∨ ¬thread.task.Complete ∨ ¬thread.task.Storable limits ∨
      Taken pool.shared.visible thread.task := by
  cases exit with
  | aborted reason => exact ((recording_holds consistent steps).post_of_exit member ended).elim
  | returned failure =>
      cases failure with
      | none => exact .inl rfl
      | some err => exact .inr (refused_of_error consistent steps member ended)

theorem taken_of_ended {thread : Thread (ledgerSystem limits false)}
    (member : thread ∈ pool.threads) {exit : Exit (Option Err)} (ended : thread.exit = some exit)
    (complete : thread.task.Complete) (fits : thread.task.Storable limits) :
    Taken pool.shared.visible thread.task := by
  rcases ended_cases consistent steps member ended with rfl | incomplete | unfit | taken
  · exact taken_of_nil consistent steps member ended
  · exact absurd complete incomplete
  · exact absurd fits unfit
  · exact taken

theorem rows_of_taken {record : RequestRecord} (taken : Taken pool.shared.visible record) :
    ∃ uuid, parseUUID record.requestID = some uuid ∧ pool.shared.tables.requestIDs.count uuid = 1 ∧
    pool.shared.tables.usageIDs.count uuid = 1 := by
  obtain ⟨balanced, -⟩ := recording_holds consistent steps
  have tables := balanced.keyed.consistent balanced.paired
  obtain ⟨uuid, parsed, among⟩ := taken
  rw [← Database.tables_requestIDs] at among
  have once := List.count_eq_one_of_mem tables.requests among
  exact ⟨uuid, parsed, once, (tables.usage.count_eq uuid).trans once⟩

/-- When no connection fails and no context ends, a call returns an error for a record that
is incomplete or does not fit the columns and indexes and for an identifier that is there
already, and for nothing else. A record that is complete and fits has exactly one request
row and one usage row once a call with it has returned, whatever it returned. -/
theorem errors_explained {thread : Thread (ledgerSystem limits false)}
    (member : thread ∈ pool.threads) {exit : Exit (Option Err)} (ended : thread.exit = some exit) :
    (exit ≠ .returned none → ¬thread.task.Complete ∨ ¬thread.task.Storable limits ∨
      ∃ uuid, parseUUID thread.task.requestID = some uuid ∧ uuid ∈ pool.shared.tables.requestIDs) ∧
    (thread.task.Complete → thread.task.Storable limits →
      ∃ uuid, parseUUID thread.task.requestID = some uuid ∧
      pool.shared.tables.requestIDs.count uuid = 1 ∧
      pool.shared.tables.usageIDs.count uuid = 1) := by
  refine ⟨fun failed => ?_, fun complete fits => ?_⟩
  · rw [Database.tables_requestIDs]
    exact (ended_cases consistent steps member ended).resolve_left failed
  · exact rows_of_taken consistent steps
      (taken_of_ended consistent steps member ended complete fits)

end Reliable

/-- The third call is refused for the identifier of the first. -/
theorem errors_explained_sample : ∃ thread ∈ (samplePool false).threads, ∃ err, thread.exit =
      some (.returned (some err)) ∧ (¬thread.task.Complete ∨ ¬thread.task.Storable sampleLimits ∨
      ∃ uuid, parseUUID thread.task.requestID = some uuid ∧
      uuid ∈ (samplePool false).shared.tables.requestIDs) := by
  have refused : outcomes (samplePool false) = [some true, some true, some false] := by
    decide +kernel
  have last : (outcomes (samplePool false))[2]? = some (some false) := by rw [refused]; rfl
  rw [outcomes, List.getElem?_map] at last
  obtain ⟨thread, found, outcome⟩ := Option.map_eq_some_iff.mp last
  obtain ⟨exit, ended, failed⟩ := Option.map_eq_some_iff.mp outcome
  have member := List.mem_of_getElem? found
  obtain ⟨reasons, -⟩ := errors_explained empty_consistent (sample_steps false) member ended
  cases exit with
  | aborted reason =>
      exact ((recording_holds empty_consistent (sample_steps false)).post_of_exit member ended).elim
  | returned failure =>
      cases failure with
      | none => cases failed
      | some err => exact ⟨thread, member, err, ended, reasons (by simp)⟩

/-! No call hangs -/

/-- The rows of a transaction that has executed a statement and inserted its key. -/
def Rows.Hold (rows : Rows) : Nat → Prop
  | 0 => rows.providers ≠ []
  | 1 => rows.requests ≠ []
  | _ => rows.usage ≠ []

/-- What a statement waits for: another transaction in progress that has already executed
the same statement. -/
theorem waits_for {db : Database} {tx : Nat} {own : Rows} {record : RequestRecord} {createdAt : Int}
    {finished : Nat} {statement : Statement}
    (planned : record.statement createdAt finished = some statement)
    (waits : db.judge limits tx own statement = .waits) :
    ∃ rows ∈ db.others tx, rows.Hold finished := by
  rcases statement_cases planned with ⟨rfl, rfl⟩ | ⟨rfl, rfl⟩ | ⟨rfl, rfl⟩
  · simp only [RequestRecord.ensureProvider, Database.judge] at waits
    split at waits
    · cases waits
    · split at waits
      · cases waits
      · rename_i pending
        obtain ⟨rows, member, inside⟩ := Database.pending_of_presence pending
        exact ⟨rows, member, List.ne_nil_of_mem inside⟩
      · cases waits
  · simp only [RequestRecord.insertRequest, Database.judge] at waits
    split at waits
    · cases waits
    · split at waits
      · cases waits
      · rename_i pending
        obtain ⟨rows, member, inside⟩ := Database.pending_of_presence pending
        obtain ⟨row, among, -⟩ := List.mem_map.mp inside
        exact ⟨rows, member, List.ne_nil_of_mem among⟩
      · split at waits <;> cases waits
  · simp only [RequestRecord.insertUsage, Database.judge] at waits
    split at waits
    · cases waits
    · split at waits
      · cases waits
      · rename_i pending
        obtain ⟨rows, member, inside⟩ := Database.pending_of_presence pending
        obtain ⟨row, among, -⟩ := List.mem_map.mp inside
        exact ⟨rows, member, List.ne_nil_of_mem among⟩
      · split at waits <;> cases waits

/-- A transaction that holds the key of a statement is further on. -/
theorem Shape.further {record : RequestRecord} {createdAt : Int} {finished reached : Nat}
    {rows : Rows} (shape : Shape limits record createdAt reached rows) (holds : rows.Hold finished)
    (early : finished < 3) : finished < reached := by
  match finished, early with
  | 0, _ => exact (shape.providers.resolve_left holds).2
  | 1, _ =>
      obtain ⟨_, _, _, late⟩ := shape.requests.resolve_left fun none' => holds none'.1
      exact late
  | 2, _ =>
      obtain ⟨_, _, _, late⟩ := shape.usage.resolve_left fun none' => holds none'.1
      exact late

/-- A call whose statement waits does so for a call that has executed more of its statements. -/
theorem Balanced.behind {db : Database} {all : List Progress}
    (balanced : Balanced limits faulty db all) {createdAt : Int} {tx finished : Nat} {rows : Rows}
    {statement : Statement} {record : RequestRecord}
    (planned : record.statement createdAt finished = some statement)
    (waits : db.judge limits tx rows statement = .waits) :
    ∃ other ∈ all, ∃ number held reached, other.stage = .working number held reached ∧
    finished < reached := by
  obtain ⟨held, among, key⟩ := waits_for planned waits
  have early : finished < 3 := by
    rcases statement_cases planned with ⟨rfl, -⟩ | ⟨rfl, -⟩ | ⟨rfl, -⟩ <;> decide
  -- The rows belong to a transaction in progress, and that one to a call.
  obtain ⟨entry, inside, rfl⟩ := List.mem_filterMap.mp among
  obtain ⟨number, located⟩ := List.mem_iff_getElem?.mp inside
  have place : db.transactions[number]? = some (some held) := by
    rcases getElem?_set_some located with ⟨-, impossible⟩ | ⟨-, there⟩
    · cases impossible
    · exact there
  obtain ⟨other, member, claim⟩ := List.mem_filterMap.mp (balanced.tracked.custody.claimed place)
  have sound := balanced.tracked.sound other member
  unfold Progress.claim at claim
  split at claim
  · cases claim
  · rename_i tx' rows' reached stage
    cases claim
    rw [Progress.Sound, stage] at sound
    obtain ⟨time, -, shape⟩ := sound.shape
    exact ⟨other, member, number, held, reached, stage, shape.further key early⟩
  · cases claim
  · cases claim

/-- How many statements a call in its transaction has executed. -/
def Progress.executed (progress : Progress) : Nat :=
  match progress.stage with
  | .working _ _ finished => finished
  | _ => 0

/-- A call that no other one is ahead of is answered at once. -/
theorem Balanced.answered {db : Database} {all : List Progress}
    (balanced : Balanced limits faulty db all) {index : Nat} {progress : Progress}
    (found : all[index]? = some progress)
    (foremost : ∀ other ∈ all, other.executed ≤ progress.executed) {op : Effect}
    (allowed : progress.May op) : (db.answer limits op).isSome := by
  cases op with
  | now => rfl
  | begin => rfl
  | exec tx statement =>
      obtain ⟨rows, finished, createdAt, working, time, planned⟩ := allowed
      refine Database.answer_exec (balanced.tracked.located found working) fun waits => ?_
      obtain ⟨other, member, number, held, reached, stage, ahead⟩ := balanced.behind planned waits
      have behind : reached ≤ finished := by
        simpa only [Progress.executed, stage, working] using foremost other member
      omega
  | commit tx =>
      obtain ⟨rows, working⟩ := allowed
      simp only [Database.answer, balanced.tracked.located found working, Option.isSome_some]
  | rollback tx => rfl

theorem executed_of_concluded {exit : Exit (Option Err)} {progress : Progress}
    (concluded : Concluded faulty exit progress) : progress.executed = 0 := by
  have idle (stage : ∀ tx rows finished, progress.stage ≠ .working tx rows finished) :
      progress.executed = 0 := by
    unfold Progress.executed
    split
    · rename_i working
      exact absurd working (stage _ _ _)
    · rfl
  refine idle fun tx rows finished working => ?_
  cases exit with
  | aborted reason => exact concluded
  | returned failure =>
      cases failure with
      | none =>
          obtain ⟨_, _, stage⟩ := concluded
          cases working.symm.trans stage
      | some err =>
          rcases concluded with ⟨stage, -⟩ | ⟨_, stage⟩ |
            ⟨_, _, _, stage, -⟩ <;> cases working.symm.trans stage

/-- While a call has not returned, some call can go on. -/
theorem recording_live {pool : Pool (ledgerSystem limits faulty)}
    (holds : (recording limits faulty).Holds (Balanced limits faulty) pool)
    (thread : Thread (ledgerSystem limits faulty)) (member : thread ∈ pool.threads)
    (running : thread.exit = none) : ∃ next, pool.Advances next := by
  let executed := fun thread => ((recording limits faulty).phase thread).executed
  -- The foremost call, or this one when none has executed anything.
  obtain ⟨first, inside, active, most⟩ : ∃ first ∈ pool.threads, first.exit = none ∧
      ∀ other ∈ pool.threads, executed other ≤ executed first := by
    cases largest : pool.threads.argmax executed with
    | none => exact absurd (List.argmax_eq_none.mp largest ▸ member) List.not_mem_nil
    | some first =>
        have inside := List.argmax_mem largest
        have most := fun other among => List.le_of_mem_argmax (a := other) among largest
        cases ended : first.exit with
        | none => exact ⟨first, inside, ended, most⟩
        | some exit =>
            have none' : executed first = 0 :=
              executed_of_concluded (holds.post_of_exit inside ended)
            exact ⟨thread, member, running, fun other among => Nat.le_trans (most other among)
              (by omega)⟩
  obtain ⟨index, found⟩ := List.mem_iff_getElem?.mp inside
  have foremost : ∀ other ∈ (recording limits faulty).phases pool,
      other.executed ≤ ((recording limits faulty).phase first).executed := by
    intro other among
    obtain ⟨source, here, rfl⟩ := List.mem_map.mp among
    exact most source here
  refine Pool.advances_of_answered found active fun op current => ?_
  have allowed := holds.may_of_current inside current
  obtain ⟨⟨reply, shared⟩, answered⟩ := Option.isSome_iff_exists.mp
    (holds.1.answered ((recording limits faulty).phases_getElem? found) foremost allowed)
  exact ⟨reply, shared, Database.handles_of_answer answered⟩

/-- The clock, a begin, three statements, a commit and a rollback. -/
theorem record_within (record : RequestRecord) : (Record record).Within 7 := by
  have finish (tx : Nat) : (RequestRecord.finish tx).Within 1 :=
    Program.within_call_bind fun _ => Program.within_done
  have execute {bound tx : Nat} {statement : Statement} {message : String}
      {next : Program effects (Option Err)} (rest : next.Within bound) :
      (RequestRecord.execute tx statement message next).Within (bound + 1) := by
    refine Program.within_call_bind fun answer => ?_
    cases answer with
    | error err => exact Program.within_done
    | ok count => exact rest
  have store (createdAt : Int) : (record.store createdAt).Within 6 := by
    unfold RequestRecord.store
    split
    · exact Program.within_done
    · split
      · exact Program.within_done
      · refine Program.within_call_bind fun answer => ?_
        cases answer with
        | error err => exact Program.within_done
        | ok tx => exact (execute (execute (execute (finish tx)))).ensuring_call
  unfold Record RequestRecord.stamp
  cases record.createdAt with
  | some createdAt => exact (store createdAt).mono (by decide)
  | none => exact Program.within_call_bind store

/-- No call hangs: each performs at most seven operations, and from every state of every
interleaving the calls there are can all be brought to return, also when a connection fails.
A call waits only for one that has executed more of its statements, so the foremost call
never waits. -/
theorem calls_finish {base : Rows} {pool : Pool (ledgerSystem limits faulty)}
    (consistent : base.Consistent) (steps : (Pool.initial (.start base)).Steps pool) :
    (∀ thread ∈ pool.threads, thread.past.length ≤ 7) ∧
    ∃ last, Relation.ReflTransGen Pool.Advances pool last ∧
    ∀ thread ∈ last.threads, ∃ failure, thread.exit = some (.returned failure) := by
  have timely := Pool.inTime_steps record_within steps
  refine ⟨fun thread member => (timely thread member).1, ?_⟩
  obtain ⟨last, path, holds, ended⟩ := Pool.finishes record_within
    (fun holds advances => recording_preserves.holds_step holds advances.step) recording_live
    (recording_holds consistent steps) timely
  refine ⟨last, path, fun thread member => ?_⟩
  cases exit : thread.exit with
  | none => exact absurd exit (ended thread member)
  | some way =>
      cases way with
      | returned failure => exact ⟨failure, rfl⟩
      | aborted reason => exact (holds.post_of_exit member exit).elim

/-- The calls of the sample before any of them has gone on. -/
theorem calls_finish_sample : ∃ last, Relation.ReflTransGen Pool.Advances (sampleCalls true) last ∧
    ∀ thread ∈ last.threads, ∃ failure, thread.exit = some (.returned failure) :=
  (calls_finish empty_consistent (sampleCalls_steps true)).2

end ModelGate.Storage.Usage
