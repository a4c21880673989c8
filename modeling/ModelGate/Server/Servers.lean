import ModelGate.Server.Run

/-! Any number of servers that run on one database, in every interleaving. -/

set_option autoImplicit false

namespace ModelGate.Server

open Config Semantics
open Storage (Database FileSystem IsMigration Recorded)
open Storage.Migration (Acceptance Postgres Progress Balanced)
open Service (GatewayOptions)

variable {accepts : Acceptance} {faulty : Bool}

def serverSystem (accepts : Acceptance) (faulty : Bool) :
    System calls Postgres Process (Option Err) where
  body := run
  admits _ process := process.source.Representable
  handles _ pg
    | .inl _, _, next => next = pg
    | .inr op, reply, next => Storage.Migration.Handles accepts faulty pg op reply next
  moves _ _ := False

def running (accepts : Acceptance) (faulty : Bool) :
    Discipline (serverSystem accepts faulty) Watch where
  protocol := lifecycle
  first := .first
  post := Restores fun _ => false
  obeyed _ process representable := run_obeys process representable

/-! What one server keeps -/

namespace Watch

variable {watch : Watch} {op : calls.Op}

/-- A resource is held as long as it was acquired more often than released. -/
def Counted (watch : Watch) : Prop :=
  ∀ resource, acquired resource watch.past =
    released resource watch.past + (watch.held resource).toNat

/-- Whatever was served was configured, and what it takes had been done. -/
def Prepared (watch : Watch) : Prop :=
  ∀ addr options, Listened watch.past addr options → ∃ cfg, watch.process.Offers cfg addr options ∧
    watch.Ready cfg

/-- Whoever is still to answer requests has what it takes. -/
def Sheltered (watch : Watch) : Prop :=
  httpServer watch.past = .signalled → ∃ addr options cfg, watch.process.Offers cfg addr options ∧
    watch.Equipped cfg

theorem acquired_concat (resource : Resource) (past : List (Event calls)) (event : Event calls) :
    acquired resource (past ++ [event]) =
      acquired resource past + (acquires event).toList.count resource := by
  rw [acquired, List.filterMap_append, List.count_append, acquired]
  cases found : acquires event <;> simp [found]

theorem released_concat (resource : Resource) (past : List (Event calls)) (event : Event calls) :
    released resource (past ++ [event]) =
      released resource past + (releases event).toList.count resource := by
  rw [released, List.filterMap_append, List.count_append, released]
  cases found : releases event <;> simp [found]

section Step

variable (allowed : lifecycle.may watch op) (reply : calls.Reply op)
include allowed

theorem acquires_free {resource : Resource} (found : acquires ⟨op, reply⟩ = some resource) :
    watch.held resource = false := by
  unfold acquires at found
  split at found
  · rename_i same
    cases same
    cases found
    exact allowed
  · rename_i same
    cases same
    cases found
    exact allowed.1
  · cases found

theorem releases_held {resource : Resource} (found : releases ⟨op, reply⟩ = some resource) :
    watch.held resource = true ∧ acquires ⟨op, reply⟩ = none := by
  unfold releases at found
  split at found
  · rename_i same
    cases same
    cases found
    exact ⟨allowed.1, rfl⟩
  · cases found

theorem Counted.after (counted : watch.Counted) : (watch.after op reply).Counted := by
  intro resource
  have before := counted resource
  show acquired resource (watch.past ++ [_]) = released resource (watch.past ++ [_]) +
    (keeps watch.held ⟨op, reply⟩ resource).toNat
  rw [acquired_concat, released_concat, keeps]
  cases taken : acquires ⟨op, reply⟩ with
  | some other =>
      have free := acquires_free allowed reply taken
      have kept : releases ⟨op, reply⟩ = none := by
        refine Option.eq_none_iff_forall_ne_some.mpr fun gone found => ?_
        cases taken.symm.trans (releases_held allowed reply found).2
      rw [kept]
      by_cases same : resource = other
      · subst same
        simp [before, free]
      · simp [before, same, Ne.symm same]
  | none =>
      cases given : releases ⟨op, reply⟩ with
      | some other =>
          have held := (releases_held allowed reply given).1
          by_cases same : resource = other
          · subst same
            simp [before, held]
          · simp [before, same, Ne.symm same]
      | none => simp [before]

theorem Ready.after {cfg : ServerConfig} (ready : watch.Ready cfg) :
    (watch.after op reply).Ready cfg where
  pinged enabled := List.mem_append_left _ (ready.pinged enabled)
  migrated enabled := by
    obtain ⟨tx, stage⟩ := ready.migrated enabled
    cases op with
    | inl op => exact ⟨tx, stage⟩
    | inr op => exact ⟨tx, Progress.after_of_committed stage allowed.2.2 reply⟩

theorem Prepared.after (prepared : watch.Prepared) : (watch.after op reply).Prepared := by
  rintro addr options ⟨ending, member⟩
  rcases List.mem_append.mp member with old | new
  · obtain ⟨cfg, offers, ready⟩ := prepared addr options ⟨ending, old⟩
    exact ⟨cfg, offers, ready.after allowed reply⟩
  · cases List.mem_singleton.mp new
    obtain ⟨cfg, offers, equipped⟩ := allowed.2
    exact ⟨cfg, offers, equipped.toReady.after allowed ending⟩

theorem Sheltered.after (sheltered : watch.Sheltered) : (watch.after op reply).Sheltered := by
  intro serving
  rw [httpServer_after] at serving
  -- An operation that is not one of the server leaves it as it is, and no client is released
  -- meanwhile.
  have stays (same : (httpServer watch.past).after ⟨op, reply⟩ = httpServer watch.past)
        (grows : ∀ resource, watch.held resource = true →
        (watch.after op reply).held resource = true) :
      ∃ addr options cfg, watch.process.Offers cfg addr options ∧
      (watch.after op reply).Equipped cfg := by
    obtain ⟨addr, options, cfg, offers, equipped⟩ := sheltered (same.symm.trans serving)
    refine ⟨addr, options, cfg, offers, equipped.toReady.after allowed reply, fun enabled => ?_,
      fun enabled => ?_⟩
    · exact grows _ (equipped.redisClient enabled)
    · exact grows _ (equipped.pool enabled)
  have updated (resource other : Resource) (held : watch.held other = true) :
      Function.update watch.held resource true other = true := by
    by_cases same : other = resource
    · rw [same, Function.update_self]
    · rwa [Function.update_of_ne same]
  cases op with
  | inr op => exact stays rfl fun _ held => held
  | inl op =>
      cases op with
      | acquire resource => exact stays rfl (updated resource)
      | release resource => exact absurd serving allowed.2
      | newWithConfig maxConns connectTimeout =>
          cases reply with
          | none => exact stays rfl (updated .pool)
          | some err => exact stays rfl fun _ held => held
      | listenAndServe addr options =>
          obtain ⟨-, cfg, offers, equipped⟩ := allowed
          exact ⟨addr, options, cfg, offers, equipped.after rfl rfl rfl⟩
      | shutdown => cases reply <;> cases serving
      | _ => exact stays rfl fun _ held => held

end Step

end Watch

/-! What all of them keep -/

structure Running (base : Database) (pg : Postgres) (all : List Watch) : Prop where
  migrations : Balanced base pg (all.map Watch.migration)
  counted : ∀ watch ∈ all, watch.Counted
  prepared : ∀ watch ∈ all, watch.Prepared
  sheltered : ∀ watch ∈ all, watch.Sheltered

theorem running_preserves (base : Database) :
    (running accepts faulty).Preserves (Running base) where
  spawn := by
    intro pg all process kept _
    refine ⟨?_, List.forall_mem_append.mpr ⟨kept.counted, ?_⟩, List.forall_mem_append.mpr
      ⟨kept.prepared, ?_⟩, List.forall_mem_append.mpr ⟨kept.sheltered, ?_⟩⟩
    · rw [List.map_append]
      exact kept.migrations.spawn process.fs
    · exact List.forall_mem_singleton.mpr fun _ => rfl
    · refine List.forall_mem_singleton.mpr ?_
      rintro addr options ⟨ending, member⟩
      cases member
    · exact List.forall_mem_singleton.mpr fun impossible => nomatch impossible
  perform := by
    intro pg all index watch op reply next kept found allowed handled
    have member := List.mem_of_getElem? found
    have set (P : Watch → Prop) (before : ∀ watch ∈ all, P watch)
        (here : P (watch.after op reply)) : ∀ other ∈ all.set index (watch.after op reply),
        P other := by
      intro other inside
      rcases List.mem_or_eq_of_mem_set inside with old | rfl
      · exact before other old
      · exact here
    have counted := set _ kept.counted ((kept.counted watch member).after allowed reply)
    have prepared := set _ kept.prepared ((kept.prepared watch member).after allowed reply)
    have sheltered := set _ kept.sheltered ((kept.sheltered watch member).after allowed reply)
    have located : (all.map Watch.migration)[index]? = some watch.migration := by
      rw [List.getElem?_map, found, Option.map_some]
    cases op with
    -- An operation of the server itself leaves the database and all migrations as they are.
    | inl op =>
        have same : (all.set index (watch.after (.inl op) reply)).map Watch.migration =
            all.map Watch.migration := by
          rw [List.map_set]
          exact set_of_getElem? located
        obtain rfl : next = pg := handled
        exact ⟨trivial, same ▸ kept.migrations, counted, prepared, sheltered⟩
    | inr op =>
        obtain ⟨-, migrations⟩ := kept.migrations.perform located allowed.2.2 handled
        refine ⟨trivial, ?_, counted, prepared, sheltered⟩
        show Balanced base next ((all.set index (watch.after (.inr op) reply)).map Watch.migration)
        rw [List.map_set]
        exact migrations
  move _ moved := moved.elim

theorem running_phase (thread : Thread (serverSystem accepts faulty)) :
    ((running accepts faulty).phase thread).process = thread.task ∧
    ((running accepts faulty).phase thread).past = thread.past ∧
    ((running accepts faulty).phase thread).migration.fs = thread.task.fs := by
  have kept (trace : List (Event calls)) (watch : Watch) : (lifecycle.advance watch trace).process =
        watch.process ∧ (lifecycle.advance watch trace).past = watch.past ++ trace ∧
      (lifecycle.advance watch trace).migration.fs = watch.migration.fs := by
    induction trace generalizing watch with
    | nil => exact ⟨rfl, (List.append_nil _).symm, rfl⟩
    | cons event trace ih =>
        obtain ⟨process, past, fs⟩ := ih (watch.after event.op event.reply)
        refine ⟨process, past.trans (List.append_assoc _ _ _), fs.trans ?_⟩
        rcases event with ⟨op | op, reply⟩
        · rfl
        · exact watch.migration.after_fs op reply
  exact kept thread.past (.first thread.task)

/-! The results -/

/-- The operations during which requests are answered. -/
def Effect.serves : Effect → Bool
  | .listenAndServe _ _ | .shutdown => true
  | _ => false

/-- One server among others. -/
structure Orderly (pool : Pool (serverSystem accepts faulty))
    (thread : Thread (serverSystem accepts faulty)) : Prop where
  /-- Nothing is acquired twice or released twice. -/
  single : ∀ resource, released resource thread.past ≤ acquired resource thread.past ∧
    acquired resource thread.past ≤ released resource thread.past + 1
  /-- In the end everything is released. Without an error the server has served and stopped;
  with one, the process could not be built or an operation has failed. -/
  ended : ∀ exit, thread.exit = some exit → ∃ failure, exit = .returned failure ∧
    (∀ resource, acquired resource thread.past = released resource thread.past) ∧
    (failure = none → (∃ addr options, Listened thread.past addr options) ∧
      (httpServer thread.past = .drained ∨ httpServer thread.past = .closed)) ∧
    (failure ≠ none → (httpServer thread.past = .idle ∨ httpServer thread.past = .abandoned) ∧
      (thread.task.Unfit ∨ ∃ event ∈ thread.past, Failed event))
  /-- What is served is what is configured, when Redis has answered and each migration has
  been executed once. -/
  served : ∀ addr options, Listened thread.past addr options ∨
    thread.current = some (.inl (.listenAndServe addr options)) →
    ∃ cfg, thread.task.Offers cfg addr options ∧ (cfg.redisEnabled = true → Pinged thread.past) ∧
    (cfg.postgresEnabled = true → ∀ name, IsMigration thread.task.fs name →
      (pool.shared.committed.executed.map Prod.fst).count name = 1)
  /-- The clients are open while the server listens and from its signal until `Shutdown` has
  returned. After an error of `ListenAndServe` or `Shutdown` the server is abandoned, and
  nothing keeps the clients open for its handlers. -/
  opened : (∃ op, thread.current = some (.inl op) ∧ op.serves = true) ∨
    httpServer thread.past = .signalled →
    ∃ cfg, Load thread.task.source thread.task.reading thread.task.format = .ok cfg ∧
    (cfg.redisEnabled = true →
      acquired .redisClient thread.past = released .redisClient thread.past + 1) ∧
    (cfg.postgresEnabled = true → acquired .pool thread.past = released .pool thread.past + 1)

section Results

variable {table : Bool} {base : Database} {pool : Pool (serverSystem accepts faulty)}

theorem running_holds (steps : (Pool.initial (.left table base)).Steps pool) :
    (running accepts faulty).Holds (Running base) pool := by
  refine (running_preserves base).holds_steps
    ((running accepts faulty).holds_initial ⟨?_, ?_, ?_, ?_⟩) steps
  · exact Storage.Migration.balanced_left table base
  · exact List.forall_mem_nil _
  · exact List.forall_mem_nil _
  · exact List.forall_mem_nil _

theorem Running.served {pg : Postgres} {all : List Watch} (kept : Running base pg all)
    (recorded : Recorded base) {watch : Watch} (member : watch ∈ all) {cfg : ServerConfig}
    (ready : watch.Ready cfg) (enabled : cfg.postgresEnabled = true) {name : String}
    (file : IsMigration watch.migration.fs name) :
    (pg.committed.executed.map Prod.fst).count name = 1 := by
  obtain ⟨tx, stage⟩ := ready.migrated enabled
  have there := kept.migrations.applied recorded (List.mem_map_of_mem member) stage file
  have names := kept.migrations.recorded recorded
  refine List.count_eq_one_of_mem ?_ there
  rw [names.names]
  exact names.once

/-- However servers that share a database are interleaved, each of them serves only what it
has prepared, and releases each thing it has acquired exactly once. -/
theorem servers_orderly (steps : (Pool.initial (.left table base)).Steps pool)
    (recorded : Recorded base) : ∀ thread ∈ pool.threads, Orderly pool thread := by
  intro thread member
  have holds := running_holds steps
  have among := (running accepts faulty).mem_phases member
  have counted := holds.1.counted _ among
  obtain ⟨process, past, fs⟩ := running_phase thread
  have ready {cfg : ServerConfig} (ready : ((running accepts faulty).phase thread).Ready cfg) :
      (cfg.redisEnabled = true → Pinged thread.past) ∧
      (cfg.postgresEnabled = true → ∀ name, IsMigration thread.task.fs name →
        (pool.shared.committed.executed.map Prod.fst).count name = 1) := by
    rw [← past, ← fs]
    exact ⟨ready.pinged, fun enabled name file => holds.1.served recorded among ready enabled file⟩
  rw [Watch.Counted, past] at counted
  refine ⟨fun resource => ?_, fun exit ended => ?_, fun addr options serving => ?_,
    fun serving => ?_⟩
  · rw [counted resource]
    have few := Bool.toNat_le (((running accepts faulty).phase thread).held resource)
    omega
  · have restored := holds.post_of_exit member ended
    cases exit with
    | aborted reason => exact restored.elim
    | returned failure =>
        obtain ⟨free, accounted⟩ := restored
        refine ⟨failure, rfl, fun resource => ?_, fun success => ?_, fun failed => ?_⟩
        · rw [counted resource, free]
          rfl
        · subst success
          rw [← past]
          exact accounted
        · obtain ⟨err, rfl⟩ := Option.ne_none_iff_exists'.mp failed
          rw [← past, ← process]
          exact accounted
  · rcases serving with listened | current
    · obtain ⟨cfg, offers, prepared⟩ := holds.1.prepared _ among addr options (past ▸ listened)
      exact ⟨cfg, process ▸ offers, ready prepared⟩
    · obtain ⟨-, cfg, offers, equipped⟩ := holds.may_of_current member current
      exact ⟨cfg, process ▸ offers, ready equipped.toReady⟩
  -- Requests are answered during both operations, and between the signal and `Shutdown`; in all
  -- three the stores are still open.
  · have equipped : ∃ addr options cfg, ((running accepts faulty).phase thread).process.Offers cfg
          addr options ∧ ((running accepts faulty).phase thread).Equipped cfg := by
      rcases serving with ⟨op, current, serves⟩ | serving
      · have allowed := holds.may_of_current member current
        cases op with
        | listenAndServe addr options =>
            obtain ⟨-, cfg, offers, equipped⟩ := allowed
            exact ⟨addr, options, cfg, offers, equipped⟩
        | shutdown =>
            obtain ⟨-, addr, options, cfg, -, offers, equipped⟩ := allowed
            exact ⟨addr, options, cfg, offers, equipped⟩
        | _ => cases serves
      · exact holds.1.sheltered _ among (past ▸ serving)
    obtain ⟨addr, options, cfg, offers, equipped⟩ := equipped
    refine ⟨cfg, process ▸ offers.loaded, fun enabled => ?_, fun enabled => ?_⟩
    · rw [counted, equipped.redisClient enabled]
      rfl
    · rw [counted, equipped.pool enabled]
      rfl

end Results

/-! A server that is told to stop, and one that is starting -/

def sampleProcess (fs : FileSystem) : Process :=
  ⟨sampleSource, sampleReading, sampleFormat, sampleParse, fs⟩

def sampleReply : (op : Effect) → effects.Reply op
  | .acquire _ | .release _ => ()
  | .ping | .parseConfig _ | .newWithConfig _ _ | .pingPool | .shutdown => none
  | .listenAndServe _ _ => .signalled

def sampleAnswer (accepts : Acceptance) (pg : Postgres) :
    (op : calls.Op) → Option (calls.Reply op × Postgres)
  | .inl op => some (sampleReply op, pg)
  | .inr op => pg.answer accepts op

theorem handles_of_sampleAnswer {index : Nat} {pg next : Postgres} {op : calls.Op}
    {reply : calls.Reply op} (answered : sampleAnswer accepts pg op = some (reply, next)) :
    (serverSystem accepts false).handles index pg op reply next := by
  cases op with
  | inl op =>
      cases answered
      rfl
  | inr op => exact .inl answered

def startedServers : Pool (serverSystem Storage.Migration.sampleAccepts false) :=
  ⟨.left false .empty,
    ([Storage.Migration.oldFiles, Storage.Migration.newFiles].map sampleProcess).map .start⟩

theorem startedServers_steps : (Pool.initial (.left false .empty)).Steps startedServers :=
  Pool.spawn_steps ([Storage.Migration.oldFiles, Storage.Migration.newFiles].map sampleProcess)
    (List.forall_mem_map.mpr fun _ _ => sampleSource_representable) []

/-- The second one waits for the lock until the first one has migrated; the first one runs
to its end. -/
def sampleRun : Pool (serverSystem Storage.Migration.sampleAccepts false) :=
  startedServers.schedule (sampleAnswer Storage.Migration.sampleAccepts)
    (List.replicate 11 0 ++ List.replicate 12 1 ++ List.replicate 40 0 ++ List.replicate 12 1)

/-- The first one has stopped, and the second one is serving. -/
theorem servers_orderly_sample :
    (sampleRun.threads.map fun thread =>
      (thread.exit.isSome, thread.current.any (Sum.elim Effect.serves fun _ => false))) =
      [(true, false), (false, true)] ∧ ∀ thread ∈ sampleRun.threads, Orderly sampleRun thread :=
  ⟨by decide +kernel,
    servers_orderly (startedServers_steps.trans (Pool.schedule_steps handles_of_sampleAnswer _ _))
    ⟨rfl, List.nodup_nil⟩⟩

end ModelGate.Server
