import ModelGate.Server.Startup
import ModelGate.Service.Gateway
import ModelGate.Storage.Startups

/-! `run` of `cmd/server`, and any number of servers that run on one database.

What has to be closed, stopped or cancelled is a resource. A deferred call runs
however the function returns, and the deferred calls run in reverse order.
-/

set_option autoImplicit false

namespace ModelGate.Server

open Data Config Semantics
open Storage (FileSystem IsMigration Recorded)
open Storage.Migration (Postgres Progress Balanced)
open Service (GatewayOptions)

/-! The operations of `run` -/

inductive Resource where
  | redisClient
  | redisCtx
  | storageCtx
  | pool
  | shutdownSignal
  | shutdownCtx
  deriving DecidableEq

/-- What the `select` of `run` receives. -/
inductive Ending where
  | closed
  | failed (err : Err)
  | signalled

inductive Effect where
  | acquire (resource : Resource)
  | release (resource : Resource)
  | ping
  | parseConfig (dsn : Bytes)
  | newWithConfig (maxConns connectTimeout : Int)
  | pingPool
  | listenAndServe (addr : Bytes) (options : GatewayOptions)
  | shutdown

abbrev effects : Signature where
  Op := Effect
  Reply
    | .acquire _ | .release _ => Unit
    | .ping | .parseConfig _ | .newWithConfig _ _ | .pingPool | .shutdown => Option Err
    | .listenAndServe _ _ => Ending

/-- With the statements of the migrations. -/
abbrev calls : Signature := effects.sum Storage.Migration.effects

def effect (op : Effect) : Program calls (effects.Reply op) := .call (S := calls) (.inl op)

/-- An operation that only fails or succeeds. -/
def attempt (operation : Program calls (Option Err)) (failing : Err → Program calls (Option Err))
    (next : Program calls (Option Err)) : Program calls (Option Err) := do
  let failed ← operation
  match failed with
  | some err => failing err
  | none => next

def fails (message : String) (err : Err) : Program calls (Option Err) :=
  pure (some (.wrap message err))

/-- A resource that is released when the body has ended. -/
def holding (resource : Resource) (body : Program calls (Option Err)) :
    Program calls (Option Err) := do
  effect (.acquire resource)
  body.ensuring (effect (.release resource))

/-! `run` -/

def stopServing : Program calls (Option Err) :=
  attempt (effect .shutdown) (fails "shutdown HTTP server") (pure none)

def serve (cfg : ServerConfig) (options : GatewayOptions) : Program calls (Option Err) := do
  let ending ← effect (.listenAndServe cfg.httpAddr options)
  match ending with
  | .closed => pure none
  | .failed err => fails "serve HTTP" err
  | .signalled => holding .shutdownCtx stopServing

def listen (cfg : ServerConfig) (options : GatewayOptions) : Program calls (Option Err) :=
  holding .shutdownSignal (serve cfg options)

/-- The context of the storage is cancelled before each return. -/
def storageFails (message : String) (err : Err) : Program calls (Option Err) := do
  effect (.release .storageCtx)
  fails message err

/-- The adapter is never nil, so that the usage repository is always made. -/
def migrated (cfg : ServerConfig) (fs : FileSystem) (options : GatewayOptions) :
    Program calls (Option Err) :=
  attempt (effect .pingPool) (storageFails "ping PostgreSQL")
    (attempt ((Storage.Migration.ApplyMigrations fs).along (.inr effects Storage.Migration.effects))
      (storageFails "apply PostgreSQL migrations") (do
        effect (.release .storageCtx)
        listen cfg { options with recorder := true }))

def openStorage (cfg : ServerConfig) (fs : FileSystem) (options : GatewayOptions) :
    Program calls (Option Err) :=
  if cfg.postgresEnabled then
    attempt (effect (.parseConfig cfg.postgresDSN)) (fails "parse PostgreSQL config") (do
      effect (.acquire .storageCtx)
      attempt (effect (.newWithConfig cfg.postgresMaxConns cfg.storageTimeout))
        (storageFails "create PostgreSQL pool")
        ((migrated cfg fs options).ensuring (effect (.release .pool))))
  else listen cfg options

/-- What the stores refuse. The client is never nil. -/
def refused (cfg : ServerConfig) : Option Err :=
  match RateLimit.NewRedisLimiter cfg.rateLimitRPM cfg.rateLimitBurst with
  | .error message => some (.wrap "create rate limiter" (.text message))
  | .ok _ =>
      match Idempotency.Expiry.NewRedisStore true cfg.idempotencyLockTTL cfg.idempotencyTTL with
      | .error message => some (.wrap "create idempotency store" (.text message))
      | .ok _ =>
          match NewRedisCache true cfg.cacheTTL with
          | .error message => some (.wrap "create response cache" (.text message))
          | .ok _ => none

def pinged (cfg : ServerConfig) (fs : FileSystem) (options : GatewayOptions) :
    Program calls (Option Err) := do
  effect (.acquire .redisCtx)
  let failed ← effect .ping
  effect (.release .redisCtx)
  match failed with
  | some err => fails "ping Redis" err
  | none =>
      match refused cfg with
      | some err => pure (some err)
      | none =>
          openStorage cfg fs { options with limiter := true, idempotency := true, cache := true }

def openRedis (cfg : ServerConfig) (fs : FileSystem) (options : GatewayOptions) :
    Program calls (Option Err) :=
  if cfg.redisEnabled then holding .redisClient (pinged cfg fs options)
  else openStorage cfg fs options

/-- What a process reads: its environment and the files embedded in it. -/
structure Process where
  source : Source
  reading : Reading
  format : ConnectionURL → Bytes
  parse : ParseURL
  fs : FileSystem

def gatewayOptions (cfg : ServerConfig) : GatewayOptions :=
  ⟨false, cfg.rateLimitFailOpen, false, false, false, "router"⟩

def run (process : Process) : Program calls (Option Err) :=
  match Load process.source process.reading process.format with
  | .error message => fails "load config" (.text message)
  | .ok cfg =>
      match buildProviderRouter process.parse process.reading cfg with
      | .error message => pure (some (.text message))
      | .ok _ => openRedis cfg process.fs (gatewayOptions cfg)

/-! What a run has done -/

def acquires : Event calls → Option Resource
  | ⟨.inl (.acquire resource), _⟩ => some resource
  | ⟨.inl (.newWithConfig _ _), none⟩ => some .pool
  | _ => none

def releases : Event calls → Option Resource
  | ⟨.inl (.release resource), _⟩ => some resource
  | _ => none

def acquired (resource : Resource) (past : List (Event calls)) : Nat :=
  (past.filterMap acquires).count resource

def released (resource : Resource) (past : List (Event calls)) : Nat :=
  (past.filterMap releases).count resource

/-- The operation of an event reported an error. -/
def Failed : Event calls → Prop
  | ⟨.inl .ping, failed⟩ | ⟨.inl (.parseConfig _), failed⟩ | ⟨.inl (.newWithConfig _ _), failed⟩
  | ⟨.inl .pingPool, failed⟩ | ⟨.inl .shutdown, failed⟩ => failed.isSome
  | ⟨.inl (.listenAndServe _ _), ending⟩ => ∃ err, ending = .failed err
  | ⟨.inr op, reply⟩ => Storage.Migration.Failing op reply
  | _ => False

/-- The HTTP server of a run. One that is abandoned may still have handlers in flight. -/
inductive HttpServer where
  | idle
  | signalled
  | drained
  | closed
  | abandoned
  deriving DecidableEq

def HttpServer.after (server : HttpServer) : Event calls → HttpServer
  | ⟨.inl (.listenAndServe _ _), .signalled⟩ => .signalled
  | ⟨.inl (.listenAndServe _ _), .closed⟩ => .closed
  | ⟨.inl (.listenAndServe _ _), .failed _⟩ => .abandoned
  | ⟨.inl .shutdown, none⟩ => .drained
  | ⟨.inl .shutdown, some _⟩ => .abandoned
  | _ => server

def httpServer (past : List (Event calls)) : HttpServer := past.foldl HttpServer.after .idle

theorem httpServer_concat (past : List (Event calls)) (event : Event calls) :
    httpServer (past ++ [event]) = (httpServer past).after event := List.foldl_append

def Pinged (past : List (Event calls)) : Prop := ⟨.inl .ping, none⟩ ∈ past

def Listened (past : List (Event calls)) (addr : Bytes) (options : GatewayOptions) : Prop :=
  ∃ ending, ⟨.inl (.listenAndServe addr options), ending⟩ ∈ past

def configured (cfg : ServerConfig) : GatewayOptions :=
  ⟨cfg.redisEnabled, cfg.rateLimitFailOpen, cfg.redisEnabled, cfg.redisEnabled,
    cfg.postgresEnabled, "router"⟩

structure Process.Offers (process : Process) (cfg : ServerConfig) (addr : Bytes)
    (options : GatewayOptions) : Prop where
  loaded : Load process.source process.reading process.format = .ok cfg
  addr : addr = cfg.httpAddr
  options : options = configured cfg

/-- A process that cannot be built: its environment is refused, or a base URL is. -/
def Process.Unfit (process : Process) : Prop :=
  (∃ message, Load process.source process.reading process.format = .error message) ∨
    ∃ cfg, Load process.source process.reading process.format = .ok cfg ∧
      ∃ target ∈ cfg.providers, fault process.parse cfg target ≠ none

/-! The phases of a run -/

structure Watch where
  process : Process
  past : List (Event calls)
  held : Resource → Bool
  migration : Progress

namespace Watch

def first (process : Process) : Watch := ⟨process, [], fun _ => false, .first process.fs⟩

def keeps (held : Resource → Bool) (event : Event calls) : Resource → Bool :=
  match acquires event with
  | some resource => Function.update held resource true
  | none =>
      match releases event with
      | some resource => Function.update held resource false
      | none => held

def migrates (migration : Progress) : (op : calls.Op) → calls.Reply op → Progress
  | .inl _, _ => migration
  | .inr op, reply => migration.after op reply

def after (watch : Watch) (op : calls.Op) (reply : calls.Reply op) : Watch where
  process := watch.process
  past := watch.past ++ [⟨op, reply⟩]
  held := keeps watch.held ⟨op, reply⟩
  migration := migrates watch.migration op reply

/-- What has to be done before requests are served. -/
structure Ready (watch : Watch) (cfg : ServerConfig) : Prop where
  pinged : cfg.redisEnabled = true → Pinged watch.past
  migrated : cfg.postgresEnabled = true → ∃ tx, watch.migration.stage = .committed tx false

/-- What has to be there while requests are served. -/
structure Equipped (watch : Watch) (cfg : ServerConfig) : Prop extends Ready watch cfg where
  redisClient : cfg.redisEnabled = true → watch.held .redisClient = true
  pool : cfg.postgresEnabled = true → watch.held .pool = true

def Allowed (watch : Watch) : Effect → Prop
  | .acquire resource => watch.held resource = false
  | .release resource => watch.held resource = true ∧ httpServer watch.past ≠ .signalled
  | .ping => watch.held .redisClient = true ∧ watch.held .redisCtx = true
  | .parseConfig _ => True
  | .newWithConfig _ _ => watch.held .pool = false ∧ watch.held .storageCtx = true
  | .pingPool => watch.held .pool = true ∧ watch.held .storageCtx = true
  | .listenAndServe addr options => watch.held .shutdownSignal = true ∧
      ∃ cfg, watch.process.Offers cfg addr options ∧ watch.Equipped cfg
  | .shutdown => watch.held .shutdownCtx = true ∧
      ∃ addr options cfg, Listened watch.past addr options ∧ watch.process.Offers cfg addr options ∧
        watch.Equipped cfg

end Watch

def lifecycle : Protocol calls Watch where
  may watch
    | .inl op => watch.Allowed op
    | .inr op => watch.held .pool = true ∧ watch.held .storageCtx = true ∧ watch.migration.May op
  answers _ _ _ := True
  after := Watch.after

/-- A run without an error has served requests and has stopped; one with an error has a
reason for it. -/
def Accounted (watch : Watch) : Option Err → Prop
  | none => (∃ addr options, Listened watch.past addr options) ∧
      (httpServer watch.past = .drained ∨ httpServer watch.past = .closed)
  | some _ => (httpServer watch.past = .idle ∨ httpServer watch.past = .abandoned) ∧
      (watch.process.Unfit ∨ ∃ event ∈ watch.past, Failed event)

/-- A part of a run leaves what it has found. -/
def Restores (held : Resource → Bool) : Exit (Option Err) → Watch → Prop
  | .returned failure, watch => watch.held = held ∧ Accounted watch failure
  | .aborted _, _ => False

namespace Watch

variable {watch : Watch} {cfg : ServerConfig} {op : calls.Op} {reply : calls.Reply op}

theorem httpServer_after (watch : Watch) (op : calls.Op) (reply : calls.Reply op) :
    httpServer (watch.after op reply).past = (httpServer watch.past).after ⟨op, reply⟩ :=
  httpServer_concat _ _

theorem waits (waiting : httpServer watch.past = .idle)
    (plain : HttpServer.after .idle ⟨op, reply⟩ = .idle) :
    httpServer (watch.after op reply).past = .idle := by
  rw [httpServer_after, waiting, plain]

theorem mem_after (watch : Watch) (op : calls.Op) (reply : calls.Reply op) :
    ⟨op, reply⟩ ∈ (watch.after op reply).past :=
  List.mem_append_right _ (List.mem_singleton_self _)

theorem Equipped.after (equipped : watch.Equipped cfg)
    (redisClient : (watch.after op reply).held .redisClient = watch.held .redisClient)
    (pool : (watch.after op reply).held .pool = watch.held .pool)
    (migration : (watch.after op reply).migration = watch.migration) :
    (watch.after op reply).Equipped cfg where
  pinged enabled := List.mem_append_left _ (equipped.pinged enabled)
  migrated enabled := by
    rw [migration]
    exact equipped.migrated enabled
  redisClient enabled := redisClient.trans (equipped.redisClient enabled)
  pool enabled := pool.trans (equipped.pool enabled)

end Watch

theorem Listened.after {watch : Watch} {addr : Bytes} {options : GatewayOptions}
    (listened : Listened watch.past addr options) (op : calls.Op) (reply : calls.Reply op) :
    Listened (watch.after op reply).past addr options := by
  obtain ⟨ending, member⟩ := listened
  exact ⟨ending, List.mem_append_left _ member⟩

theorem Accounted.servable {watch : Watch} {failure : Option Err}
    (accounted : Accounted watch failure) : httpServer watch.past ≠ .signalled := by
  intro serving
  cases failure with
  | none =>
      obtain ⟨-, other | other⟩ := accounted <;> cases serving.symm.trans other
  | some err =>
      obtain ⟨other | other, -⟩ := accounted <;> cases serving.symm.trans other

theorem Accounted.release {watch : Watch} {failure : Option Err}
    (accounted : Accounted watch failure) (resource : Resource) (reply : Unit) :
    Accounted (watch.after (.inl (.release resource)) reply) failure := by
  cases failure with
  | none =>
      obtain ⟨⟨addr, options, listened⟩, ended⟩ := accounted
      exact ⟨⟨addr, options, listened.after _ _⟩, by rwa [Watch.httpServer_after]⟩
  | some err =>
      obtain ⟨ended, reason⟩ := accounted
      refine ⟨by rwa [Watch.httpServer_after], reason.imp_right ?_⟩
      rintro ⟨event, member, failed⟩
      exact ⟨event, List.mem_append_left _ member, failed⟩

section Obeying

variable {held : Resource → Bool} {watch : Watch} {cfg : ServerConfig} {options : GatewayOptions}

theorem accounted_of_failed (op : calls.Op) (reply : calls.Reply op) (failed : Failed ⟨op, reply⟩)
    (stopped : (httpServer watch.past).after ⟨op, reply⟩ = .idle ∨
      (httpServer watch.past).after ⟨op, reply⟩ = .abandoned)
    (err : Err) : Accounted (watch.after op reply) (some err) :=
  ⟨by rwa [Watch.httpServer_after], .inr ⟨_, watch.mem_after op reply, failed⟩⟩

theorem deferred {resource : Resource} (free : held resource = false)
    {body : Program calls (Option Err)}
    (obeys : Obeys lifecycle (Restores (Function.update held resource true)) body watch) :
    Obeys lifecycle (Restores held) (body.ensuring (effect (.release resource))) watch := by
  rw [obeys_ensuring]
  refine obeys.mono fun exit last restored => ?_
  cases exit with
  | aborted reason => exact restored.elim
  | returned failure =>
      obtain ⟨same, accounted⟩ : last.held = _ ∧ Accounted last failure := restored
      refine obeys_perform.mpr
        ⟨⟨?_, accounted.servable⟩, fun _ _ => obeys_done.mpr ⟨?_, accounted.release _ _⟩⟩
      · rw [same, Function.update_self]
      · show Function.update last.held resource false = held
        rw [same, Function.update_idem, ← free, Function.update_eq_self]

theorem holding_obeys (watch : Watch) {resource : Resource} (free : watch.held resource = false)
    {body : Program calls (Option Err)}
    (obeys : ∀ reply, Obeys lifecycle (Restores (Function.update watch.held resource true)) body
      (watch.after (.inl (.acquire resource)) reply)) :
    Obeys lifecycle (Restores watch.held) (holding resource body) watch :=
  obeys_call_bind free fun reply _ => deferred free (obeys reply)

theorem stopServing_obeys (watch : Watch) (signal : watch.held .shutdownCtx = true) {addr : Bytes}
    (listened : Listened watch.past addr options)
    (offers : watch.process.Offers cfg addr options) (equipped : watch.Equipped cfg) :
    Obeys lifecycle (Restores watch.held) stopServing watch := by
  refine obeys_call_bind ⟨signal, addr, options, cfg, listened, offers, equipped⟩ fun failed _ => ?_
  cases failed with
  | none =>
      exact obeys_done.mpr ⟨rfl, ⟨addr, options, listened.after _ _⟩,
        .inl (watch.httpServer_after _ _)⟩
  | some err =>
      exact obeys_done.mpr ⟨rfl, accounted_of_failed (.inl .shutdown) (some err) rfl (.inr rfl) _⟩

theorem serve_obeys (watch : Watch) (signal : watch.held .shutdownSignal = true)
    (free : watch.held .shutdownCtx = false)
    (offers : watch.process.Offers cfg cfg.httpAddr options) (equipped : watch.Equipped cfg) :
    Obeys lifecycle (Restores watch.held) (serve cfg options) watch := by
  refine obeys_call_bind ⟨signal, cfg, offers, equipped⟩ fun ending _ => ?_
  have listened : Listened (watch.after (.inl (.listenAndServe cfg.httpAddr options)) ending).past
      cfg.httpAddr options :=
    ⟨ending, watch.mem_after _ _⟩
  cases ending with
  | closed => exact obeys_done.mpr ⟨rfl, ⟨_, _, listened⟩, .inr (watch.httpServer_after _ _)⟩
  | failed err =>
      refine obeys_done.mpr ⟨rfl, ?_⟩
      exact accounted_of_failed (.inl (.listenAndServe _ _)) (.failed err) ⟨err, rfl⟩ (.inr rfl) _
  | signalled =>
      refine holding_obeys
        (watch.after (.inl (.listenAndServe cfg.httpAddr options)) Ending.signalled) free
        fun reply => ?_
      exact stopServing_obeys (Watch.after _ (.inl (.acquire .shutdownCtx)) reply) rfl
        (listened.after _ _) offers ((equipped.after rfl rfl rfl).after rfl rfl rfl)

theorem listen_obeys (watch : Watch) (signal : watch.held .shutdownSignal = false)
    (free : watch.held .shutdownCtx = false)
    (offers : watch.process.Offers cfg cfg.httpAddr options) (equipped : watch.Equipped cfg) :
    Obeys lifecycle (Restores watch.held) (listen cfg options) watch :=
  holding_obeys watch signal fun reply =>
    serve_obeys (watch.after (.inl (.acquire .shutdownSignal)) reply) rfl free offers
      (equipped.after rfl rfl rfl)

theorem update_released {resource : Resource}
    (opened : watch.held = Function.update held resource true) (free : held resource = false) :
    Function.update watch.held resource false = held := by
  rw [opened, Function.update_idem, ← free, Function.update_eq_self]

theorem storageFails_obeys (watch : Watch)
    (opened : watch.held = Function.update held .storageCtx true) (free : held .storageCtx = false)
    (accounted : ∀ err, Accounted watch (some err)) (message : String) (err : Err) :
    Obeys lifecycle (Restores held) (storageFails message err) watch := by
  have failed := accounted (.wrap message err)
  refine obeys_call_bind ⟨?_, failed.servable⟩ fun _ _ =>
    obeys_done.mpr ⟨update_released opened free, failed.release _ _⟩
  rw [opened, Function.update_self]

structure Migrating (watch : Watch) (progress : Progress) (last : Watch) : Prop where
  process : last.process = watch.process
  held : last.held = watch.held
  past : watch.past ⊆ last.past
  migration : last.migration = progress
  serving : httpServer last.past = httpServer watch.past

theorem migration_past (trace : List (Event Storage.Migration.effects)) (watch : Watch) :
    ((lifecycle.along (.inr effects Storage.Migration.effects)).advance watch trace).past =
      watch.past ++ trace.map (Event.along (.inr effects Storage.Migration.effects)) := by
  induction trace generalizing watch with
  | nil => exact (List.append_nil _).symm
  | cons event trace ih => exact (ih _).trans (List.append_assoc _ _ _)

/-- The migrations end like a run of their own, and an operation of theirs has failed when
they return an error. -/
theorem migrations_obey (watch : Watch) {fs : FileSystem} (pool : watch.held .pool = true)
    (context : watch.held .storageCtx = true) (idle : watch.migration = .first fs) :
    Obeys lifecycle (fun exit last => (∃ progress, Migrating watch progress last ∧
        Storage.Migration.Concluded true true exit progress) ∧ ∀ err, exit = .returned (some err) →
      ∃ event ∈ last.past, Failed event)
      ((Storage.Migration.ApplyMigrations fs).along (.inr effects Storage.Migration.effects))
      watch := by
  rw [obeys_along]
  refine Obeys.and_runs ?_ ?_
  · have related : Migrating watch (.first fs) watch := ⟨rfl, rfl, List.Subset.refl _, idle, rfl⟩
    refine (Storage.Migration.applyMigrations_obeys fs).simulate (R := Migrating watch) ?_ related
    rintro progress last op ⟨process, held, past, rfl, serving⟩ allowed
    refine ⟨⟨?_, ?_, allowed⟩, fun reply _ => ⟨fun _ => .inl rfl, process, held, ?_, rfl, ?_⟩⟩
    · rw [held, pool]
    · rw [held, context]
    · exact List.subset_append_of_subset_left _ past
    · exact (last.httpServer_after _ _).trans serving
  · rintro trace exit runs - err rfl
    obtain ⟨event, member, failing⟩ := Storage.Migration.failing_of_error runs
    refine ⟨event.along (.inr effects Storage.Migration.effects), ?_, failing⟩
    rw [migration_past]
    exact List.mem_append_right _ (List.mem_map_of_mem member)

section Storing

variable {fs : FileSystem} (watch : Watch)
  (loaded : Load watch.process.source watch.process.reading watch.process.format = .ok cfg)
  (idle : watch.migration = .first fs)
  (free : ∀ resource, resource ≠ .redisClient → held resource = false)
  (redis : cfg.redisEnabled = true → Pinged watch.past ∧ held .redisClient = true)
  (waiting : httpServer watch.past = .idle)
include loaded idle free redis waiting

theorem migrated_obeys
    (opened : watch.held = Function.update (Function.update held .pool true) .storageCtx true)
    (known : { options with recorder := true } = configured cfg) :
    Obeys lifecycle (Restores (Function.update held .pool true))
      (migrated cfg fs options) watch := by
  have pool : watch.held .pool = true := by rw [opened]; rfl
  have context : watch.held .storageCtx = true := by rw [opened, Function.update_self]
  have apart : Function.update held .pool true .storageCtx = false := free .storageCtx (by decide)
  refine obeys_call_bind ⟨pool, context⟩ fun failed _ => ?_
  cases failed with
  | some err =>
      exact storageFails_obeys (watch.after (.inl .pingPool) (some err)) opened apart
        (accounted_of_failed (.inl .pingPool) (some err) rfl (.inl waiting)) _ err
  | none =>
      refine obeys_bind.mpr
        ((migrations_obey (watch.after (.inl .pingPool) none) pool context idle).mono ?_)
      rintro exit last ⟨⟨progress, ⟨process, same, past, rfl, serving⟩, concluded⟩, failing⟩
      replace opened := same.trans opened
      replace waiting : httpServer last.past = .idle :=
        serving.trans ((watch.httpServer_after _ _).trans waiting)
      rcases exit with (_ | err) | reason
      -- The migrations are committed; the context of the start is cancelled before serving.
      · obtain ⟨tx, stage⟩ := concluded
        refine obeys_call_bind ⟨(congrFun same _).trans context, by rw [waiting]; decide⟩
          fun reply _ => ?_
        have closed : (last.after (.inl (.release .storageCtx)) reply).held =
            Function.update held .pool true :=
          update_released opened apart
        rw [← closed]
        refine listen_obeys (last.after (.inl (.release .storageCtx)) reply) ?_ ?_ ⟨?_, rfl, known⟩
          ⟨⟨fun enabled => ?_, fun _ => ⟨tx, stage⟩⟩, fun enabled => ?_, fun _ => ?_⟩
        · exact (congrFun closed _).trans (free .shutdownSignal (by decide))
        · exact (congrFun closed _).trans (free .shutdownCtx (by decide))
        · show Load last.process.source last.process.reading last.process.format = .ok cfg
          rw [process]
          exact loaded
        · exact List.mem_append_left _ (past (List.mem_append_left _ (redis enabled).1))
        · exact (congrFun closed _).trans (redis enabled).2
        · exact congrFun closed _
      · exact storageFails_obeys last opened apart
          (fun _ => ⟨.inl waiting, .inr (failing err rfl)⟩) _ err
      · exact concluded.elim

theorem openStorage_obeys (same : watch.held = held)
    (known : options = { configured cfg with recorder := false }) :
    Obeys lifecycle (Restores held) (openStorage cfg fs options) watch := by
  subst same
  unfold openStorage
  split
  · rename_i enabled
    refine obeys_call_bind trivial fun failed _ => ?_
    cases failed with
    | some err =>
        exact obeys_done.mpr ⟨rfl, accounted_of_failed (.inl (.parseConfig _)) (some err) rfl
          (.inl waiting) _⟩
    | none =>
        refine obeys_call_bind (free .storageCtx (by decide)) fun reply _ =>
          obeys_call_bind ⟨free .pool (by decide), rfl⟩ fun failed _ => ?_
        cases failed with
        | some err =>
            exact storageFails_obeys _ rfl (free .storageCtx (by decide))
              (accounted_of_failed (.inl (.newWithConfig _ _)) (some err) rfl
                (.inl (Watch.waits (Watch.waits waiting rfl) rfl))) _ err
        | none =>
            -- From here on the deferred `pool.Close` runs, whatever follows.
            refine deferred (free .pool (by decide))
              (migrated_obeys _ loaded idle free (fun enabled => ?_)
                (Watch.waits (Watch.waits (Watch.waits waiting rfl) rfl) rfl) ?_ ?_)
            · obtain ⟨answered, opened⟩ := redis enabled
              exact ⟨List.mem_append_left _
                (List.mem_append_left _ (List.mem_append_left _ answered)), opened⟩
            · exact Function.update_comm (by decide) _ _ _
            · rw [known, configured, enabled]
  · rename_i disabled
    replace disabled : cfg.postgresEnabled = false := by simpa using disabled
    refine listen_obeys watch (free .shutdownSignal (by decide)) (free .shutdownCtx (by decide))
      ⟨loaded, rfl, ?_⟩ ⟨⟨fun enabled => (redis enabled).1, ?_⟩,
        fun enabled => (redis enabled).2, ?_⟩
    · rw [known, configured, disabled]
    · simp [disabled]
    · simp [disabled]

end Storing

theorem refused_of_valid (accepted : cfg.Valid) : refused cfg = none := by
  obtain ⟨⟨limiter, limited⟩, store, cache⟩ := stores_made accepted
  simp only [refused, limited, store, cache]

theorem openRedis_obeys (watch : Watch) {fs : FileSystem}
    (free : ∀ resource, watch.held resource = false) (idle : watch.migration = .first fs)
    (waiting : httpServer watch.past = .idle)
    (loaded : Load watch.process.source watch.process.reading watch.process.format = .ok cfg)
    (accepted : cfg.Valid) :
    Obeys lifecycle (Restores watch.held) (openRedis cfg fs (gatewayOptions cfg)) watch := by
  unfold openRedis
  split
  · rename_i enabled
    refine holding_obeys watch (free _) fun reply => ?_
    have opened (reply : Unit) :
        httpServer (watch.after (.inl (.acquire .redisClient)) reply).past = .idle :=
      Watch.waits waiting rfl
    refine obeys_call_bind (free .redisCtx) fun again _ => obeys_call_bind ⟨rfl, rfl⟩
      fun failed _ => ?_
    have pinged : httpServer
        ((lifecycle.after (lifecycle.after (watch.after (.inl (.acquire .redisClient)) reply)
            (.inl (.acquire .redisCtx)) again) (.inl .ping) failed)).past = .idle :=
      Watch.waits (Watch.waits (opened reply) rfl) (by cases failed <;> rfl)
    -- Both branches cancel the context before anything else.
    refine obeys_call_bind ⟨rfl, by rw [pinged]; decide⟩ fun _ _ => ?_
    cases failed with
    | some err =>
        refine obeys_done.mpr ⟨update_released rfl (free .redisCtx), ?_⟩
        exact Accounted.release (accounted_of_failed (.inl .ping) (some err) rfl
          (.inl (Watch.waits (opened reply) rfl)) _) _ _
    | none =>
        simp only [refused_of_valid accepted]
        refine openStorage_obeys _ loaded idle (fun resource other => ?_) (fun _ => ⟨?_, rfl⟩)
          (Watch.waits pinged rfl) (update_released rfl (free .redisCtx)) ?_
        · rw [Function.update_of_ne other]
          exact free resource
        · exact List.mem_append_left _ (Watch.mem_after _ _ _)
        · simp [gatewayOptions, configured, enabled]
  · rename_i disabled
    replace disabled : cfg.redisEnabled = false := by simpa using disabled
    refine openStorage_obeys watch loaded idle (fun resource _ => free resource) ?_ waiting rfl ?_
    · simp [disabled]
    · simp [gatewayOptions, configured, disabled]

theorem run_obeys (process : Process) (representable : process.source.Representable) :
    Obeys lifecycle (Restores fun _ => false) (run process) (.first process) := by
  unfold run
  split
  · rename_i message refused
    exact obeys_done.mpr ⟨rfl, .inl rfl, .inl (.inl ⟨message, refused⟩)⟩
  · rename_i cfg loaded
    have accepted := load_valid representable loaded
    split
    · rename_i message refused
      refine obeys_done.mpr ⟨rfl, .inl rfl, .inl (.inr ⟨cfg, loaded, ?_⟩)⟩
      by_contra! fine
      obtain ⟨router, governed, built, -⟩ :=
        (buildProviderRouter_spec accepted process.parse process.reading).1 fine
      cases built.symm.trans refused
    · exact openRedis_obeys (.first process) (fun _ => rfl) rfl rfl loaded accepted

end Obeying

end ModelGate.Server
