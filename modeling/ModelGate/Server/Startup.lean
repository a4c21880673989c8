import ModelGate.Cache.Policy
import ModelGate.Concurrency.Semaphore
import ModelGate.Config.Load
import ModelGate.Idempotency.Expiry
import ModelGate.Provider.Mock
import ModelGate.Provider.OpenAICompatible
import ModelGate.Routing.Failover

/-! What `cmd/server` builds of a configuration.

`url.Parse` is a parameter: it gives the scheme and the host of a base URL. The
client of a provider is never nil.
-/

set_option autoImplicit false

namespace ModelGate.Server

open Data Config Provider

/-! Providers -/

/-- A byte string as text, character by character. -/
def spelled (bytes : Bytes) : String := String.ofList (bytes.map fun byte => Char.ofNat byte.toNat)

/-- `strings.TrimRight` of slashes. -/
def trimSlashes (text : Bytes) : Bytes := (text.reverse.dropWhile (· == 47)).reverse

abbrev ParseURL := Bytes → Option (Bytes × Bytes)

def NewOpenAICompatibleProvider (parse : ParseURL) (name baseURL apiKey : Bytes) :
    Except String OpenAICompatibleProvider :=
  let name := trimSpaceBytes name
  let baseURL := trimSlashes (trimSpaceBytes baseURL)
  let apiKey := trimSpaceBytes apiKey
  if name = [] then .error "provider name is required"
  else
    match parse baseURL with
    | none => .error "provider base URL must be an absolute URL"
    | some (scheme, host) =>
        if scheme = [] ∨ host = [] then .error "provider base URL must be an absolute URL"
        else if scheme ≠ utf8 "http" ∧ scheme ≠ utf8 "https" then
          .error "provider base URL must use http or https"
        else if apiKey = [] then .error "provider API key is required"
        else .ok ⟨spelled name, spelled baseURL ++ "/chat/completions", spelled apiKey⟩

inductive RawProvider where
  | mock (provider : MockProvider)
  | openAICompatible (provider : OpenAICompatibleProvider)

def NewTargetFromConfig (parse : ParseURL) (cfg : ServerConfig) (target : ProviderTarget) :
    Except String RawProvider :=
  match target.kind with
  | .mock => .ok (.mock NewMockProvider)
  | .deepSeek =>
      (NewOpenAICompatibleProvider parse target.name cfg.deepSeekBaseURL cfg.deepSeekAPIKey).map
        .openAICompatible
  | .openAICompatible =>
      (NewOpenAICompatibleProvider parse target.name cfg.openAIBaseURL cfg.openAIAPIKey).map
        .openAICompatible

/-! The router -/

/-- What is made for one target. -/
structure Governed where
  raw : RawProvider
  provider : Routing.Member
  weight : Int
  breaker : CircuitBreaker.Breaker
  semaphore : Concurrency.Semaphore

def breakerOptions (cfg : ServerConfig) : CircuitBreaker.Options :=
  ⟨cfg.circuitBreakerWindowSize, cfg.circuitBreakerMinimumRequests, cfg.circuitBreakerFailureRatio,
    cfg.circuitBreakerOpenTimeout, cfg.circuitBreakerHalfOpenMaxRequests⟩

def labelled {α : Type} (label : String) (result : Except String α) : Except String α :=
  result.mapError fun message => label ++ ": " ++ message

@[simp] theorem labelled_ok {α : Type} (label : String) (value : α) :
    labelled label (.ok value) = .ok value :=
  rfl

/-- The body of the loop. The calls on the raw provider are operations of the governed one. -/
def govern (parse : ParseURL) (reading : Reading) (cfg : ServerConfig) (target : ProviderTarget) :
    Except String Governed := do
  let quoted := reading.quote target.name
  let raw ← labelled ("create provider " ++ quoted) (NewTargetFromConfig parse cfg target)
  let policy ← labelled ("create retry policy for " ++ quoted) (Retry.New cfg.retryOptions)
  let breaker ← labelled ("create circuit breaker for " ++ quoted)
    (CircuitBreaker.New (breakerOptions cfg))
  let semaphore ← labelled ("create concurrency limit for " ++ quoted)
    (Concurrency.New cfg.providerMaxConcurrency)
  let provider ← labelled ("govern provider " ++ quoted)
    (Governance.NewProvider (spelled target.name) upstream policy)
  return ⟨raw, provider, target.weight, breaker, semaphore⟩

def governAll (parse : ParseURL) (reading : Reading) (cfg : ServerConfig) :
    List ProviderTarget → Except String (List Governed)
  | [] => .ok []
  | target :: targets => do
      let governed ← govern parse reading cfg target
      let others ← governAll parse reading cfg targets
      return governed :: others

def members (governed : List Governed) : List (Routing.Member × Int) :=
  governed.map fun made => (made.provider, made.weight)

def buildProviderRouter (parse : ParseURL) (reading : Reading) (cfg : ServerConfig) :
    Except String (Routing.Router Routing.fleet × List Governed) := do
  let governed ← governAll parse reading cfg cfg.providers
  let router ← labelled "create provider router"
    (Routing.New (fun name => reading.quote (utf8 name)) cfg.routingStrategy
      (Routing.fleetOf (members governed)))
  return (router, governed)

/-! The response cache -/

/-- A cache over a store that is nil or there. -/
def NewRedisCache (store : Bool) (ttl : Int) : Except String Int :=
  if store = false then .error "cache store is required"
  else if ttl ≤ 0 then .error "cache TTL must be positive"
  else .ok ttl

/-! Names -/

theorem encode_ascii : ∀ byte : Fin 128, String.utf8EncodeChar (Char.ofNat byte) =
    [UInt8.ofNat byte] := by
  decide +kernel

theorem utf8_spelled {bytes : Bytes} (ascii : ∀ byte ∈ bytes, byte.toNat < 128) :
    utf8 (spelled bytes) = bytes := by
  rw [utf8, spelled, String.toList_ofList, List.flatMap_map]
  induction bytes with
  | nil => rfl
  | cons byte bytes ih =>
      obtain ⟨first, others⟩ := List.forall_mem_cons.mp ascii
      have encoded := encode_ascii ⟨byte.toNat, first⟩
      rw [UInt8.ofNat_toNat] at encoded
      rw [List.flatMap_cons, ih others, encoded]
      rfl

section Targets

variable {target : ProviderTarget} (valid : target.Valid)
include valid

theorem utf8_spelled_name : utf8 (spelled target.name) = target.name := by
  refine utf8_spelled fun byte member => ?_
  have seen := visible_of_valid valid byte member
  simp only [visible, Bool.and_eq_true, decide_eq_true_eq, UInt8.lt_iff_toNat_lt,
    UInt8.reduceToNat] at seen
  omega

theorem trimSpace_spelled_name : trimSpace (spelled target.name) = spelled target.name := by
  apply trimSpace_of_visible
  rw [utf8_spelled_name valid]
  exact visible_of_valid valid

theorem spelled_name_ne_empty : spelled target.name ≠ "" := by
  intro empty
  have named := utf8_spelled_name valid
  have nonempty := valid.nonempty
  rw [empty] at named
  rw [← named] at nonempty
  exact absurd nonempty (by decide)

theorem trimSpaceBytes_name : trimSpaceBytes target.name = target.name := by
  have nonempty : target.name ≠ [] := List.length_pos_iff.mp valid.nonempty
  have padded := trimSpaceBytes_padded (run_nil encodedSpaces) (run_nil encodedSpaces)
    (solid_of_visible nonempty (visible_of_valid valid))
  rwa [List.nil_append, List.append_nil] at padded

end Targets

/-! What can go wrong -/

def urlFault (parse : ParseURL) (baseURL : Bytes) : Option String :=
  match parse (trimSlashes (trimSpaceBytes baseURL)) with
  | none => some "provider base URL must be an absolute URL"
  | some (scheme, host) =>
      if scheme = [] ∨ host = [] then some "provider base URL must be an absolute URL"
      else if scheme ≠ utf8 "http" ∧ scheme ≠ utf8 "https" then
        some "provider base URL must use http or https"
      else none

def baseURL (cfg : ServerConfig) : ProviderKind → Option Bytes
  | .mock => none
  | .deepSeek => some cfg.deepSeekBaseURL
  | .openAICompatible => some cfg.openAIBaseURL

def fault (parse : ParseURL) (cfg : ServerConfig) (target : ProviderTarget) : Option String :=
  (baseURL cfg target.kind).bind (urlFault parse)

theorem newOpenAICompatibleProvider_spec (parse : ParseURL) {name : Bytes} (url : Bytes)
    {key : Bytes} (named : trimSpaceBytes name ≠ []) (given : trimSpaceBytes key ≠ []) :
    (urlFault parse url = none →
      ∃ provider, NewOpenAICompatibleProvider parse name url key = .ok provider) ∧
    ∀ message, urlFault parse url = some message →
    NewOpenAICompatibleProvider parse name url key = .error message := by
  unfold urlFault NewOpenAICompatibleProvider
  dsimp only
  rw [if_neg named]
  cases parse (trimSlashes (trimSpaceBytes url)) with
  | none => exact ⟨nofun, fun message same => congrArg Except.error (Option.some.inj same)⟩
  | some parts =>
      dsimp only
      split
      · exact ⟨nofun, fun message same => congrArg Except.error (Option.some.inj same)⟩
      · split
        · exact ⟨nofun, fun message same => congrArg Except.error (Option.some.inj same)⟩
        · exact ⟨fun _ => ⟨_, rfl⟩, nofun⟩

section Accepted

variable {cfg : ServerConfig} (accepted : cfg.Valid) (parse : ParseURL) (reading : Reading)
include accepted

theorem newTarget_spec {target : ProviderTarget} (member : target ∈ cfg.providers) :
    (fault parse cfg target = none → ∃ raw, NewTargetFromConfig parse cfg target = .ok raw) ∧
    ∀ message, fault parse cfg target = some message →
    NewTargetFromConfig parse cfg target = .error message := by
  have named : trimSpaceBytes target.name ≠ [] := by
    rw [trimSpaceBytes_name (accepted.targets target member)]
    exact List.length_pos_iff.mp (accepted.targets target member).nonempty
  have keyed := accepted.keys target member
  have compatible {url key : Bytes} (given : trimSpaceBytes key ≠ []) :
      (urlFault parse url = none →
        ∃ raw : RawProvider, (NewOpenAICompatibleProvider parse target.name url key).map
        .openAICompatible = .ok raw) ∧ ∀ message, urlFault parse url = some message →
      (NewOpenAICompatibleProvider parse target.name url key).map RawProvider.openAICompatible =
        .error message := by
    obtain ⟨sound, faulty⟩ := newOpenAICompatibleProvider_spec parse url named given
    refine ⟨fun fine => ?_, fun message wrong => by rw [faulty message wrong]; rfl⟩
    obtain ⟨provider, made⟩ := sound fine
    exact ⟨.openAICompatible provider, by rw [made]; rfl⟩
  unfold NewTargetFromConfig fault
  cases kind : target.kind with
  | mock => exact ⟨fun _ => ⟨_, rfl⟩, nofun⟩
  | deepSeek => exact compatible (keyed _ (by rw [kind]; rfl))
  | openAICompatible => exact compatible (keyed _ (by rw [kind]; rfl))

/-- What a target of an accepted configuration becomes. -/
structure Made (cfg : ServerConfig) (target : ProviderTarget) (made : Governed) : Prop where
  name : utf8 made.provider.name = target.name
  retry : made.provider.retry = cfg.policy
  weight : made.weight = target.weight
  breaker : made.breaker = CircuitBreaker.initialBreaker
  semaphore : made.semaphore = ⟨cfg.providerMaxConcurrency.toNat, 0, []⟩

omit accepted in
theorem breaker_new {options : CircuitBreaker.Options} (window : 0 < options.windowSize)
    (minimum : 0 < options.minimumRequests ∧ options.minimumRequests ≤ options.windowSize)
    (ratio : options.failureRatio.le (.ofRat 0) = false ∧
      (Numeric.Float64.ofRat 1).lt options.failureRatio = false)
    (timeout : 0 < options.openTimeout) (probes : 0 < options.halfOpenMaxRequests) :
    CircuitBreaker.New options = .ok CircuitBreaker.initialBreaker := by
  have enough : ¬(options.minimumRequests ≤ 0 ∨ options.minimumRequests > options.windowSize) := by
    omega
  have inside : ¬(options.failureRatio.le (.ofRat 0) ∨
      (Numeric.Float64.ofRat 1).lt options.failureRatio) := by
    simp [ratio]
  rw [CircuitBreaker.New, if_neg (Int.not_le.mpr window), if_neg enough, if_neg inside,
    if_neg (Int.not_le.mpr timeout), if_neg (Int.not_le.mpr probes)]

theorem breaker_made : CircuitBreaker.New (breakerOptions cfg) =
    .ok CircuitBreaker.initialBreaker :=
  breaker_new accepted.breaker.window accepted.breaker.minimum accepted.breaker.ratio
    accepted.breaker.timeout accepted.breaker.probes

theorem govern_spec {target : ProviderTarget} (member : target ∈ cfg.providers) :
    (fault parse cfg target = none → ∃ made, govern parse reading cfg target = .ok made ∧
      Made cfg target made) ∧ ∀ message, fault parse cfg target = some message →
    govern parse reading cfg target =
      .error ("create provider " ++ reading.quote target.name ++ ": " ++ message) := by
  obtain ⟨sound, faulty⟩ := newTarget_spec accepted parse member
  constructor
  · intro fine
    obtain ⟨raw, created⟩ := sound fine
    have valid := accepted.targets target member
    have semaphore : Concurrency.New cfg.providerMaxConcurrency =
        .ok ⟨cfg.providerMaxConcurrency.toNat, 0, []⟩ :=
      if_neg (Int.not_le.mpr accepted.breaker.concurrency.1)
    have provider : Governance.NewProvider (spelled target.name) upstream cfg.policy =
        .ok ⟨spelled target.name, upstream, cfg.policy⟩ := by
      rw [Governance.NewProvider, trimSpace_spelled_name valid,
        if_neg (spelled_name_ne_empty valid)]
    refine ⟨⟨raw, ⟨spelled target.name, upstream, cfg.policy⟩, target.weight,
        CircuitBreaker.initialBreaker, ⟨cfg.providerMaxConcurrency.toNat, 0, []⟩⟩, ?_,
      utf8_spelled_name valid, rfl, rfl, rfl, rfl⟩
    simp only [govern, created, new_retryOptions accepted.retry, breaker_made accepted, semaphore,
      provider, labelled_ok, bind, Except.bind]
    rfl
  · intro message wrong
    simp only [govern, faulty message wrong]
    rfl

theorem governAll_spec (targets : List ProviderTarget)
    (inside : ∀ target ∈ targets, target ∈ cfg.providers) :
    ((∀ target ∈ targets, fault parse cfg target = none) →
      ∃ governed, governAll parse reading cfg targets = .ok governed ∧
      List.Forall₂ (Made cfg) targets governed) ∧
    ∀ target message, targets.find? (fun target => (fault parse cfg target).isSome) = some target →
    fault parse cfg target = some message →
    governAll parse reading cfg targets =
      .error ("create provider " ++ reading.quote target.name ++ ": " ++ message) := by
  induction targets with
  | nil => exact ⟨fun _ => ⟨[], rfl, .nil⟩, fun _ _ found => by cases found⟩
  | cons first targets ih =>
      obtain ⟨here, others⟩ := List.forall_mem_cons.mp inside
      obtain ⟨sound, faulty⟩ := govern_spec accepted parse reading here
      obtain ⟨all, some'⟩ := ih others
      constructor
      · intro fine
        obtain ⟨one, rest⟩ := List.forall_mem_cons.mp fine
        obtain ⟨made, created, shape⟩ := sound one
        obtain ⟨governed, built, shapes⟩ := all rest
        exact ⟨made :: governed, by simp only [governAll, created, built]; rfl, .cons shape shapes⟩
      · intro target message found wrong
        rw [List.find?_cons] at found
        cases own : fault parse cfg first with
        | some reason =>
            simp only [own, Option.isSome_some] at found
            obtain rfl := Option.some.inj found
            simp only [governAll, faulty message wrong]
            rfl
        | none =>
            simp only [own, Option.isSome_none] at found
            obtain ⟨made, created, -⟩ := sound own
            simp only [governAll, created, some' target message found wrong]
            rfl

omit accepted in
theorem built_of_made {targets : List ProviderTarget} {governed : List Governed}
    (made : List.Forall₂ (Made cfg) targets governed) :
    List.Forall₂ Built targets (Routing.fleetOf (members governed)) := by
  have each (start : Nat) : List.Forall₂ (Built (T := Routing.fleet)) targets
    (((members governed).zipIdx start).map fun entry =>
      ⟨some (Routing.governedTarget entry.2 entry.1.1), entry.1.2⟩) := by
    induction made generalizing start with
    | nil => exact .nil
    | cons shape _ ih => exact .cons ⟨_, rfl, shape.name, shape.weight⟩ (ih (start + 1))
  exact each 0

theorem buildProviderRouter_spec : ((∀ target ∈ cfg.providers, fault parse cfg target = none) →
      ∃ router governed, buildProviderRouter parse reading cfg = .ok (router, governed) ∧
      router.Over (members governed) ∧ List.Forall₂ (Made cfg) cfg.providers governed) ∧
    ∀ target message, cfg.providers.find? (fun target => (fault parse cfg target).isSome) =
      some target → fault parse cfg target = some message →
    buildProviderRouter parse reading cfg =
      .error ("create provider " ++ reading.quote target.name ++ ": " ++ message) := by
  obtain ⟨sound, faulty⟩ :=
    governAll_spec accepted parse reading cfg.providers fun _ member => member
  constructor
  · intro fine
    obtain ⟨governed, built, shapes⟩ := sound fine
    obtain ⟨router, made⟩ := new_built (fun name => reading.quote (utf8 name)) accepted.strategy
      accepted.providers (built_of_made shapes) accepted.targets accepted.distinct
    refine ⟨router, governed, ?_, Routing.over_of_new made, shapes⟩
    simp only [buildProviderRouter, built]
    show labelled _ _ >>= _ = _
    rw [made]
    rfl
  · intro target message found wrong
    simp only [buildProviderRouter, faulty target message found wrong]
    rfl

theorem stores_made : (∃ limiter, RateLimit.NewRedisLimiter cfg.rateLimitRPM cfg.rateLimitBurst =
      .ok limiter) ∧ Idempotency.Expiry.NewRedisStore true cfg.idempotencyLockTTL
      cfg.idempotencyTTL = .ok ⟨cfg.idempotencyLockTTL, cfg.idempotencyTTL⟩ ∧
    NewRedisCache true cfg.cacheTTL = .ok cfg.cacheTTL := by
  have redis := accepted.redis
  refine ⟨?_, ?_, ?_⟩
  · have bounds : ¬(cfg.rateLimitRPM ≤ 0 ∨ cfg.rateLimitBurst ≤ 0) := by
      have rate := redis.rate
      omega
    unfold RateLimit.NewRedisLimiter
    rw [dif_neg bounds]
    exact ⟨_, rfl⟩
  · have bounds : ¬(cfg.idempotencyLockTTL ≤ 0 ∨ cfg.idempotencyTTL ≤ 0) := by
      have idempotency := redis.idempotency
      omega
    simp [Idempotency.Expiry.NewRedisStore, bounds]
  · have bounds : ¬cfg.cacheTTL ≤ 0 := Int.not_le.mpr redis.cache
    simp [NewRedisCache, bounds]

end Accepted

/-- Every configuration that `Load` accepts can be built. The stores take it, and so does
the router, with a fresh breaker and an empty semaphore for each provider, unless a base URL
is at fault; then the first such provider is named. -/
theorem loaded_starts {source : Source} (representable : source.Representable) {reading : Reading}
    {format : ConnectionURL → Bytes} {cfg : ServerConfig}
    (loaded : Load source reading format = .ok cfg) (parse : ParseURL) :
    ((∀ target ∈ cfg.providers, fault parse cfg target = none) →
      ∃ router governed, buildProviderRouter parse reading cfg = .ok (router, governed) ∧
      router.Over (members governed) ∧ List.Forall₂ (Made cfg) cfg.providers governed) ∧
    (∀ target message, cfg.providers.find? (fun target => (fault parse cfg target).isSome) =
        some target → fault parse cfg target = some message →
      buildProviderRouter parse reading cfg =
        .error ("create provider " ++ reading.quote target.name ++ ": " ++ message)) ∧
    (∃ limiter, RateLimit.NewRedisLimiter cfg.rateLimitRPM cfg.rateLimitBurst = .ok limiter) ∧
    Idempotency.Expiry.NewRedisStore true cfg.idempotencyLockTTL cfg.idempotencyTTL =
      .ok ⟨cfg.idempotencyLockTTL, cfg.idempotencyTTL⟩ ∧
    NewRedisCache true cfg.cacheTTL = .ok cfg.cacheTTL := by
  have accepted := load_valid representable loaded
  obtain ⟨built, faulty⟩ := buildProviderRouter_spec accepted parse reading
  exact ⟨built, faulty, stores_made accepted⟩

/-! A server with two providers -/

def sampleSource : Source :=
  environment [("MODEL_PROVIDERS", "primary:deepseek:3, backup:mock:1"),
    ("DEEPSEEK_API_KEY", "key"), ("ROUTING_STRATEGY", "Weighted_Round_Robin"),
    ("REDIS_ENABLED", "true"), ("POSTGRES_ENABLED", "1"), ("POSTGRES_USER", "gate"),
    ("POSTGRES_DB", "gate")]

theorem sampleSource_representable : sampleSource.Representable := environment_representable _

/-- Every text of the sample is letters, digits and underscores. -/
def sampleReading : Reading := ⟨id, fun text => "\"" ++ spelled text ++ "\""⟩

/-- `URL.String` of parts that need no escape. -/
def sampleFormat (url : ConnectionURL) : Bytes :=
  utf8 "postgres://" ++ url.user ++ (url.password.map (utf8 ":" ++ ·)).getD [] ++ utf8 "@" ++
    url.host ++ utf8 ":" ++ url.port ++ utf8 "/" ++ url.database ++ utf8 "?sslmode=" ++ url.sslmode

def sampleParse (url : Bytes) : Option (Bytes × Bytes) :=
  if url = utf8 "https://api.deepseek.com" then
    some (utf8 "https", utf8 "api.deepseek.com") else none

def sampleConfig : Except String ServerConfig := Load sampleSource sampleReading sampleFormat

theorem sampleConfig_loaded : ∃ cfg, sampleConfig = .ok cfg ∧ cfg.redisEnabled = true ∧
    cfg.postgresEnabled = true ∧ ∀ target ∈ cfg.providers, fault sampleParse cfg target = none := by
  have fine : (match sampleConfig with
      | .error _ => false
      | .ok cfg => cfg.redisEnabled && cfg.postgresEnabled &&
          cfg.providers.all fun target => (fault sampleParse cfg target).isNone) = true := by
    decide +kernel
  split at fine
  · cases fine
  · rename_i cfg loaded
    simp only [Bool.and_eq_true, List.all_eq_true, Option.isNone_iff_eq_none] at fine
    exact ⟨cfg, loaded, fine.1.1, fine.1.2, fine.2⟩

theorem loaded_starts_sample : ∃ cfg router governed, sampleConfig = .ok cfg ∧
    buildProviderRouter sampleParse sampleReading cfg = .ok (router, governed) := by
  obtain ⟨cfg, loaded, -, -, fine⟩ := sampleConfig_loaded
  obtain ⟨built, -⟩ := loaded_starts sampleSource_representable loaded sampleParse
  obtain ⟨router, governed, made, -⟩ := built fine
  exact ⟨cfg, router, governed, loaded, made⟩

end ModelGate.Server
