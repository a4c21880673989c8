import ModelGate.Config.Retry

/-! `Load` of `internal/config`.

The settings are checked group by group, in the order of the source. What
`net/url` makes of the parts of a connection is a parameter.
-/

set_option autoImplicit false

namespace ModelGate.Config

open Data Numeric

/-! Values -/

/-- `strconv.ParseBool`. -/
def ParseBool (text : Bytes) : Option Bool :=
  if (["1", "t", "T", "TRUE", "true", "True"].map utf8).contains text then some true
  else if (["0", "f", "F", "FALSE", "false", "False"].map utf8).contains text then some false
  else none

def boolean (source : Source) (name : String) (fallback : Bool) : Except String Bool :=
  let raw := trimSpaceBytes (source.Getenv name)
  if raw = [] then .ok fallback
  else
    match ParseBool raw with
    | none => .error (name ++ " must be true or false")
    | some value => .ok value

def nonNegativeInt (source : Source) (name : String) (fallback : Int) : Except String Int :=
  match Atoi (envOrDefault source name (Itoa fallback)) with
  | none => .error (name ++ " must be a non-negative integer")
  | some value =>
      if value < 0 then .error (name ++ " must be a non-negative integer") else .ok value

theorem nonNegativeInt_ok {source : Source} {name : String} {fallback value : Int}
    (loaded : nonNegativeInt source name fallback = .ok value) : 0 ≤ value := by
  unfold nonNegativeInt at loaded
  split at loaded
  · cases loaded
  · split at loaded
    · cases loaded
    · rename_i counts
      cases loaded
      exact Int.not_lt.mp counts

/-! The circuit breakers and the concurrency limits -/

structure BreakerConfig where
  circuitBreakerWindowSize : Int
  circuitBreakerMinimumRequests : Int
  circuitBreakerFailureRatio : Float64
  circuitBreakerOpenTimeout : Int
  circuitBreakerHalfOpenMaxRequests : Int
  providerMaxConcurrency : Int

def loadBreaker (source : Source) : Except String BreakerConfig := do
  let windowSize ← positiveInt source "CIRCUIT_BREAKER_WINDOW_SIZE" 20
  let minimumRequests ← positiveInt source "CIRCUIT_BREAKER_MINIMUM_REQUESTS" 10
  refuse (minimumRequests > windowSize)
    "CIRCUIT_BREAKER_MINIMUM_REQUESTS must not exceed CIRCUIT_BREAKER_WINDOW_SIZE"
  let failureRatio ← positiveRatio source "CIRCUIT_BREAKER_FAILURE_RATIO" (.ofRat (1 / 2))
  let openTimeout ← positiveDuration source "CIRCUIT_BREAKER_OPEN_TIMEOUT" (utf8 "30s")
  let halfOpenMaxRequests ← positiveInt source "CIRCUIT_BREAKER_HALF_OPEN_MAX_REQUESTS" 1
  let providerMaxConcurrency ← positiveInt source "PROVIDER_MAX_CONCURRENCY" 50
  refuse (providerMaxConcurrency > 10000) "PROVIDER_MAX_CONCURRENCY must not exceed 10000"
  return ⟨windowSize, minimumRequests, failureRatio, openTimeout, halfOpenMaxRequests,
    providerMaxConcurrency⟩

structure BreakerConfig.Valid (cfg : BreakerConfig) : Prop where
  window : 0 < cfg.circuitBreakerWindowSize
  minimum : 0 < cfg.circuitBreakerMinimumRequests ∧
    cfg.circuitBreakerMinimumRequests ≤ cfg.circuitBreakerWindowSize
  ratio : cfg.circuitBreakerFailureRatio.le (.ofRat 0) = false ∧
    (Float64.ofRat 1).lt cfg.circuitBreakerFailureRatio = false
  timeout : 0 < cfg.circuitBreakerOpenTimeout
  probes : 0 < cfg.circuitBreakerHalfOpenMaxRequests
  concurrency : 0 < cfg.providerMaxConcurrency ∧ cfg.providerMaxConcurrency ≤ 10000

theorem loadBreaker_valid {source : Source} {cfg : BreakerConfig}
    (loaded : loadBreaker source = .ok cfg) : cfg.Valid := by
  obtain ⟨windowSize, window, loaded⟩ := ok_of_bind loaded
  obtain ⟨minimumRequests, minimum, loaded⟩ := ok_of_bind loaded
  obtain ⟨_, few, loaded⟩ := ok_of_bind loaded
  obtain ⟨failureRatio, ratio, loaded⟩ := ok_of_bind loaded
  obtain ⟨openTimeout, timeout, loaded⟩ := ok_of_bind loaded
  obtain ⟨halfOpenMaxRequests, probes, loaded⟩ := ok_of_bind loaded
  obtain ⟨providerMaxConcurrency, concurrency, loaded⟩ := ok_of_bind loaded
  obtain ⟨_, bounded, loaded⟩ := ok_of_bind loaded
  obtain rfl := Except.ok.inj loaded
  exact ⟨positiveInt_ok window, ⟨positiveInt_ok minimum, Int.not_lt.mp (refuse_ok few)⟩,
    positiveRatio_ok ratio, (positiveDuration_ok timeout).1, positiveInt_ok probes,
    ⟨positiveInt_ok concurrency, Int.not_lt.mp (refuse_ok bounded)⟩⟩

/-! Redis and what is kept there -/

structure RedisConfig where
  redisEnabled : Bool
  redisAddr : Bytes
  redisPassword : Bytes
  redisDB : Int
  redisTimeout : Int
  rateLimitRPM : Int
  rateLimitBurst : Int
  rateLimitFailOpen : Bool
  idempotencyTTL : Int
  idempotencyLockTTL : Int
  cacheTTL : Int

/-- Without a setting of its own the burst is the rate of a minute. -/
def loadRedis (source : Source) : Except String RedisConfig := do
  let redisEnabled ← boolean source "REDIS_ENABLED" false
  let redisDB ← nonNegativeInt source "REDIS_DB" 0
  let redisTimeout ← positiveDuration source "REDIS_TIMEOUT" (utf8 "2s")
  let rateLimitRPM ← positiveInt source "RATE_LIMIT_REQUESTS_PER_MINUTE" 60
  let rateLimitBurst ← positiveInt source "RATE_LIMIT_BURST" rateLimitRPM
  let rateLimitFailOpen ← boolean source "RATE_LIMIT_FAIL_OPEN" true
  let idempotencyTTL ← positiveDuration source "IDEMPOTENCY_TTL" (utf8 "24h")
  let idempotencyLockTTL ← positiveDuration source "IDEMPOTENCY_LOCK_TTL" (utf8 "30s")
  let cacheTTL ← positiveDuration source "CACHE_TTL" (utf8 "5m")
  return ⟨redisEnabled, envOrDefault source "REDIS_ADDR" (utf8 "127.0.0.1:6379"),
    source.Getenv "REDIS_PASSWORD", redisDB, redisTimeout, rateLimitRPM, rateLimitBurst,
    rateLimitFailOpen, idempotencyTTL, idempotencyLockTTL, cacheTTL⟩

structure RedisConfig.Valid (cfg : RedisConfig) : Prop where
  db : 0 ≤ cfg.redisDB
  timeout : 0 < cfg.redisTimeout
  rate : 0 < cfg.rateLimitRPM ∧ 0 < cfg.rateLimitBurst
  idempotency : 0 < cfg.idempotencyTTL ∧ 0 < cfg.idempotencyLockTTL
  cache : 0 < cfg.cacheTTL

theorem loadRedis_valid {source : Source}
    {cfg : RedisConfig} (loaded : loadRedis source = .ok cfg) : cfg.Valid := by
  obtain ⟨redisEnabled, -, loaded⟩ := ok_of_bind loaded
  obtain ⟨redisDB, db, loaded⟩ := ok_of_bind loaded
  obtain ⟨redisTimeout, timeout, loaded⟩ := ok_of_bind loaded
  obtain ⟨rateLimitRPM, rate, loaded⟩ := ok_of_bind loaded
  obtain ⟨rateLimitBurst, burst, loaded⟩ := ok_of_bind loaded
  obtain ⟨rateLimitFailOpen, -, loaded⟩ := ok_of_bind loaded
  obtain ⟨idempotencyTTL, result, loaded⟩ := ok_of_bind loaded
  obtain ⟨idempotencyLockTTL, lock, loaded⟩ := ok_of_bind loaded
  obtain ⟨cacheTTL, cache, loaded⟩ := ok_of_bind loaded
  obtain rfl := Except.ok.inj loaded
  exact ⟨nonNegativeInt_ok db, (positiveDuration_ok timeout).1,
    ⟨positiveInt_ok rate, positiveInt_ok burst⟩,
    ⟨(positiveDuration_ok result).1, (positiveDuration_ok lock).1⟩, (positiveDuration_ok cache).1⟩

/-! PostgreSQL -/

/-- The parts of a connection that is not given as a whole. An empty password is none. -/
structure ConnectionURL where
  user : Bytes
  password : Option Bytes
  host : Bytes
  port : Bytes
  database : Bytes
  sslmode : Bytes

/-- `strconv.ParseUint` in 16 bits, and not zero. -/
def validPort (port : Bytes) : Bool := (digits port).any fun number => 0 < number && number < 2 ^ 16

def postgresDSN (source : Source) (format : ConnectionURL → Bytes) : Except String Bytes :=
  let dsn := trimSpaceBytes (source.Getenv "POSTGRES_DSN")
  if dsn ≠ [] then .ok dsn
  else
    let host := envOrDefault source "POSTGRES_HOST" (utf8 "127.0.0.1")
    let port := envOrDefault source "POSTGRES_PORT" (utf8 "5432")
    if validPort port = false then .error "POSTGRES_PORT must be a valid TCP port"
    else
      let user := trimSpaceBytes (source.Getenv "POSTGRES_USER")
      let database := trimSpaceBytes (source.Getenv "POSTGRES_DB")
      if user = [] ∨ database = [] then
        .error "POSTGRES_USER and POSTGRES_DB are required when POSTGRES_ENABLED=true"
      else
        let password := source.Getenv "POSTGRES_PASSWORD"
        .ok (format ⟨user, if password ≠ [] then some password else none, host, port, database,
          envOrDefault source "POSTGRES_SSLMODE" (utf8 "disable")⟩)

def connection (enabled : Bool) (source : Source) (format : ConnectionURL → Bytes) :
    Except String Bytes :=
  if enabled then postgresDSN source format else .ok []

structure PostgresConfig where
  postgresEnabled : Bool
  postgresDSN : Bytes
  postgresMaxConns : Int
  storageTimeout : Int

def loadPostgres (source : Source) (format : ConnectionURL → Bytes) :
    Except String PostgresConfig := do
  let postgresEnabled ← boolean source "POSTGRES_ENABLED" false
  let maxConns ← positiveInt source "POSTGRES_MAX_CONNS" 10
  refuse (maxConns > 100) "POSTGRES_MAX_CONNS must not exceed 100"
  let storageTimeout ← positiveDuration source "STORAGE_TIMEOUT" (utf8 "2s")
  let dsn ← connection postgresEnabled source format
  return ⟨postgresEnabled, dsn, maxConns, storageTimeout⟩

structure PostgresConfig.Valid (cfg : PostgresConfig) : Prop where
  conns : 0 < cfg.postgresMaxConns ∧ cfg.postgresMaxConns ≤ 100
  timeout : 0 < cfg.storageTimeout

theorem loadPostgres_valid {source : Source} {format : ConnectionURL → Bytes} {cfg : PostgresConfig}
    (loaded : loadPostgres source format = .ok cfg) : cfg.Valid := by
  obtain ⟨postgresEnabled, -, loaded⟩ := ok_of_bind loaded
  obtain ⟨maxConns, conns, loaded⟩ := ok_of_bind loaded
  obtain ⟨_, few, loaded⟩ := ok_of_bind loaded
  obtain ⟨storageTimeout, timeout, loaded⟩ := ok_of_bind loaded
  obtain ⟨dsn, -, loaded⟩ := ok_of_bind loaded
  obtain rfl := Except.ok.inj loaded
  exact ⟨⟨positiveInt_ok conns, Int.not_lt.mp (refuse_ok few)⟩, (positiveDuration_ok timeout).1⟩

/-! The providers -/

inductive LogLevel where | debug | info | warn | error
  deriving DecidableEq

def LogLevel.text : LogLevel → Bytes
  | .debug => utf8 "debug"
  | .info => utf8 "info"
  | .warn => utf8 "warn"
  | .error => utf8 "error"

def routingStrategy (source : Source) (reading : Reading) : Except String Routing.Strategy :=
  let text := ToLower reading (envOrDefault source "ROUTING_STRATEGY" (utf8 "round_robin"))
  if text = utf8 "round_robin" then .ok .roundRobin
  else if text = utf8 "weighted_round_robin" then .ok .weightedRoundRobin
  else .error "ROUTING_STRATEGY must be \"round_robin\" or \"weighted_round_robin\""

def logLevel (source : Source) (reading : Reading) : Except String LogLevel :=
  let text := ToLower reading (envOrDefault source "LOG_LEVEL" (utf8 "info"))
  match [LogLevel.debug, .info, .warn, .error].find? fun level => level.text == text with
  | some level => .ok level
  | none => .error "LOG_LEVEL must be debug, info, warn, or error"

/-- The keys of the two kinds of providers that need one. -/
structure Keys where
  deepSeekAPIKey : Bytes
  openAIAPIKey : Bytes

/-- The last loop of `Load`. -/
def checkKeys (reading : Reading) (keys : Keys) : List ProviderTarget → Except String Unit
  | [] => .ok ()
  | target :: targets =>
      match target.kind with
      | .mock => checkKeys reading keys targets
      | .deepSeek =>
          if keys.deepSeekAPIKey = [] then
            .error ("DEEPSEEK_API_KEY is required for deepseek provider " ++
              reading.quote target.name)
          else checkKeys reading keys targets
      | .openAICompatible =>
          if keys.openAIAPIKey = [] then
            .error ("OPENAI_API_KEY is required for openai-compatible provider " ++
              reading.quote target.name)
          else checkKeys reading keys targets

def Keys.apiKey (keys : Keys) : ProviderKind → Option Bytes
  | .mock => none
  | .deepSeek => some keys.deepSeekAPIKey
  | .openAICompatible => some keys.openAIAPIKey

theorem checkKeys_ok {reading : Reading} {keys : Keys} {targets : List ProviderTarget}
    {result : Unit} (checked : checkKeys reading keys targets = .ok result) :
    ∀ target ∈ targets, ∀ key, keys.apiKey target.kind = some key → key ≠ [] := by
  induction targets with
  | nil => exact List.forall_mem_nil _
  | cons target targets ih =>
      rw [List.forall_mem_cons]
      cases kind : target.kind with
      | mock =>
          simp only [checkKeys, kind] at checked
          exact ⟨by simp [Keys.apiKey], ih checked⟩
      | deepSeek =>
          simp only [checkKeys, kind] at checked
          split at checked
          · cases checked
          · rename_i given
            exact ⟨by simpa [Keys.apiKey] using given, ih checked⟩
      | openAICompatible =>
          simp only [checkKeys, kind] at checked
          split at checked
          · cases checked
          · rename_i given
            exact ⟨by simpa [Keys.apiKey] using given, ih checked⟩

theorem routingStrategy_ok {source : Source} {reading : Reading} {strategy : Routing.Strategy}
    (loaded : routingStrategy source reading = .ok strategy) :
    strategy = .roundRobin ∨ strategy = .weightedRoundRobin := by
  unfold routingStrategy at loaded
  dsimp only at loaded
  split at loaded
  · exact .inl (Except.ok.inj loaded).symm
  · split at loaded
    · exact .inr (Except.ok.inj loaded).symm
    · cases loaded

theorem kind_valid (kind : ProviderKind) : (ProviderTarget.mk kind.text kind 1).Valid := by
  cases kind <;> constructor <;> decide +kernel

theorem providerTargets_valid {source : Source} {reading : Reading} {legacyProvider : Bytes}
    {targets : List ProviderTarget}
    (accepted : providerTargets source reading legacyProvider = .ok targets) :
    targets ≠ [] ∧ (targets.map ProviderTarget.name).Nodup ∧ ∀ target ∈ targets, target.Valid := by
  by_cases set : trimSpaceBytes (source.Getenv "MODEL_PROVIDERS") = []
  · rw [providerTargets, if_pos set] at accepted
    split at accepted
    · cases accepted
    · obtain rfl := Except.ok.inj accepted
      exact ⟨by simp, List.nodup_singleton _, List.forall_mem_singleton.mpr (kind_valid _)⟩
  · obtain ⟨each, distinct, valid⟩ := providerTargets_accepted set accepted
    refine ⟨?_, distinct, valid⟩
    rintro rfl
    have parts : (trimSpaceBytes (source.Getenv "MODEL_PROVIDERS")).splitOn 44 = [] :=
      List.forall₂_nil_right_iff.mp each
    exact absurd parts (List.splitOn_ne_nil _ _)

/-! The whole configuration -/

/-- The struct `Config`. -/
structure ServerConfig extends RetryConfig, BreakerConfig, RedisConfig, PostgresConfig, Keys where
  httpAddr : Bytes
  providers : List ProviderTarget
  routingStrategy : Routing.Strategy
  logLevel : LogLevel
  deepSeekBaseURL : Bytes
  openAIBaseURL : Bytes
  shutdownGracePeriod : Int

def Load (source : Source) (reading : Reading) (format : ConnectionURL → Bytes) :
    Except String ServerConfig := do
  let retry ← loadRetry source
  let breaker ← loadBreaker source
  let redis ← loadRedis source
  let postgres ← loadPostgres source format
  let strategy ← routingStrategy source reading
  let level ← logLevel source reading
  let providers ← providerTargets source reading
    (ToLower reading (envOrDefault source "MODEL_PROVIDER" (utf8 "mock")))
  let keys : Keys := ⟨trimSpaceBytes (source.Getenv "DEEPSEEK_API_KEY"),
    trimSpaceBytes (source.Getenv "OPENAI_API_KEY")⟩
  checkKeys reading keys providers
  return { retry, breaker, redis, postgres, keys with
    httpAddr := envOrDefault source "HTTP_ADDR" (utf8 ":8080")
    providers
    routingStrategy := strategy
    logLevel := level
    deepSeekBaseURL := envOrDefault source "DEEPSEEK_BASE_URL" (utf8 "https://api.deepseek.com")
    openAIBaseURL :=
      envOrDefault source "OPENAI_COMPATIBLE_BASE_URL" (utf8 "https://api.openai.com/v1")
    shutdownGracePeriod := 10 * 10 ^ 9 }

structure ServerConfig.Valid (cfg : ServerConfig) : Prop where
  retry : cfg.toRetryConfig.Valid
  breaker : cfg.toBreakerConfig.Valid
  redis : cfg.toRedisConfig.Valid
  postgres : cfg.toPostgresConfig.Valid
  strategy : cfg.routingStrategy = .roundRobin ∨ cfg.routingStrategy = .weightedRoundRobin
  providers : cfg.providers ≠ []
  distinct : (cfg.providers.map ProviderTarget.name).Nodup
  targets : ∀ target ∈ cfg.providers, target.Valid
  keys : ∀ target ∈ cfg.providers, ∀ key, cfg.toKeys.apiKey target.kind = some key →
    trimSpaceBytes key ≠ []

theorem load_valid {source : Source} (representable : source.Representable) {reading : Reading}
    {format : ConnectionURL → Bytes} {cfg : ServerConfig}
    (loaded : Load source reading format = .ok cfg) : cfg.Valid := by
  obtain ⟨retry, first, loaded⟩ := ok_of_bind loaded
  obtain ⟨breaker, second, loaded⟩ := ok_of_bind loaded
  obtain ⟨redis, third, loaded⟩ := ok_of_bind loaded
  obtain ⟨postgres, fourth, loaded⟩ := ok_of_bind loaded
  obtain ⟨strategy, supported, loaded⟩ := ok_of_bind loaded
  obtain ⟨level, -, loaded⟩ := ok_of_bind loaded
  obtain ⟨providers, accepted, loaded⟩ := ok_of_bind loaded
  obtain ⟨_, checked, loaded⟩ := ok_of_bind loaded
  obtain rfl := Except.ok.inj loaded
  obtain ⟨nonempty, distinct, valid⟩ := providerTargets_valid accepted
  refine ⟨loadRetry_valid representable first, loadBreaker_valid second, loadRedis_valid third,
    loadPostgres_valid fourth, routingStrategy_ok supported, nonempty, distinct, valid,
    fun target member key given => ?_⟩
  have present := checkKeys_ok checked target member key given
  -- A key has been trimmed already.
  cases kind : target.kind with
  | mock =>
      rw [kind] at given
      cases given
  | deepSeek =>
      rw [kind] at given
      cases given
      exact trimSpaceBytes_twice present
  | openAICompatible =>
      rw [kind] at given
      cases given
      exact trimSpaceBytes_twice present

end ModelGate.Config
