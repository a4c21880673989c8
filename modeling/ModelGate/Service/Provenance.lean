import ModelGate.Service.AtMostOnce
import ModelGate.Service.Sourcing

/-! Where a response that comes from a store was made.

Any clients ask one gateway. Entries of both stores may expire at any moment
and every operation on a store may fail, before or after it took effect.
-/

set_option autoImplicit false

namespace ModelGate.Service

open Data Semantics Provider

/-- Both stores, and all operations so far with the numbers of their callers. -/
structure Logged where
  cache : Cache.Keyspace
  idempotency : Idempotency.Keyspace
  history : List (Nat × Event gatewayCalls)

/-- A failed operation may still have taken effect. -/
def Attempted {Store Reply : Type} (fails : Reply → Prop) (store : Store) (applied : Store × Reply)
    (reply : Reply) (next : Store) : Prop :=
  (next = applied.1 ∧ reply = applied.2) ∨ ((next = store ∨ next = applied.1) ∧ fails reply)

namespace Logged

def Handled (s : Logged) :
    (op : gatewayCalls.Op) → gatewayCalls.Reply op → Cache.Keyspace → Idempotency.Keyspace → Prop
  | .inl (.get key), reply, cache, idempotency =>
      Attempted (fun reply => ∃ err, reply = .error err) s.cache
          (s.cache, .ok (s.cache.Get key)) reply cache ∧ idempotency = s.idempotency
  | .inl (.set key payload), reply, cache, idempotency =>
      Attempted (· ≠ none) s.cache (s.cache.Set key payload, none) reply cache ∧
        idempotency = s.idempotency
  | .inl (.begin key fingerprint), reply, cache, idempotency =>
      cache = s.cache ∧ Attempted (fun reply => ∃ err, reply = .error err) s.idempotency
          ((s.idempotency.Begin key fingerprint).1, .ok (s.idempotency.Begin key fingerprint).2)
          reply idempotency
  | .inl (.complete key fingerprint payload), reply, cache, idempotency =>
      cache = s.cache ∧
        Attempted (· ≠ none) s.idempotency (s.idempotency.Complete key fingerprint payload) reply
          idempotency
  | .inl (.release key fingerprint), reply, cache, idempotency =>
      cache = s.cache ∧
        Attempted (· ≠ none) s.idempotency (s.idempotency.Release key fingerprint) reply idempotency
  | _, _, cache, idempotency => cache = s.cache ∧ idempotency = s.idempotency

def Next (caller : Nat) (s : Logged) (op : gatewayCalls.Op) (reply : gatewayCalls.Reply op)
    (next : Logged) : Prop :=
  s.Handled op reply next.cache next.idempotency ∧
    next.history = s.history ++ [(caller, ⟨op, reply⟩)]

/-- Any entries disappear. -/
def Expires (s next : Logged) : Prop :=
  (∀ location, next.cache location = s.cache location ∨ next.cache location = none) ∧
  (∀ location, next.idempotency location = s.idempotency location ∨
    next.idempotency location = none) ∧
  next.history = s.history

section Handled

variable {s : Logged} {op : gatewayCalls.Op} {reply : gatewayCalls.Reply op}
  {cache : Cache.Keyspace} {idempotency : Idempotency.Keyspace}

theorem cache_of_handled (handled : s.Handled op reply cache idempotency) {location : String}
    {payload : Bytes} (stored : cache location = some payload) :
    s.cache location = some payload ∨ ∃ key, op = .inl (.set key payload) ∧
    location = Cache.redisKey key := by
  have kept (same : cache = s.cache) : s.cache location = some payload := by
    rw [← same]
    exact stored
  match op with
  | .inl (.get key) =>
      rcases handled.1 with ⟨same, _⟩ | ⟨same | same, _⟩ <;> exact .inl (kept same)
  | .inl (.set key written) =>
      have changed (same : cache = s.cache.Set key written) : s.cache location = some payload ∨
          ∃ key', (Sum.inl (Effect.set key written) : gatewayCalls.Op) = .inl (.set key' payload) ∧
          location = Cache.redisKey key' := by
        rw [same, Cache.Keyspace.Set, Function.update_apply] at stored
        split at stored
        · obtain rfl := Option.some.inj stored
          exact .inr ⟨key, rfl, ‹_›⟩
        · exact .inl stored
      rcases handled.1 with ⟨same, _⟩ | ⟨same | same, _⟩
      · exact changed same
      · exact .inl (kept same)
      · exact changed same
  | .inl (.begin _ _) | .inl (.complete _ _ _) | .inl (.release _ _) | .inl .randRead |
      .inl (.allow _)
  | .inl (.record _) | .inl (.errorSink _) | .inl .observeRateLimited | .inl .observeCacheHit
  | .inl (.observeTokens _ _) | .inl .cancel | .inl .newStream | .inl (.loadUsage _) |
      .inl (.storeUsage _ _)
  | .inl (.enterOnce _) | .inl (.leaveOnce _) | .inr _ => exact .inl (kept handled.1)

theorem completed_of_handled (handled : s.Handled op reply cache idempotency) {location : String}
    {entry : Idempotency.Entry} (stored : idempotency location = some entry)
    (completed : entry.state = .completed) :
    s.idempotency location = some entry ∨
    ∃ key payload, op = .inl (.complete key entry.fingerprint payload) ∧
    location = Idempotency.redisKey key ∧ entry.response = some payload := by
  have kept (same : idempotency = s.idempotency) : s.idempotency location = some entry := by
    rw [← same]
    exact stored
  -- An operation that returns an error may have been carried out or not.
  match op with
  | .inl (.begin key fingerprint) =>
      rcases handled.2 with ⟨same, _⟩ | ⟨same | same, _⟩
      · rw [same] at stored
        exact .inl (Idempotency.Keyspace.completed_of_begin stored completed)
      · exact .inl (kept same)
      · rw [same] at stored
        exact .inl (Idempotency.Keyspace.completed_of_begin stored completed)
  | .inl (.complete key fingerprint payload) =>
      have changed (same : idempotency = (s.idempotency.Complete key fingerprint payload).1) :
          s.idempotency location = some entry ∨ ∃ key' payload',
            (Sum.inl (Effect.complete key fingerprint payload) : gatewayCalls.Op) =
              .inl (.complete key' entry.fingerprint payload') ∧
            location = Idempotency.redisKey key' ∧ entry.response = some payload' := by
        rw [same] at stored
        rcases Idempotency.Keyspace.completed_of_complete stored with old | ⟨here, rfl, response⟩
        · exact .inl old
        · exact .inr ⟨key, payload, rfl, here, response⟩
      rcases handled.2 with ⟨same, _⟩ | ⟨same | same, _⟩
      · exact changed same
      · exact .inl (kept same)
      · exact changed same
  | .inl (.release key fingerprint) =>
      rcases handled.2 with ⟨same, _⟩ | ⟨same | same, _⟩
      · rw [same] at stored
        exact .inl (Idempotency.Keyspace.completed_of_release stored)
      · exact .inl (kept same)
      · rw [same] at stored
        exact .inl (Idempotency.Keyspace.completed_of_release stored)
  | .inl (.get _) | .inl (.set _ _) | .inl .randRead | .inl (.allow _) | .inl (.record _) |
      .inl (.errorSink _)
  | .inl .observeRateLimited | .inl .observeCacheHit | .inl (.observeTokens _ _) | .inl .cancel |
      .inl .newStream
  | .inl (.loadUsage _) | .inl (.storeUsage _ _) | .inl (.enterOnce _) |
      .inl (.leaveOnce _) | .inr _ =>
      exact .inl (kept handled.2)

theorem found_of_handled {key : String} {payload : Bytes}
    (handled : s.Handled (.inl (.get key)) (.ok (some payload)) cache idempotency) :
    s.cache (Cache.redisKey key) = some payload := by
  rcases handled.1 with ⟨_, same⟩ | ⟨_, err, impossible⟩
  · exact (Except.ok.inj same).symm
  · cases impossible

theorem replayed_of_handled {key fingerprint : String} {payload : Bytes}
    (handled : s.Handled (.inl (.begin key fingerprint))
      (.ok (.completed payload)) cache idempotency) :
    ∃ entry, s.idempotency (Idempotency.redisKey key) = some entry ∧
    entry.fingerprint = fingerprint ∧ entry.state = .completed ∧
    payload = entry.response.getD [] := by
  rcases handled.2 with ⟨_, same⟩ | ⟨_, err, impossible⟩
  · exact Idempotency.Keyspace.begin_completed (Except.ok.inj same).symm
  · cases impossible

end Handled

end Logged

/-! What the keys tell apart -/

/-- The texts the gateway hashes for these requests. -/
def Codec.Hashed (codec : Codec) (clients : Request → Prop) (input : Bytes) : Prop :=
  ∃ request, clients request ∧ ValidateChatRequest (some request.req) = none ∧
    ((∃ idempotencyKey, normalizeIdempotencyKey request.metadata.idempotencyKey =
        .ok idempotencyKey ∧ idempotencyKey ≠ "" ∧
        input = Idempotency.scopeInput request.metadata.clientIdentity idempotencyKey) ∨
      (∃ canonical, codec.marshalRequest request.req = .ok canonical ∧
        (input = canonical ∨ input = Cache.keyInput request.metadata.clientIdentity canonical)))

/-- What is assumed of `crypto/sha256` and `encoding/json` for these requests. -/
structure Codec.Faithful (codec : Codec) (clients : Request → Prop) : Prop where
  collisionFree : ∀ {first second}, codec.Hashed clients first → codec.Hashed clients second →
    codec.sha256 first = codec.sha256 second → first = second
  injective : ∀ {first second payload}, ValidateChatRequest (some first) = none →
    ValidateChatRequest (some second) = none → codec.marshalRequest first = .ok payload →
    codec.marshalRequest second = .ok payload → first = second
  separates : ∀ {req payload}, ValidateChatRequest (some req) = none →
    codec.marshalRequest req = .ok payload → (0 : UInt8) ∉ payload

section Keys

variable {codec : Codec} {clients : Request → Prop} (faithful : codec.Faithful clients)
  {request other : Request} (asked : clients request) (also : clients other)
include faithful asked also

theorem Codec.CacheKey.same_request {key : String} (first : codec.CacheKey request key)
    (second : codec.CacheKey other key) :
    request.metadata.clientIdentity = other.metadata.clientIdentity ∧ request.req = other.req ∧
    Cache.Cacheable request.req := by
  obtain ⟨valid, computed⟩ := first
  obtain ⟨valid', computed'⟩ := second
  unfold Cache.Key at computed computed'
  split at computed <;> rename_i cacheable
  · cases computed
  · split at computed' <;> rename_i cacheable'
    · cases computed'
    · split at computed <;> rename_i encoded
      · cases computed
      · split at computed' <;> rename_i encoded'
        · cases computed'
        · have digests := computed.trans computed'.symm
          have inputs := faithful.collisionFree ⟨request, asked, valid, .inr ⟨_, encoded, .inr rfl⟩⟩
            ⟨other, also, valid', .inr ⟨_, encoded', .inr rfl⟩⟩
            (hexEncode_inj (Option.some.inj (Except.ok.inj digests)))
          obtain ⟨client, rfl⟩ := separated_inj (faithful.separates valid encoded)
            (faithful.separates valid' encoded') inputs
          exact ⟨client, faithful.injective valid valid' encoded encoded', not_not.mp cacheable⟩

theorem Codec.Scope.same_request {idempotencyKey idempotencyKey' key fingerprint : String}
    (first : codec.Scope request idempotencyKey key fingerprint)
    (second : codec.Scope other idempotencyKey' key fingerprint) :
    request.metadata.clientIdentity = other.metadata.clientIdentity ∧
    idempotencyKey = idempotencyKey' ∧ request.req = other.req := by
  have scopes := faithful.collisionFree
    ⟨request, asked, first.valid, .inl ⟨idempotencyKey, first.normalized, first.present, rfl⟩⟩
    ⟨other, also, second.valid, .inl ⟨idempotencyKey', second.normalized, second.present, rfl⟩⟩
    (hexEncode_inj (first.located.symm.trans second.located))
  obtain ⟨client, keys⟩ := separated_inj (zero_notMem_normalized first.normalized)
    (zero_notMem_normalized second.normalized) scopes
  have encodes {req : ChatRequest} (computed : requestFingerprint codec req = .ok fingerprint) :
      ∃ payload, codec.marshalRequest req = .ok payload ∧
      fingerprint = hexEncode (codec.sha256 payload) := by
    unfold requestFingerprint at computed
    split at computed
    · cases computed
    · exact ⟨_, ‹_›, (Except.ok.inj computed).symm⟩
  obtain ⟨payload, encoded, digest⟩ := encodes first.fingerprinted
  obtain ⟨payload', encoded', digest'⟩ := encodes second.fingerprinted
  have payloads := faithful.collisionFree ⟨request, asked, first.valid, .inr ⟨_, encoded, .inl rfl⟩⟩
    ⟨other, also, second.valid, .inr ⟨_, encoded', .inl rfl⟩⟩
    (hexEncode_inj (digest.symm.trans digest'))
  rw [← payloads] at encoded'
  exact ⟨client, utf8_inj keys, faithful.injective first.valid second.valid encoded encoded'⟩

end Keys

/-! The invariant of both stores -/

section Origin

variable (codec : Codec) (requests : List Request) (history : List (Nat × Event gatewayCalls))

/-- The payload encodes what the provider answered to this client for this
request, which the policy lets into the cache. -/
def CacheOrigin (identity : Bytes) (req : ChatRequest) (payload : Bytes) : Prop :=
  ∃ caller request response, requests[caller]? = some request ∧
    request.metadata.clientIdentity = identity ∧ request.req = req ∧ Cache.Cacheable req ∧
    (caller, chatEvent req (.ok response)) ∈ history ∧ payload = codec.marshalResponse response

/-- The caller got the payload from the provider, or from the cache. -/
def Produced (caller : Nat) (request : Request) (payload : Bytes) : Prop :=
  (∃ response, (caller, chatEvent request.req (.ok response)) ∈ history ∧
    payload = codec.marshalResponse response) ∨
  (∃ before key after cached, history = before ++ (caller, hitEvent key payload) :: after ∧
    codec.unmarshalResponse payload = .ok cached ∧
    CacheOrigin codec requests before request.metadata.clientIdentity request.req payload)

/-- A request of this client with this key and this payload produced it. -/
def ReplayOrigin (identity : Bytes) (idempotencyKey : String) (req : ChatRequest)
    (payload : Bytes) : Prop :=
  ∃ caller request, requests[caller]? = some request ∧ request.metadata.clientIdentity = identity ∧
    normalizeIdempotencyKey request.metadata.idempotencyKey = .ok idempotencyKey ∧
    request.req = req ∧ Produced codec requests history caller request payload

end Origin

/-- Every entry has a maker, and every response a store gave out had one by
the time it was given. -/
structure Traceable (codec : Codec) (requests : List Request) (s : Logged) : Prop where
  cached : ∀ {location payload}, s.cache location = some payload →
    ∃ key caller request response, location = Cache.redisKey key ∧
    requests[caller]? = some request ∧ codec.CacheKey request key ∧
    (caller, chatEvent request.req (.ok response)) ∈ s.history ∧
    payload = codec.marshalResponse response
  completed : ∀ {location entry}, s.idempotency location = some entry → entry.state = .completed →
    ∃ key payload caller request idempotencyKey, location = Idempotency.redisKey key ∧
    entry.response = some payload ∧ requests[caller]? = some request ∧
    codec.Scope request idempotencyKey key entry.fingerprint ∧
    Produced codec requests s.history caller request payload
  hits : ∀ {before after caller key payload}, s.history =
      before ++ (caller, hitEvent key payload) :: after →
    ∃ request, requests[caller]? = some request ∧
    CacheOrigin codec requests before request.metadata.clientIdentity request.req payload
  replays : ∀ {before after caller key fingerprint payload}, s.history =
      before ++ (caller, replayEvent key fingerprint payload) :: after →
    ∃ request idempotencyKey, requests[caller]? = some request ∧
    normalizeIdempotencyKey request.metadata.idempotencyKey = .ok idempotencyKey ∧
    ReplayOrigin codec requests before request.metadata.clientIdentity idempotencyKey
      request.req payload

section Growth

variable {codec : Codec} {requests : List Request} {history : List (Nat × Event gatewayCalls)}

theorem getElem?_of_spawn {caller : Nat} {request : Request} (fresh : Request)
    (found : requests[caller]? = some request) : (requests ++ [fresh])[caller]? = some request := by
  rw [List.getElem?_append_left (List.getElem?_eq_some_iff.mp found).1]
  exact found

theorem CacheOrigin.spawn {identity : Bytes} {req : ChatRequest} {payload : Bytes} (fresh : Request)
    (origin : CacheOrigin codec requests history identity req payload) :
    CacheOrigin codec (requests ++ [fresh]) history identity req payload := by
  obtain ⟨caller, request, response, found, rest⟩ := origin
  exact ⟨caller, request, response, getElem?_of_spawn fresh found, rest⟩

theorem Produced.spawn {caller : Nat} {request : Request} {payload : Bytes} (fresh : Request)
    (produced : Produced codec requests history caller request payload) :
    Produced codec (requests ++ [fresh]) history caller request payload := by
  rcases produced with answered | ⟨before, key, after, cached, split, decoded, origin⟩
  · exact .inl answered
  · exact .inr ⟨before, key, after, cached, split, decoded, origin.spawn fresh⟩

theorem Produced.later {caller : Nat} {request : Request} {payload : Bytes}
    (event : Nat × Event gatewayCalls)
    (produced : Produced codec requests history caller request payload) :
    Produced codec requests (history ++ [event]) caller request payload := by
  rcases produced with ⟨response, told, encoded⟩ |
    ⟨before, key, after, cached, split, decoded, origin⟩
  · exact .inl ⟨response, List.mem_append_left _ told, encoded⟩
  · refine .inr ⟨before, key, after ++ [event], cached, ?_, decoded, origin⟩
    rw [split, List.append_assoc, List.cons_append]

theorem Traceable.spawn {s : Logged} (traceable : Traceable codec requests s) (fresh : Request) :
    Traceable codec (requests ++ [fresh]) s := by
  constructor
  · intro location payload stored
    obtain ⟨key, caller, request, response, here, found, rest⟩ := traceable.cached stored
    exact ⟨key, caller, request, response, here, getElem?_of_spawn fresh found, rest⟩
  · intro location entry stored completed
    obtain ⟨key, payload, caller, request, idempotencyKey, here, response, found, scope,
      produced⟩ :=
      traceable.completed stored completed
    exact ⟨key, payload, caller, request, idempotencyKey, here, response,
      getElem?_of_spawn fresh found, scope, produced.spawn fresh⟩
  · intro before after caller key payload split
    obtain ⟨request, found, origin⟩ := traceable.hits split
    exact ⟨request, getElem?_of_spawn fresh found, origin.spawn fresh⟩
  · intro before after caller key fingerprint payload split
    obtain ⟨request, idempotencyKey, found, normalized, maker, made, located, client, keyed, same,
      produced⟩ :=
      traceable.replays split
    exact ⟨request, idempotencyKey, getElem?_of_spawn fresh found, normalized, maker, made,
      getElem?_of_spawn fresh located, client, keyed, same, produced.spawn fresh⟩

theorem Traceable.expire {s next : Logged} (traceable : Traceable codec requests s)
    (expires : s.Expires next) : Traceable codec requests next := by
  obtain ⟨caches, entries, same⟩ := expires
  constructor
  · intro location payload stored
    rw [same]
    rcases caches location with kept | dropped
    · exact traceable.cached (kept.symm.trans stored)
    · cases dropped.symm.trans stored
  · intro location entry stored completed
    rw [same]
    rcases entries location with kept | dropped
    · exact traceable.completed (kept.symm.trans stored) completed
    · cases dropped.symm.trans stored
  · intro before after caller key payload split
    exact traceable.hits (same.symm.trans split)
  · intro before after caller key fingerprint payload split
    exact traceable.replays (same.symm.trans split)

theorem split_concat {α : Type} {items before after : List α} {last item : α}
    (split : items ++ [last] = before ++ item :: after) :
    (before = items ∧ item = last) ∨ ∃ rest, items = before ++ item :: rest := by
  rcases List.eq_nil_or_concat after with rfl | ⟨rest, final, rfl⟩
  · obtain ⟨same, equal⟩ := List.append_inj' split rfl
    exact .inl ⟨same.symm, (List.singleton_inj.mp equal).symm⟩
  · refine .inr ⟨rest, ?_⟩
    rw [List.concat_eq_append, ← List.cons_append, ← List.append_assoc] at split
    exact (List.append_inj' split rfl).1

end Growth

section Perform

variable {codec : Codec} {clients : Request → Prop} (faithful : codec.Faithful clients)
  {requests : List Request} {s next : Logged} (traceable : Traceable codec requests s)
  {caller : Nat} {request : Request} (found : requests[caller]? = some request)

include traceable

include faithful in
theorem Traceable.cacheOrigin (admitted : ∀ request ∈ requests, clients request)
    (asked : clients request) {key : String} {payload : Bytes} (keyed : codec.CacheKey request key)
    (stored : s.cache (Cache.redisKey key) = some payload) :
    CacheOrigin codec requests s.history request.metadata.clientIdentity request.req payload := by
  obtain ⟨other, maker, made, response, here, located, madeKey, told, encoded⟩ :=
    traceable.cached stored
  obtain rfl := Cache.redisKey_inj here
  obtain ⟨client, same, cacheable⟩ :=
    keyed.same_request faithful asked (admitted made (List.mem_of_getElem? located)) madeKey
  rw [← same] at told
  exact ⟨maker, made, response, located, client.symm, same.symm, cacheable, told, encoded⟩

include faithful in
theorem Traceable.replayOrigin (admitted : ∀ request ∈ requests, clients request)
    (asked : clients request) {idempotencyKey key : String} {entry : Idempotency.Entry}
    (scope : codec.Scope request idempotencyKey key entry.fingerprint)
    (stored : s.idempotency (Idempotency.redisKey key) = some entry)
    (completed : entry.state = .completed) :
    ReplayOrigin codec requests s.history request.metadata.clientIdentity idempotencyKey request.req
      (entry.response.getD []) := by
  obtain ⟨other, payload, maker, made, madeKey, here, response, located, madeScope, produced⟩ :=
    traceable.completed stored completed
  obtain rfl := Idempotency.redisKey_inj here
  obtain ⟨client, rfl, same⟩ :=
    scope.same_request faithful asked (admitted made (List.mem_of_getElem? located)) madeScope
  rw [response]
  exact ⟨maker, made, located, client.symm, madeScope.normalized, same.symm, produced⟩

variable {past : List (Event gatewayCalls)} (logged : ∀ event ∈ past, (caller, event) ∈ s.history)
include found logged

theorem Traceable.produced {payload : Bytes}
    (source : Story.Answered codec ⟨request, past⟩ payload ∨
      Story.Found codec ⟨request, past⟩ payload) :
    Produced codec requests s.history caller request payload := by
  rcases source with ⟨response, told, encoded⟩ | ⟨key, cached, told, decoded⟩
  · exact .inl ⟨response, logged _ told, encoded⟩
  · obtain ⟨before, after, split⟩ := List.append_of_mem (logged _ told)
    obtain ⟨asker, located, origin⟩ := traceable.hits split
    obtain rfl := Option.some.inj (found.symm.trans located)
    exact .inr ⟨before, key, after, cached, split, decoded, origin⟩

include faithful in
theorem Traceable.perform (admitted : ∀ request ∈ requests, clients request) {op : gatewayCalls.Op}
    {reply : gatewayCalls.Reply op} (allowed : (sourcing codec).may ⟨request, past⟩ op)
    (step : s.Next caller op reply next) : Traceable codec requests next := by
  obtain ⟨handled, longer⟩ := step
  have asked := admitted request (List.mem_of_getElem? found)
  -- A new entry is traced to the story of the request that wrote it, and a response that was
  -- given out to the entry it came from.
  constructor
  · intro location payload stored
    rw [longer]
    rcases Logged.cache_of_handled handled stored with old | ⟨key, rfl, here⟩
    · obtain ⟨key, maker, made, response, here, located, keyed, told, encoded⟩ :=
        traceable.cached old
      exact ⟨key, maker, made, response, here, located, keyed, List.mem_append_left _ told, encoded⟩
    · obtain ⟨keyed, _, response, told, encoded⟩ := allowed
      exact ⟨key, caller, request, response, here, found, keyed,
        List.mem_append_left _ (logged _ told), encoded⟩
  · intro location entry stored completed
    rw [longer]
    rcases Logged.completed_of_handled handled stored completed with old |
      ⟨key, payload, rfl, here, response⟩
    · obtain ⟨key, payload, maker, made, idempotencyKey, here, response, located, scope,
        produced⟩ :=
        traceable.completed old completed
      exact ⟨key, payload, maker, made, idempotencyKey, here, response, located, scope,
        produced.later _⟩
    · obtain ⟨⟨idempotencyKey, scope⟩, _, source⟩ := allowed
      exact ⟨key, payload, caller, request, idempotencyKey, here, response, found, scope,
        (traceable.produced found logged source).later _⟩
  · intro before after asker key payload split
    rw [longer] at split
    rcases split_concat split with ⟨rfl, last⟩ | ⟨rest, old⟩
    · cases last
      exact ⟨request, found, traceable.cacheOrigin faithful admitted asked allowed
        (Logged.found_of_handled handled)⟩
    · exact traceable.hits old
  · intro before after asker key fingerprint payload split
    rw [longer] at split
    rcases split_concat split with ⟨rfl, last⟩ | ⟨rest, old⟩
    · cases last
      obtain ⟨idempotencyKey, scope⟩ := allowed
      obtain ⟨entry, stored, rfl, completed, rfl⟩ := Logged.replayed_of_handled handled
      exact ⟨request, idempotencyKey, found, scope.normalized,
        traceable.replayOrigin faithful admitted asked scope stored completed⟩
    · exact traceable.replays old

end Perform

/-! Runs -/

section Runs

variable (codec : Codec) (options : GatewayOptions) (clients : Request → Prop)

/-- One gateway asked by any of these clients. -/
def sharedGateway : System gatewayCalls Logged Request (Except Err ChatResult) where
  body request := (NewGatewayService codec outside options).Chat request.req request.metadata
  admits _ request := clients request
  handles := Logged.Next
  moves := Logged.Expires

def sharedDiscipline : Discipline (sharedGateway codec options clients) Story where
  protocol := sourcing codec
  first request := ⟨request, []⟩
  post := Sourced codec
  obeyed _ request _ := by
    dsimp only [sharedGateway]
    exact chat_sourced (g := NewGatewayService codec outside options) rfl request

theorem sharedDiscipline_phase (thread : Thread (sharedGateway codec options clients)) :
    (sharedDiscipline codec options clients).phase thread =
      ⟨thread.task, thread.past.filter fun event => notable event.op⟩ := by
  have advances (story : Story) (trace : List (Event gatewayCalls)) :
      (sourcing codec).advance story trace =
      ⟨story.request, story.past ++ trace.filter fun event => notable event.op⟩ := by
    induction trace generalizing story with
    | nil => simp [Protocol.advance]
    | cons event trace ih =>
        refine (ih _).trans ?_
        cases told : notable event.op <;> simp [sourcing, told, Story.hear]
  exact advances ⟨thread.task, []⟩ thread.past

variable {codec options clients}

/-- The stories agree with the history, and the stores with both. -/
structure Told (codec : Codec) (clients : Request → Prop) (s : Logged) (stories : List Story) :
    Prop where
  admitted : ∀ request ∈ stories.map Story.request, clients request
  logged : ∀ {index story}, stories[index]? = some story →
    ∀ event ∈ story.past, (index, event) ∈ s.history
  clean : ∀ story ∈ stories, Story.Unfailed story.past ∨ Story.Unstored story.past
  traceable : Traceable codec (stories.map Story.request) s

theorem request_after (story : Story) (op : gatewayCalls.Op) (reply : gatewayCalls.Reply op) :
    ((sourcing codec).after story op reply).request = story.request := by
  unfold sourcing
  dsimp only
  split <;> rfl

theorem past_after (story : Story) (op : gatewayCalls.Op) (reply : gatewayCalls.Reply op)
    {event : Event gatewayCalls} (member : event ∈ ((sourcing codec).after story op reply).past) :
    event ∈ story.past ∨ event = ⟨op, reply⟩ := by
  unfold sourcing at member
  dsimp only at member
  split at member
  · exact (List.mem_append.mp member).imp_right List.mem_singleton.mp
  · exact .inl member

/-- A request that has stored a response is not refused any more, and one that
was refused stores nothing. -/
theorem clean_after {story : Story} (clean : Story.Unfailed story.past ∨ Story.Unstored story.past)
    {op : gatewayCalls.Op} (allowed : (sourcing codec).may story op)
    (reply : gatewayCalls.Reply op) :
    Story.Unfailed ((sourcing codec).after story op reply).past ∨
      Story.Unstored ((sourcing codec).after story op reply).past := by
  have stays (unfailed : Story.Unfailed story.past) (other : ∀ req err, chatEvent req (.error err) ≠
      ⟨op, reply⟩) : Story.Unfailed ((sourcing codec).after story op reply).past := by
    intro req err member
    exact (past_after story op reply member).elim (unfailed req err) (other req err)
  have keeps (unstored : Story.Unstored story.past) (other : ¬ Stores op) :
      Story.Unstored ((sourcing codec).after story op reply).past := by
    intro event member
    rcases past_after story op reply member with old | rfl
    · exact unstored event old
    · exact other
  match op with
  | .inr (.chat req) => exact .inr (keeps allowed.2 id)
  | .inl (.set key payload) => exact .inl (stays allowed.2.1 fun _ _ same => nomatch same)
  | .inl (.complete key fingerprint payload) =>
      exact .inl (stays allowed.2.1 fun _ _ same => nomatch same)
  | .inr (.chatStream _) | .inr (.recv _) | .inr (.close _) => exact absurd allowed id
  | .inl (.begin _ _) | .inl (.release _ _) | .inl (.get _) | .inl .randRead | .inl (.allow _) |
      .inl (.record _)
  | .inl (.errorSink _) | .inl .observeRateLimited | .inl .observeCacheHit |
      .inl (.observeTokens _ _) | .inl .cancel
  | .inl .newStream | .inl (.loadUsage _) | .inl (.storeUsage _ _) | .inl (.enterOnce _) |
      .inl (.leaveOnce _) =>
      rcases clean with unfailed | unstored
      · exact .inl (stays unfailed fun _ _ same => nomatch same)
      · exact .inr (keeps unstored id)

theorem shared_preserves (faithful : codec.Faithful clients) :
    (sharedDiscipline codec options clients).Preserves (Told codec clients) := by
  -- A request starts with an empty story, a call extends one story and the history alike, and
  -- expiry only removes entries.
  constructor
  · intro s stories request told asked
    constructor
    · intro other member
      simp only [List.map_append, List.mem_append, List.map_cons, List.map_nil,
        List.mem_singleton] at member
      rcases member with old | rfl
      · exact told.admitted other old
      · exact asked
    · intro index story found event member
      rcases getElem?_concat_some found with old | rfl
      · exact told.logged old event member
      · exact absurd member List.not_mem_nil
    · intro story member
      rcases List.mem_append.mp member with old | new
      · exact told.clean story old
      · obtain rfl := List.mem_singleton.mp new
        exact .inl fun _ _ => List.not_mem_nil
    · rw [List.map_append]
      exact told.traceable.spawn request
  · intro s stories index story op reply next told found allowed step
    refine ⟨trivial, ?_⟩
    have requests : (stories.set index ((sourcing codec).after story op reply)).map Story.request =
        stories.map Story.request := by
      rw [List.map_set, request_after, ← List.map_set, set_of_getElem? found]
    have located : (stories.map Story.request)[index]? = some story.request := by
      rw [List.getElem?_map, found]
      rfl
    constructor
    · intro request member
      change request ∈ (stories.set index ((sourcing codec).after story op reply)).map
        Story.request at member
      rw [requests] at member
      exact told.admitted request member
    · intro position other place event member
      rw [step.2]
      rcases getElem?_set_some place with ⟨rfl, rfl⟩ | ⟨_, old⟩
      · rcases past_after story op reply member with before | rfl
        · exact List.mem_append_left _ (told.logged found event before)
        · exact List.mem_append_right _ (List.mem_singleton_self _)
      · exact List.mem_append_left _ (told.logged old event member)
    · intro other member
      rcases List.mem_or_eq_of_mem_set member with old | rfl
      · exact told.clean other old
      · exact clean_after (told.clean story (List.mem_of_getElem? found)) allowed reply
    · have kept := told.traceable.perform faithful located (told.logged found) told.admitted
        allowed step
      rw [← requests] at kept
      exact kept
  · intro s stories next told expires
    refine ⟨told.admitted, ?_, told.clean, told.traceable.expire expires⟩
    intro index story found event member
    rw [expires.2.2]
    exact told.logged found event member

theorem Traceable.empty {requests : List Request} :
    Traceable codec requests ⟨fun _ => none, fun _ => none, []⟩ := by
  constructor
  · intro location payload stored
    cases stored
  · intro location entry stored
    cases stored
  · intro before after caller key payload split
    exact absurd split.symm (by simp)
  · intro before after caller key fingerprint payload split
    exact absurd split.symm (by simp)

theorem Told.empty : Told codec clients ⟨fun _ => none, fun _ => none, []⟩ [] := by
  constructor
  · exact fun _ member => absurd member List.not_mem_nil
  · intro index story found
    simp at found
  · exact fun _ member => absurd member List.not_mem_nil
  · exact Traceable.empty

structure Provenance (pool : Pool (sharedGateway codec options clients)) : Prop where
  hit : ∀ {index thread result}, pool.threads[index]? = some thread →
    thread.exit = some (.returned (.ok result)) → result.cacheStatus = .hit →
    ∃ before key payload after, pool.shared.history = before ++ (index, hitEvent key payload) ::
      after ∧ codec.unmarshalResponse payload = .ok result.response ∧
    CacheOrigin codec (pool.threads.map Thread.task) before thread.task.metadata.clientIdentity
      thread.task.req payload
  replayed : ∀ {index thread result}, pool.threads[index]? = some thread →
    thread.exit = some (.returned (.ok result)) → result.idempotencyReplayed = true →
    ∃ before key fingerprint payload after idempotencyKey, pool.shared.history =
      before ++ (index, replayEvent key fingerprint payload) :: after ∧
    codec.unmarshalResponse payload = .ok result.response ∧
    normalizeIdempotencyKey thread.task.metadata.idempotencyKey = .ok idempotencyKey ∧
    ReplayOrigin codec (pool.threads.map Thread.task) before thread.task.metadata.clientIdentity
      idempotencyKey thread.task.req payload
  unstored : ∀ thread ∈ pool.threads, ∀ req err, chatEvent req (.error err) ∈ thread.past →
    ∀ event ∈ thread.past, ¬ Stores event.op

/-- Whatever expires and whatever fails, a response from a store was made for
the same client and an equal request, and a refusal stores nothing. -/
theorem shared_provenance (faithful : codec.Faithful clients)
    {pool : Pool (sharedGateway codec options clients)}
    (steps : (Pool.initial ⟨fun _ => none, fun _ => none, []⟩).Steps pool) : Provenance pool := by
  have holds := (shared_preserves faithful).holds_steps
    (Discipline.holds_initial _ Told.empty) steps
  -- The phases know their requests, and these are the tasks of the threads.
  have tasks : ((sharedDiscipline codec options clients).phases pool).map Story.request =
      pool.threads.map Thread.task := by
    rw [Discipline.phases, List.map_map]
    apply List.map_congr_left
    intro thread _
    exact congrArg Story.request (sharedDiscipline_phase codec options clients thread)
  have requested {index : Nat} {thread : Thread (sharedGateway codec options clients)}
      (found : pool.threads[index]? = some thread) : (pool.threads.map Thread.task)[index]? =
      some thread.task := by
    rw [List.getElem?_map, found]
    rfl
  have traceable := holds.1.traceable
  rw [tasks] at traceable
  constructor
  · intro index thread result found ended status
    have sourced := holds.post_of_exit (List.mem_of_getElem? found) ended
    obtain ⟨key, payload, told, decoded⟩ := sourced.1 status
    obtain ⟨before, after, split⟩ :=
      List.append_of_mem (holds.1.logged (Discipline.phases_getElem? _ found) _ told)
    obtain ⟨request, located, origin⟩ := traceable.hits split
    obtain rfl := Option.some.inj ((requested found).symm.trans located)
    exact ⟨before, key, payload, after, split, decoded, origin⟩
  · intro index thread result found ended status
    have sourced := holds.post_of_exit (List.mem_of_getElem? found) ended
    obtain ⟨key, fingerprint, payload, told, decoded⟩ := sourced.2 status
    obtain ⟨before, after, split⟩ :=
      List.append_of_mem (holds.1.logged (Discipline.phases_getElem? _ found) _ told)
    obtain ⟨request, idempotencyKey, located, normalized, origin⟩ := traceable.replays split
    obtain rfl := Option.some.inj ((requested found).symm.trans located)
    exact ⟨before, key, fingerprint, payload, after, idempotencyKey, split, decoded,
      normalized, origin⟩
  · intro thread member req err refused event done stores
    have clean := holds.1.clean _ (Discipline.mem_phases _ member)
    rw [sharedDiscipline_phase] at clean
    -- The story keeps the notable events only; both events in question are notable.
    have kept {event : Event gatewayCalls} (done : event ∈ thread.past)
      (told : notable event.op = true) : event ∈ thread.past.filter fun event => notable event.op :=
      List.mem_filter.mpr ⟨done, told⟩
    rcases clean with unfailed | unstored
    · exact unfailed req err (kept refused rfl)
    · refine unstored event (kept done ?_) stores
      unfold Stores at stores
      split at stores
      · simp [notable, *]
      · simp [notable, *]
      · exact stores.elim

end Runs

/-! A request that fills both stores, one that hits the cache and one that is
replayed -/

def cachedRequest : ChatRequest := { sampleRequest with temperature := some (.ofRat 0) }

def cachedPayload : Bytes :=
  utf8 "\x7b\"model\":\"m\",\"messages\":[\x7b\"role\":\"user\",\"content\":\"hi\"\x7d],\"temperature\":0\x7d"

def cachingCodec : Codec where
  marshalRequest req := if req = cachedRequest then .ok cachedPayload
    else .error (.text "json: unsupported value")
  marshalResponse := sampleCodec.marshalResponse
  unmarshalResponse := sampleCodec.unmarshalResponse
  sha256 input :=
    if input = cachedPayload then
      [182, 80, 78, 23, 12, 140, 64, 119, 126, 219, 28, 107, 189, 47, 6, 49,
        58, 216, 119, 173, 162, 143, 254, 8, 152, 82, 36, 39, 59, 157, 22, 62]
    else if input = Cache.keyInput sampleIdentity cachedPayload then
      [176, 125, 122, 170, 64, 178, 186, 173, 195, 184, 154, 154, 242, 29, 102, 201,
        119, 128, 142, 252, 98, 231, 165, 63, 185, 249, 102, 137, 42, 63, 223, 209]
    else sampleCodec.sha256 input

def cachingOptions : GatewayOptions := { sampleOptions with cache := true }

def keyedRequest : Request := ⟨cachedRequest, sampleMetadata⟩

def unkeyedRequest : Request := ⟨cachedRequest, ⟨sampleIdentity, "", "id"⟩⟩

def cachingClients (request : Request) : Prop := request = keyedRequest ∨ request = unkeyedRequest

theorem cachingCodec_marshal {req : ChatRequest} {payload : Bytes}
    (encoded : cachingCodec.marshalRequest req = .ok payload) :
    req = cachedRequest ∧ payload = cachedPayload := by
  simp only [cachingCodec] at encoded
  split at encoded
  · exact ⟨‹_›, (Except.ok.inj encoded).symm⟩
  · cases encoded

theorem cachingCodec_hashed {input : Bytes} (hashed : cachingCodec.Hashed cachingClients input) :
    input = cachedPayload ∨ input = Cache.keyInput sampleIdentity cachedPayload ∨
      input = Idempotency.scopeInput sampleIdentity "k" := by
  obtain ⟨request, asked, _, ⟨idempotencyKey, normalized, present, rfl⟩ |
    ⟨canonical, encoded, shape⟩⟩ := hashed
  · rcases asked with rfl | rfl
    · obtain rfl := Except.ok.inj normalized
      exact .inr (.inr rfl)
    · exact absurd (Except.ok.inj normalized).symm present
  · obtain ⟨_, rfl⟩ := cachingCodec_marshal encoded
    rcases asked with rfl | rfl <;> rcases shape with rfl | rfl
    · exact .inl rfl
    · exact .inr (.inl rfl)
    · exact .inl rfl
    · exact .inr (.inl rfl)

theorem cachingCodec_faithful : cachingCodec.Faithful cachingClients := by
  constructor
  · intro first second hashed hashed' same
    -- the first bytes tell the three digests apart
    have payload : (cachingCodec.sha256 cachedPayload).head? = some 182 := by decide +kernel
    have cacheKey : (cachingCodec.sha256 (Cache.keyInput sampleIdentity cachedPayload)).head? =
        some 176 := by
      decide +kernel
    have scope : (cachingCodec.sha256 (Idempotency.scopeInput sampleIdentity "k")).head? =
        some 219 := by
      decide +kernel
    have heads := congrArg List.head? same
    rcases cachingCodec_hashed hashed with rfl | rfl | rfl <;>
      rcases cachingCodec_hashed hashed' with rfl | rfl | rfl <;>
      first | rfl | (simp only [payload, cacheKey, scope] at heads; exact absurd heads (by decide))
  · intro first second payload _ _ encoded encoded'
    exact (cachingCodec_marshal encoded).1.trans (cachingCodec_marshal encoded').1.symm
  · intro req payload _ encoded
    rw [(cachingCodec_marshal encoded).2]
    decide +kernel

def cachingReplies (caller : Nat) (s : Logged) :
    (op : gatewayCalls.Op) → gatewayCalls.Reply op × Logged
  | .inl (.get key) =>
      (.ok (s.cache.Get key),
        ⟨s.cache, s.idempotency, s.history ++ [(caller, ⟨.inl (.get key), .ok (s.cache.Get key)⟩)]⟩)
  | .inl (.set key payload) =>
      (none, ⟨s.cache.Set key payload, s.idempotency,
        s.history ++ [(caller, ⟨.inl (.set key payload), none⟩)]⟩)
  | op =>
      let answer := sampleReplies s.idempotency op
      (answer.1, ⟨s.cache, answer.2, s.history ++ [(caller, ⟨op, answer.1⟩)]⟩)

theorem cachingReplies_next (caller : Nat) (s : Logged) (op : gatewayCalls.Op) :
    s.Next caller op (cachingReplies caller s op).1 (cachingReplies caller s op).2 := by
  rcases op with op | op
  · cases op <;> first
      | exact ⟨⟨rfl, rfl⟩, rfl⟩
      | exact ⟨⟨.inl ⟨rfl, rfl⟩, rfl⟩, rfl⟩
      | exact ⟨⟨rfl, .inl ⟨rfl, rfl⟩⟩, rfl⟩
  · cases op <;> exact ⟨⟨rfl, rfl⟩, rfl⟩

def cachingPool : Pool (sharedGateway cachingCodec cachingOptions cachingClients) :=
  (Pool.initial ⟨fun _ => none, fun _ => none, []⟩).play cachingReplies
    [.spawn keyedRequest, .spawn unkeyedRequest, .spawn keyedRequest, .run 0, .run 0, .run 0,
      .run 0, .run 0, .run 0, .run 0, .run 1, .run 1, .run 1, .run 2, .run 2]

theorem caching_steps : (Pool.initial ⟨fun _ => none, fun _ => none, []⟩).Steps cachingPool := by
  have run {pool : Pool (sharedGateway cachingCodec cachingOptions cachingClients)} {index : Nat} :
      pool.Legal cachingReplies (.run index) := fun op _ => cachingReplies_next index pool.shared op
  exact Pool.play_steps ⟨.inl rfl, .inr rfl, .inl rfl, run, run, run, run, run, run, run, run, run,
    run, run, run, trivial⟩

def servedFrom (thread : Thread (sharedGateway cachingCodec cachingOptions cachingClients)) :
    Option (Cache.Status × Bool) :=
  match thread.exit with
  | some (.returned (.ok result)) => some (result.cacheStatus, result.idempotencyReplayed)
  | _ => none

theorem shared_provenance_served : cachingPool.threads.map servedFrom =
      [some (.miss, false), some (.hit, false), some (.bypass, true)] ∧ Provenance cachingPool :=
  ⟨by decide +kernel, shared_provenance cachingCodec_faithful caching_steps⟩

end ModelGate.Service
