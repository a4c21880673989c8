import ModelGate.Cache.Policy
import ModelGate.Idempotency.Redis
import ModelGate.Provider.Interface
import ModelGate.Service.Chat

/-! The gateway service of `internal/service`.

What the service calls outside itself is an operation: the limiter, the two
stores, the recorder, the observer and the fields of a `meteredStream`. The
provider is a record of programs over its own operations. Contexts and the
latency of a record are not modelled, apart from the calls of `cancel`. An
observer may panic at the tokens it is handed, and nothing here recovers.
-/

set_option autoImplicit false

namespace ModelGate.Service

open Data Semantics Provider

inductive RecordStatus where | succeeded | failed | rateLimited | idempotencyReplay | cacheHit |
    rejected deriving DecidableEq, Repr

/-- `storage.RequestRecord` without its times. -/
structure RequestRecord where
  requestID : String
  provider : String
  model : String
  status : RecordStatus
  usage : ChatUsage := .zero
  cacheStatus : Cache.Status
  errorCode : String := ""
  deriving DecidableEq

inductive Effect where
  | randRead
  | allow (identity : Bytes)
  | begin (key fingerprint : String)
  | complete (key fingerprint : String) (response : Bytes)
  | release (key fingerprint : String)
  | get (key : String)
  | set (key : String) (response : Bytes)
  | record (record : RequestRecord)
  | errorSink (err : Err)
  | observeRateLimited
  | observeCacheHit
  | observeTokens (provider : String) (usage : ChatUsage)
  | cancel
  | newStream
  | loadUsage (stream : Nat)
  | storeUsage (stream : Nat) (usage : ChatUsage)
  | enterOnce (stream : Nat)
  | leaveOnce (stream : Nat)

/-- Sixteen random bytes, or the error of the reader; the panic of the observer, if
there is one. -/
abbrev effects : Signature where
  Op := Effect
  Reply
    | .randRead => Except Err (Vector UInt8 16)
    | .allow _ => Except Err RateLimit.Decision
    | .begin _ _ => Except Err Idempotency.Result
    | .complete _ _ _ => Option Err
    | .release _ _ => Option Err
    | .get _ => Except Err (Option Bytes)
    | .set _ _ => Option Err
    | .record _ => Option Err
    | .newStream => Nat
    | .loadUsage _ => ChatUsage
    | .enterOnce _ => Bool
    | .observeTokens _ _ => Option String
    | .errorSink _ | .observeRateLimited | .observeCacheHit | .cancel | .storeUsage _ _ |
        .leaveOnce _ => Unit

/-- `encoding/json` and `crypto/sha256` on the values in use. Encoding a
response cannot fail: its fields are strings and integers. -/
structure Codec where
  marshalRequest : ChatRequest → Except Err Bytes
  marshalResponse : ChatResponse → Bytes
  unmarshalResponse : Bytes → Except Err ChatResponse
  sha256 : Bytes → Bytes

/-- Which optional parts are configured. -/
structure GatewayOptions where
  limiter : Bool
  rateLimitFailOpen : Bool
  idempotency : Bool
  cache : Bool
  recorder : Bool
  providerName : String

structure GatewayService (T : Signature) where
  codec : Codec
  chat : ChatProvider T
  options : GatewayOptions

def NewGatewayService {T : Signature} (codec : Codec) (chat : ChatProvider T)
    (options : GatewayOptions) : GatewayService T :=
  ⟨codec, chat, { options with
    providerName := if options.providerName = "" then "unknown" else options.providerName }⟩

structure RequestMetadata where
  clientIdentity : Bytes
  idempotencyKey : String
  requestID : String

structure Request where
  req : ChatRequest
  metadata : RequestMetadata

structure ChatResult where
  response : ChatResponse
  requestID : String
  provider : String
  cacheStatus : Cache.Status
  idempotencyReplayed : Bool
  rateLimit : RateLimit.Decision
  deriving DecidableEq

structure StreamResult (T : Signature) where
  stream : Stream (effects.sum T)
  requestID : String
  provider : String
  rateLimit : RateLimit.Decision

def statusForGatewayError (err : Err) : RecordStatus :=
  if err.asRateLimit.isSome then .rateLimited else .failed

def gatewayErrorCode (err : Err) : String :=
  match err.asValidation with
  | some (code, _) => code
  | none =>
  match err.asIdempotency with
  | some code => code
  | none =>
  match err.asDependency with
  | some code => code
  | none =>
  match err.asRateLimit with
  | some _ => "rate_limit_exceeded"
  | none =>
  match err.asUpstream with
  | some _ => ErrorCode err
  | none =>
      if err.is (.context .canceled) then "request_canceled"
      else if err.is (.context .deadlineExceeded) then "upstream_timeout"
      else "provider_request_failed"

def providerNameFromError (err : Err) (fallback : String) : String :=
  match err.asUpstream with
  | some info => if info.provider ≠ "" then info.provider else fallback
  | none => fallback

def requestFingerprint (codec : Codec) (req : ChatRequest) : Except Err String :=
  match codec.marshalRequest req with
  | .error err => .error (.wrap "encode request fingerprint" err)
  | .ok payload => .ok (hexEncode (codec.sha256 payload))

/-- The version and variant bits of a random identifier, and its five groups. -/
def formatRequestID (value : Vector UInt8 16) : String :=
  let value := value.set 6 ((value[6] &&& 0x0f) ||| 0x40)
  let value := value.set 8 ((value[8] &&& 0x3f) ||| 0x80)
  let group (start stop : Nat) : String := hexEncode (value.toList.extract start stop)
  group 0 4 ++ "-" ++ group 4 6 ++ "-" ++ group 6 8 ++ "-" ++ group 8 10 ++ "-" ++ group 10 16

def NewRequestID (read : Except Err (Vector UInt8 16)) : Except Err String :=
  match read with
  | .error err => .error (.wrap "generate request id" err)
  | .ok value => .ok (formatRequestID value)

variable {T : Signature}

/-! `ChatService` -/

def ChatService.Chat (chat : ChatProvider T) (req : ChatRequest) :
    Program T (Except Err (Option ChatResponse)) :=
  match ValidateChatRequest (some req) with
  | some err => pure (.error err)
  | none =>
      if req.stream then
        pure (.error (invalid "invalid_stream_mode" "streaming requests must use ChatStream"))
      else chat.Chat req

def ChatService.ChatStream (chat : ChatProvider T) (req : ChatRequest) :
    Program T (Except Err (Option (Stream T))) :=
  match ValidateChatRequest (some req) with
  | some err => pure (.error err)
  | none =>
      if !req.stream then
        pure (.error (invalid "invalid_stream_mode" "stream must be true for ChatStream"))
      else chat.ChatStream req

namespace GatewayService

def effect (op : Effect) : Program (effects.sum T) (effects.Reply op) :=
  .call (S := effects.sum T) (.inl op)

/-- An error of a best-effort operation goes to the sink. -/
def sink (failed : Option Err) : Program (effects.sum T) Unit :=
  match failed with
  | none => pure ()
  | some err => effect (.errorSink err)

def observeTokens (providerName : String) (usage : ChatUsage) : Program (effects.sum T) Unit := do
  match ← effect (.observeTokens providerName usage) with
  | none => pure ()
  | some reason => .abort reason

variable (g : GatewayService T)

def record (record : RequestRecord) : Program (effects.sum T) Unit :=
  if g.options.recorder then do
    let failed ← effect (.record record)
    sink (failed.map (.wrap "record request usage"))
  else pure ()

def requestID (metadata : RequestMetadata) : Program (effects.sum T) (Except Err String) :=
  if trimSpace metadata.requestID = "" then do
    let read ← effect .randRead
    pure ((NewRequestID read).mapError fun err => .dependency "request_id_unavailable" (some err))
  else pure (.ok (trimSpace metadata.requestID))

def unlimited : RateLimit.Decision := ⟨true, 0, 0, 0⟩

/-- What the limiter replied. -/
def limited : Except Err RateLimit.Decision →
    Program (effects.sum T) (Except Err RateLimit.Decision)
  | .error err => do
      effect (.errorSink err)
      if g.options.rateLimitFailOpen then pure (.ok unlimited)
      else pure (.error (.dependency "rate_limiter_unavailable" (some err)))
  | .ok decision =>
      if !decision.allowed then do
        effect .observeRateLimited
        pure (.error (.rateLimit decision))
      else pure (.ok decision)

def enforceRateLimit (identity : Bytes) : Program (effects.sum T) (Except Err RateLimit.Decision) :=
  if !g.options.limiter then pure (.ok unlimited)
  else do
    let answer ← effect (.allow identity)
    g.limited answer

/-- The local variables of `Chat` once the limiter has let it through. -/
structure Admitted where
  req : ChatRequest
  identity : Bytes
  idempotencyKey : String
  requestID : String
  rateDecision : RateLimit.Decision

/-- The scoped key and the fingerprint of an acquired reservation. -/
structure Reservation where
  key : String
  fingerprint : String
  deriving DecidableEq

def completeIdempotency (payload : Bytes) : Option Reservation → Program (effects.sum T) Unit
  | none => pure ()
  | some reservation => do
      let failed ← effect (.complete reservation.key reservation.fingerprint payload)
      sink failed

def releaseIdempotency : Option Reservation → Program (effects.sum T) Unit
  | none => pure ()
  | some reservation => do
      let failed ← effect (.release reservation.key reservation.fingerprint)
      sink failed

def recordRejected (a : Admitted) (err : Err) : Program (effects.sum T) Unit :=
  g.record {
    requestID := a.requestID, provider := g.options.providerName, model := a.req.model
    status := .rejected, cacheStatus := .bypass, errorCode := gatewayErrorCode err }

def cacheResponse (payload : Bytes) : Option String → Program (effects.sum T) Unit
  | none => pure ()
  | some key => do
      let failed ← effect (.set key payload)
      sink failed

def succeed (a : Admitted) (reservation : Option Reservation) (cacheKey : Option String)
    (response : ChatResponse) :
    Program (effects.sum T) (Except Err ChatResult) := do
  let selectedProvider := if response.provider = "" then g.options.providerName
    else response.provider
  let cacheStatus := if cacheKey.isSome then Cache.Status.miss else .bypass
  let payload := g.codec.marshalResponse response
  cacheResponse payload cacheKey
  completeIdempotency payload reservation
  g.record {
    requestID := a.requestID, provider := selectedProvider, model := a.req.model
    status := .succeeded, usage := response.usage, cacheStatus }
  observeTokens selectedProvider response.usage
  pure (.ok ⟨response, a.requestID, selectedProvider, cacheStatus, false, a.rateDecision⟩)

def fail (a : Admitted) (reservation : Option Reservation) (cacheKey : Option String) (err : Err) :
    Program (effects.sum T) (Except Err ChatResult) := do
  releaseIdempotency reservation
  g.record {
    requestID := a.requestID, provider := providerNameFromError err g.options.providerName
    model := a.req.model, status := .failed
    cacheStatus := if cacheKey.isSome then .miss else .bypass, errorCode := gatewayErrorCode err }
  pure (.error err)

/-- What follows the call of the provider. A response is dereferenced at once. -/
def settle (a : Admitted) (reservation : Option Reservation) (cacheKey : Option String) :
    Except Err (Option ChatResponse) → Program (effects.sum T) (Except Err ChatResult)
  | .error err => g.fail a reservation cacheKey err
  | .ok none => nilDereference
  | .ok (some response) => g.succeed a reservation cacheKey response

/-- A cache key is present when the cache is in use. -/
def execute (a : Admitted) (reservation : Option Reservation) (cacheKey : Option String) :
    Program (effects.sum T) (Except Err ChatResult) := do
  let answer ← (ChatService.Chat g.chat a.req).along (.inr effects T)
  g.settle a reservation cacheKey answer

def hit (a : Admitted) (reservation : Option Reservation) (payload : Bytes)
    (cached : ChatResponse) :
    Program (effects.sum T) (Except Err ChatResult) := do
  effect .observeCacheHit
  completeIdempotency payload reservation
  g.record {
    requestID := a.requestID, provider := "cache", model := a.req.model
    status := .cacheHit, cacheStatus := .hit }
  pure (.ok ⟨cached, a.requestID, "cache", .hit, false, a.rateDecision⟩)

/-- What the cache replied. An error and an entry that does not decode are
reported and treated as a miss. -/
def consult (a : Admitted) (reservation : Option Reservation) (key : String) :
    Except Err (Option Bytes) → Program (effects.sum T) (Except Err ChatResult)
  | .error err => do
      effect (.errorSink err)
      g.execute a reservation (some key)
  | .ok none => g.execute a reservation (some key)
  | .ok (some payload) =>
      match g.codec.unmarshalResponse payload with
      | .error err => do
          effect (.errorSink (.wrap "decode cached response" err))
          g.execute a reservation (some key)
      | .ok cached => g.hit a reservation payload cached

def lookup (a : Admitted) (reservation : Option Reservation) :
    Program (effects.sum T) (Except Err ChatResult) :=
  match Cache.Key g.codec.sha256 g.codec.marshalRequest a.identity a.req with
  | .error err => do
      releaseIdempotency reservation
      pure (.error (.dependency "cache_fingerprint_failed" (some err)))
  | .ok none => g.execute a reservation none
  | .ok (some key) =>
      if !g.options.cache then g.execute a reservation none
      else do
        let found ← effect (.get key)
        g.consult a reservation key found

def replay (a : Admitted) (payload : Bytes) : Program (effects.sum T) (Except Err ChatResult) :=
  match g.codec.unmarshalResponse payload with
  | .error err => pure (.error (.dependency "idempotency_result_corrupt" (some err)))
  | .ok replay => do
      g.record {
        requestID := a.requestID, provider := "idempotency", model := a.req.model
        status := .idempotencyReplay, cacheStatus := .bypass }
      pure (.ok ⟨replay, a.requestID, "idempotency", .bypass, true, a.rateDecision⟩)

def reject (a : Admitted) (err : Err) : Program (effects.sum T) (Except Err ChatResult) := do
  g.recordRejected a err
  pure (.error err)

/-- What `Begin` replied. -/
def begun (a : Admitted) (key fingerprint : String) :
    Except Err Idempotency.Result → Program (effects.sum T) (Except Err ChatResult)
  | .error err => pure (.error (.dependency "idempotency_unavailable" (some err)))
  | .ok .acquired => g.lookup a (some ⟨key, fingerprint⟩)
  | .ok .pending => g.reject a (.idempotency "idempotency_request_in_progress")
  | .ok .conflict => g.reject a (.idempotency "idempotency_key_conflict")
  | .ok (.completed response) => g.replay a response

/-- The reservation in front of the cache, for a request with a key. -/
def reserve (a : Admitted) : Program (effects.sum T) (Except Err ChatResult) :=
  if a.idempotencyKey = "" then g.lookup a none
  else if !g.options.idempotency then pure (.error (.dependency "idempotency_unavailable" none))
  else
    match requestFingerprint g.codec a.req with
    | .error err => pure (.error (.dependency "request_fingerprint_failed" (some err)))
    | .ok fingerprint => do
        let key := Idempotency.ScopedKey g.codec.sha256 a.identity a.idempotencyKey
        let result ← effect (.begin key fingerprint)
        g.begun a key fingerprint result

/-- What follows the limiter. -/
def admitted (req : ChatRequest) (identity : Bytes) (idempotencyKey requestID : String) :
    Except Err RateLimit.Decision → Program (effects.sum T) (Except Err ChatResult)
  | .error err => do
      g.record {
        requestID, provider := g.options.providerName, model := req.model
        status := statusForGatewayError err, cacheStatus := .bypass, errorCode :=
        gatewayErrorCode err }
      pure (.error err)
  | .ok rateDecision => g.reserve ⟨req, identity, idempotencyKey, requestID, rateDecision⟩

/-- What follows the request identifier. -/
def identified (req : ChatRequest) (identity : Bytes) (idempotencyKey : String) :
    Except Err String → Program (effects.sum T) (Except Err ChatResult)
  | .error err => pure (.error err)
  | .ok requestID => do
      let decision ← g.enforceRateLimit identity
      g.admitted req identity idempotencyKey requestID decision

def serve (req : ChatRequest) (metadata : RequestMetadata) :
    Program (effects.sum T) (Except Err ChatResult) :=
  match ValidateChatRequest (some req) with
  | some err => pure (.error err)
  | none =>
      if req.stream then
        pure (.error (invalid "invalid_stream_mode" "streaming requests must use ChatStream"))
      else
        match normalizeIdempotencyKey metadata.idempotencyKey with
        | .error err => pure (.error err)
        | .ok idempotencyKey => do
            let id ← requestID metadata
            g.identified req metadata.clientIdentity idempotencyKey id

def Chat (req : ChatRequest) (metadata : RequestMetadata) :
    Program (effects.sum T) (Except Err ChatResult) :=
  (g.serve req metadata).ensuring (effect .cancel)

/-! Streaming requests and the stream they return -/

/-- The fields of a `meteredStream` that never change. The rest are cells
under the number of the stream. -/
structure Metered (T : Signature) where
  inner : Option (Stream T)
  stream : Nat
  requestID : String
  provider : String
  model : String

def Metered.record (m : Metered T) (status : RecordStatus) (errorCode : String)
    (usage : ChatUsage) : RequestRecord :=
  { requestID := m.requestID, provider := m.provider, model := m.model, status, usage,
    cacheStatus := .bypass, errorCode }

/-- The `finish` closure of a `meteredStream`. -/
def finish (m : Metered T) (status : RecordStatus) (errorCode : String) (usage : ChatUsage) :
    Program (effects.sum T) Unit := do
  g.record (m.record status errorCode usage)
  observeTokens m.provider usage

def finishOnce (m : Metered T) (status : RecordStatus) (errorCode : String) :
    Program (effects.sum T) Unit :=
  onceDo (effect (.enterOnce m.stream)) (effect (.leaveOnce m.stream)) do
    effect .cancel
    let usage ← effect (.loadUsage m.stream)
    g.finish m status errorCode usage

/-- The last usage a chunk carried is the one that counts. -/
def noteUsage (m : Metered T) (chunk : Option ChatStreamChunk) : Program (effects.sum T) Unit :=
  match chunk.bind ChatStreamChunk.usage with
  | none => pure ()
  | some usage => effect (.storeUsage m.stream usage)

/-- What a received error means for the record. -/
def noteEnd (m : Metered T) : Option Err → Program (effects.sum T) Unit
  | none => pure ()
  | some err =>
      if err.is .eof then g.finishOnce m .succeeded ""
      else g.finishOnce m .failed (gatewayErrorCode err)

def Recv (m : Metered T) : Program (effects.sum T) (Option ChatStreamChunk × Option Err) :=
  match m.inner with
  | none => nilDereference
  | some inner => do
      let received ← inner.Recv.along (.inr effects T)
      noteUsage m received.1
      g.noteEnd m received.2
      pure received

def Close (m : Metered T) : Program (effects.sum T) (Option Err) :=
  match m.inner with
  | none => nilDereference
  | some inner => do
      let failed ← inner.Close.along (.inr effects T)
      g.finishOnce m .failed (if failed.isSome then "stream_close_failed" else "stream_closed")
      pure failed

def metered (m : Metered T) : Stream (effects.sum T) := ⟨g.Recv m, g.Close m, none⟩

/-- What follows the provider's answer to a streaming request. -/
def opened (req : ChatRequest) (requestID : String) (rateDecision : RateLimit.Decision) :
    Except Err (Option (Stream T)) → Program (effects.sum T) (Except Err (StreamResult T))
  | .error err => do
      g.record {
        requestID, provider := providerNameFromError err g.options.providerName, model := req.model
        status := .failed, cacheStatus := .bypass, errorCode := gatewayErrorCode err }
      effect .cancel
      pure (.error err)
  | .ok stream => do
      let name := StreamProviderName stream
      let selectedProvider := if name = "unknown" then g.options.providerName else name
      let cell ← effect .newStream
      pure (.ok ⟨g.metered ⟨stream, cell, requestID, selectedProvider, req.model⟩, requestID,
        selectedProvider, rateDecision⟩)

def admittedStream (req : ChatRequest) (requestID : String) :
    Except Err RateLimit.Decision → Program (effects.sum T) (Except Err (StreamResult T))
  | .error err => do
      g.record {
        requestID, provider := g.options.providerName, model := req.model
        status := statusForGatewayError err, cacheStatus := .bypass, errorCode :=
        gatewayErrorCode err }
      effect .cancel
      pure (.error err)
  | .ok rateDecision => do
      let answer ← (ChatService.ChatStream g.chat req).along (.inr effects T)
      g.opened req requestID rateDecision answer

def identifiedStream (req : ChatRequest) (identity : Bytes) :
    Except Err String → Program (effects.sum T) (Except Err (StreamResult T))
  | .error err => do
      effect .cancel
      pure (.error err)
  | .ok requestID => do
      let decision ← g.enforceRateLimit identity
      g.admittedStream req requestID decision

def refuseStream (err : Err) : Program (effects.sum T) (Except Err (StreamResult T)) := do
  effect .cancel
  pure (.error err)

def ChatStream (req : ChatRequest) (metadata : RequestMetadata) :
    Program (effects.sum T) (Except Err (StreamResult T)) :=
  match ValidateChatRequest (some req) with
  | some err => refuseStream err
  | none =>
      if !req.stream then
        refuseStream (invalid "invalid_stream_mode" "stream must be true for ChatStream")
      else if trimSpace metadata.idempotencyKey ≠ "" then
        refuseStream (invalid "idempotency_not_supported_for_stream"
          "Idempotency-Key is only supported for non-streaming requests")
      else do
        let id ← requestID metadata
        g.identifiedStream req metadata.clientIdentity id

end GatewayService

/-- The operations of the gateway over a provider outside. -/
abbrev gatewayCalls : Signature := effects.sum calls

/-! Rules for the programs above under any protocol -/

/-- The effects on nothing the gateway keeps. -/
def Effect.Incidental : Effect → Prop
  | .randRead | .allow _ | .errorSink _ | .observeRateLimited | .observeCacheHit |
      .observeTokens _ _ | .cancel => True
  | _ => False

/-- Of these nothing is counted either. -/
def Effect.Aside : Effect → Prop
  | .randRead | .allow _ | .errorSink _ | .observeRateLimited => True
  | _ => False

theorem Effect.Aside.incidental {op : Effect} (aside : op.Aside) : op.Incidental := by
  cases op <;> trivial

section Rules

open GatewayService

variable {Phase α : Type} {P : Protocol (effects.sum T) Phase} {post : Exit α → Phase → Prop}
  {phase : Phase}

theorem obeys_effect {op : Effect} (ignored : P.Ignores phase (.inl op))
    {next : effects.Reply op → Program (effects.sum T) α}
    (rest : ∀ reply, Obeys P post (next reply) phase) : Obeys P post (effect op >>= next) phase :=
  obeys_ignored (S := effects.sum T) ignored fun reply _ => rest reply

/-- The observer may end the program where it stands. -/
theorem obeys_observing {providerName : String} {usage : ChatUsage}
    (kept : P.Ignores phase (.inl (.observeTokens providerName usage)))
    {next : Unit → Program (effects.sum T) α} (panics : ∀ reason, post (.aborted reason) phase)
    (rest : Obeys P post (next ()) phase) :
    Obeys P post (observeTokens providerName usage >>= next) phase := by
  rw [observeTokens, Program.bind_assoc]
  refine obeys_effect kept fun panicked => ?_
  cases panicked with
  | none => exact rest
  | some reason => exact obeys_abort.mpr (panics reason)

variable (ignores : ∀ op : Effect, op.Aside → P.Ignores phase (.inl op))
include ignores

theorem obeys_sink (failed : Option Err) {next : Unit → Program (effects.sum T) α}
    (rest : Obeys P post (next ()) phase) : Obeys P post (sink failed >>= next) phase := by
  cases failed with
  | none => exact rest
  | some err => exact obeys_effect (ignores (.errorSink err) trivial) fun _ => rest

theorem obeys_requestID (metadata : RequestMetadata)
    {next : Except Err String → Program (effects.sum T) α}
    (rest : ∀ id, Obeys P post (next id) phase) :
    Obeys P post (requestID metadata >>= next) phase := by
  unfold requestID
  split
  · rw [Program.bind_assoc]
    exact obeys_effect (ignores .randRead trivial) fun read => rest _
  · exact rest _

theorem obeys_enforceRateLimit (g : GatewayService T) (identity : Bytes)
    {next : Except Err RateLimit.Decision → Program (effects.sum T) α}
    (rest : ∀ decision, Obeys P post (next decision) phase) :
    Obeys P post (g.enforceRateLimit identity >>= next) phase := by
  unfold enforceRateLimit
  split
  · exact rest _
  · rw [Program.bind_assoc]
    refine obeys_effect (ignores (.allow identity) trivial) fun answer => ?_
    match answer with
    | .error err =>
        refine obeys_effect (ignores (.errorSink err) trivial) fun _ => ?_
        dsimp only
        split <;> exact rest _
    | .ok decision =>
        simp only [limited]
        split
        · exact obeys_effect (ignores .observeRateLimited trivial) fun _ => rest _
        · exact rest _

/-- Recording a request is no concern of a protocol that ignores records. -/
theorem obeys_recording (g : GatewayService T) (record : RequestRecord)
    (kept : P.Ignores phase (.inl (.record record))) {next : Unit → Program (effects.sum T) α}
    (rest : Obeys P post (next ()) phase) : Obeys P post (g.record record >>= next) phase := by
  unfold GatewayService.record
  split
  · rw [Program.bind_assoc]
    exact obeys_ignored (S := effects.sum T) kept fun failed _ => obeys_sink ignores _ rest
  · exact rest

/-! The stores, for a protocol that ignores them -/

theorem obeys_caching {payload : Bytes} (kept : ∀ key, P.Ignores phase (.inl (.set key payload)))
    (cacheKey : Option String) {next : Unit → Program (effects.sum T) α}
    (rest : Obeys P post (next ()) phase) :
    Obeys P post (cacheResponse payload cacheKey >>= next) phase := by
  cases cacheKey with
  | none => exact rest
  | some key =>
      rw [cacheResponse, Program.bind_assoc]
      exact obeys_effect (kept key) fun failed => obeys_sink ignores failed rest

theorem obeys_completing {payload : Bytes}
    (kept : ∀ key fingerprint, P.Ignores phase (.inl (.complete key fingerprint payload)))
    (reservation : Option Reservation) {next : Unit → Program (effects.sum T) α}
    (rest : Obeys P post (next ()) phase) :
    Obeys P post (completeIdempotency payload reservation >>= next) phase := by
  cases reservation with
  | none => exact rest
  | some reservation =>
      rw [completeIdempotency, Program.bind_assoc]
      exact obeys_effect (kept _ _) fun failed => obeys_sink ignores failed rest

theorem obeys_releasing
    (kept : ∀ key fingerprint, P.Ignores phase (.inl (.release key fingerprint)))
    (reservation : Option Reservation) {next : Unit → Program (effects.sum T) α}
    (rest : Obeys P post (next ()) phase) :
    Obeys P post (releaseIdempotency reservation >>= next) phase := by
  cases reservation with
  | none => exact rest
  | some reservation =>
      rw [releaseIdempotency, Program.bind_assoc]
      exact obeys_effect (kept _ _) fun failed => obeys_sink ignores failed rest

end Rules

end ModelGate.Service
