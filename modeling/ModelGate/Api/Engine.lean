import ModelGate.Api.Handler
import ModelGate.Cache.Policy

/-! The HTTP server of `internal/api`, with the middleware of `internal/metrics`.

A request goes through the chain of handlers that `NewRouter` registers. What the
chain reads back from the response writer and the context is an operation with a
reply. What the framework does is a parameter: its response writer and its
recovery, with the laws they are assumed to keep.
-/

set_option autoImplicit false

namespace ModelGate.Api

open Data Semantics Provider

/-! The client of a request -/

def lastIndex (c : Char) : List Char → Option Nat
  | [] => none
  | first :: rest =>
      match lastIndex c rest with
      | some index => some (index + 1)
      | none => if first = c then some 0 else none

/-- `net.SplitHostPort`, which fails alike for every malformed address. -/
def SplitHostPort (hostport : List Char) : Option (List Char × List Char) :=
  match lastIndex ':' hostport with
  | none => none
  | some colon =>
      if hostport.head? = some '[' then
        match hostport.idxOf? ']' with
        | none => none
        | some stop =>
            if stop + 1 ≠ colon then none
            else if '[' ∈ hostport.drop 1 ∨ ']' ∈ hostport.drop (stop + 1) then none
            else some ((hostport.take stop).drop 1, hostport.drop (colon + 1))
      else if ':' ∈ hostport.take colon then none
      else if '[' ∈ hostport ∨ ']' ∈ hostport then none
      else some (hostport.take colon, hostport.drop (colon + 1))

/-- The host of an address; the whole of one that does not split. -/
def hostOf (remoteAddr : String) : String :=
  match SplitHostPort remoteAddr.toList with
  | some (host, _) => String.ofList host
  | none => remoteAddr

/-- The identity `requestMetadata` gives the client of a connection. -/
def clientIdentity (remoteAddr : String) : String :=
  if trimSpace (hostOf remoteAddr) = "" then "unknown" else hostOf remoteAddr

/-! Requests and routes -/

/-- The body is what `ShouldBindJSON` makes of at most 1 MiB of it. -/
structure HttpRequest where
  method : String
  path : String
  remoteAddr : String
  idempotencyKey : String
  body : Except Err ChatRequest

/-- The routes `NewRouter` registers. -/
inductive Route where | health | chatCompletions | metrics
  deriving DecidableEq

def Route.fullPath : Route → String
  | .health => "/health"
  | .chatCompletions => "/v1/chat/completions"
  | .metrics => "/metrics"

/-! Operations -/

/-- A line of the request log, without its latency. -/
structure LogLine where
  error : Bool
  method : String
  route : String
  status : Nat
  requestID : String
  provider : String
  model : String
  deriving DecidableEq

inductive EngineEffect where
  | randRead
  | getHeader (name : String)
  | getStatus
  | getModel
  | setModel (model : String)
  | render (status : Nat) (response : ChatResponse)
  | renderHealth
  | expose
  | abortWithStatus (status : Nat)
  | observeRequest (route : String) (status : Nat)
  | log (line : LogLine)

abbrev engineEffects : Signature where
  Op := EngineEffect
  Reply
    | .randRead => Except Err (Vector UInt8 16)
    | .getHeader _ => String
    | .getStatus => Nat
    | .getModel => String
    | .setModel _ | .render _ _ | .renderHealth | .expose | .abortWithStatus _ |
        .observeRequest _ _ | .log _ => Unit

variable {T : Signature}

/-- The server over a gateway over a provider. -/
abbrev site (T : Signature) : Signature := engineEffects.sum (effects.sum (Service.effects.sum T))

def engineEffect (op : EngineEffect) : Program (site T) (engineEffects.Reply op) :=
  .call (S := site T) (.inl op)

def respond {α : Type} (program : Program (effects.sum (Service.effects.sum T)) α) :
    Program (site T) α :=
  program.along (.inr engineEffects _)

def writeError (status : Nat) (errorType code message : String) : Program (site T) Unit :=
  respond (effect (.json status errorType code message))

/-! Handlers -/

def requestMetadata (request : HttpRequest) : Program (site T) Service.RequestMetadata := do
  let requestID ← engineEffect (.getHeader "X-Request-ID")
  pure ⟨utf8 (clientIdentity request.remoteAddr), request.idempotencyKey, requestID⟩

def applyResultHeaders (result : Service.ChatResult) : List (String × String) :=
  [("X-Request-ID", result.requestID), ("X-ModelGate-Cache", result.cacheStatus.text),
    ("X-ModelGate-Provider", result.provider)] ++
    (if result.idempotencyReplayed then [("Idempotency-Replayed", "true")] else []) ++
    applyRateLimitHeaders result.rateLimit

structure Handler (T : Signature) where
  codec : ChunkCodec
  rounds : Nat
  gateway : Service.GatewayService T

namespace Handler

def Health (_ : Handler T) : Program (site T) Unit := engineEffect .renderHealth

/-- The answer to a request that does not stream. -/
def answer : Except Err Service.ChatResult → Program (site T) Unit
  | .ok result => do
      respond (setHeaders (applyResultHeaders result))
      engineEffect (.render 200 result.response)
  | .error err => respond (answerError err)

def ChatCompletions (h : Handler T) (request : HttpRequest) : Program (site T) Unit :=
  match request.body with
  | .error _ =>
      writeError 400 "invalid_request_error" "invalid_json"
        "request body must be valid JSON and no larger than 1 MiB"
  | .ok req => do
      engineEffect (.setModel req.model)
      let metadata ← requestMetadata request
      if req.stream then respond (streamChatCompletions h.codec h.rounds h.gateway req metadata)
      else do
        let result ← respond ((h.gateway.Chat req metadata).along (.inr effects _))
        answer result

def handle (h : Handler T) (request : HttpRequest) : Route → Program (site T) Unit
  | .health => h.Health
  | .chatCompletions => h.ChatCompletions request
  | .metrics => engineEffect .expose

end Handler

/-! Middleware -/

def RequestIDMiddleware (next : Program (site T) Unit) : Program (site T) Unit := do
  let read ← engineEffect .randRead
  match Service.NewRequestID read with
  | .error _ =>
      writeError 503 "service_unavailable_error" "request_id_unavailable"
        "request identifier generation is unavailable"
  | .ok requestID => do
      respond (setHeaders [("X-Request-ID", requestID)])
      next

/-- A request for the metrics is neither counted nor logged. -/
def HTTPMiddleware (request : HttpRequest) (fullPath : String) (next : Program (site T) Unit) :
    Program (site T) Unit := do
  next
  if request.path = "/metrics" then pure ()
  else do
    let route := if fullPath = "" then "unmatched" else fullPath
    let status ← engineEffect .getStatus
    engineEffect (.observeRequest route status)
    let requestID ← engineEffect (.getHeader "X-Request-ID")
    let provider ← engineEffect (.getHeader "X-ModelGate-Provider")
    let model ← engineEffect .getModel
    engineEffect (.log ⟨decide (500 ≤ status), request.method, route, status, requestID,
      provider, model⟩)

/-! The framework -/

/-- The parts of gin behind a request: the response writer of its context, and `gin.Recovery`. -/
structure Gin (T : Signature) where
  Writer : Type
  header : Writer → String → String
  status : Writer → Nat
  /-- The status and the headers of a response that is begun. -/
  sent : Writer → Option (Nat × (String → String))
  write : Writer → EngineEffect ⊕ Effect → Writer
  /-- What follows the handlers. -/
  finish : Writer → Writer
  Recovery : Program (site T) Unit → Program (site T) Unit

/-- The header fields that handlers set besides the identifier. -/
def otherFields : List String :=
  ["Content-Type", "Cache-Control", "Connection", "X-Accel-Buffering", "X-ModelGate-Cache",
    "X-ModelGate-Provider", "Idempotency-Replayed", "X-RateLimit-Limit", "X-RateLimit-Remaining",
    "Retry-After"]

/-- What is assumed of gin. -/
structure Gin.Lawful (gin : Gin T) : Prop where
  set : ∀ w value, gin.header (gin.write w (.inr (.header "X-Request-ID" value))) "X-Request-ID" =
    value
  other : ∀ w value, ∀ name ∈ otherFields, gin.header (gin.write w (.inr (.header name value)))
    "X-Request-ID" = gin.header w "X-Request-ID"
  /-- The fields that gin sets itself are others. -/
  keeps : ∀ w op, (∀ name value, op ≠ .inr (.header name value)) →
    gin.header (gin.write w op) "X-Request-ID" = gin.header w "X-Request-ID"
  /-- A response is begun with the status and the headers that are set. -/
  begins : ∀ w op, gin.sent w = none →
    ∀ status headers, gin.sent (gin.write w op) = some (status, headers) →
    status = gin.status (gin.write w op) ∧ headers = gin.header (gin.write w op)
  /-- One that is begun stays, and so does the status that is read back. -/
  stays : ∀ w op begun, gin.sent w = some begun → gin.sent (gin.write w op) = some begun ∧
    gin.status (gin.write w op) = gin.status w
  json : ∀ w status errorType code message, gin.sent w = none →
    ∃ headers, gin.sent (gin.write w (.inr (.json status errorType code message))) =
      some (status, headers)
  /-- After the handlers, a response that is not begun is. -/
  finishes : ∀ w, gin.sent w = none →
    ∃ headers, gin.sent (gin.finish w) = some (gin.status w, headers) ∧
    headers "X-Request-ID" = gin.header w "X-Request-ID"
  finished : ∀ w begun, gin.sent w = some begun → gin.sent (gin.finish w) = some begun
  /-- A panic ends in status 500, or in nothing when the connection is broken. -/
  recovers : ∀ next trace exit, (gin.Recovery next).Runs trace exit → exit = .returned () ∧
    (next.Runs trace (.returned ()) ∨ ∃ early reason, next.Runs early (.aborted reason) ∧
      (trace = early ∨ trace = early ++ [⟨.inl (.abortWithStatus 500), ()⟩]))

/-- The chain of handlers of a request: `NewRouter` puts the middleware in front of every
route, and of none. -/
def NewRouter (gin : Gin T) (h : Handler T) (metrics : Bool) (request : HttpRequest)
    (matched : Option Route) : Program (site T) Unit :=
  let next := gin.Recovery (matched.elim (pure ()) (h.handle request))
  RequestIDMiddleware (if metrics then HTTPMiddleware request (matched.elim "" Route.fullPath) next
    else next)

end ModelGate.Api
