import ModelGate.Api.MappedError
import ModelGate.Provider.SseStream
import ModelGate.Service.Gateway

/-! The handler of streaming requests.

What a handler does to the response is an operation; only writing the body can
fail. The headers, the status and the metadata of the request are the gin
context of the source.
-/

set_option autoImplicit false

namespace ModelGate.Api

open Data Semantics Provider

inductive Effect where
  | header (name value : String)
  | status (code : Nat)
  | writeString (text : Bytes)
  | flush
  | json (status : Nat) (errorType code message : String)

abbrev effects : Signature where
  Op := Effect
  Reply
    | .writeString _ => Option Err
    | .header _ _ | .status _ | .flush | .json _ _ _ _ => Unit

variable {S T : Signature}

def effect (op : Effect) : Program (effects.sum S) (effects.Reply op) :=
  .call (S := effects.sum S) (.inl op)

def setHeaders : List (String × String) → Program (effects.sum S) Unit
  | [] => pure ()
  | (name, value) :: rest => do
      effect (.header name value)
      setHeaders rest

def answerError (err : Err) : Program (effects.sum S) Unit := do
  let response := writeMappedError err
  setHeaders response.headers
  effect (.json response.status response.errorType response.code response.message)

def sseChunk (codec : ChunkCodec) (chunk : Option ChatStreamChunk) : Bytes :=
  utf8 "data: " ++ codec.marshal chunk ++ utf8 "\n\n"

def sseDone : Bytes := utf8 "data: [DONE]\n\n"

def writeSSEChunk (codec : ChunkCodec) (chunk : Option ChatStreamChunk) :
    Program (effects.sum S) (Option Err) := do
  let failed ← effect (.writeString (sseChunk codec chunk))
  match failed with
  | some err => pure (some (.wrap "write stream chunk" err))
  | none => do
      effect .flush
      pure none

/-- The loop over the chunks after the first, with a bound on its rounds. -/
def forward (codec : ChunkCodec) (stream : Stream S) : Nat → Program (effects.sum S) Unit
  | 0 => .abort "out of rounds"
  | rounds + 1 => do
      let received ← stream.Recv.along (.inr effects S)
      match received.2 with
      | none => do
          let failed ← writeSSEChunk codec received.1
          match failed with
          | some _ => pure ()
          | none => forward codec stream rounds
      | some err =>
          if err.is .eof then do
            -- The result of this write is discarded.
            let _ ← effect (.writeString sseDone)
            effect .flush
          else pure ()

def eventStream : List (String × String) :=
  [("Content-Type", "text/event-stream"), ("Cache-Control", "no-cache"),
    ("Connection", "keep-alive"), ("X-Accel-Buffering", "no")]

/-- Nothing is committed before the first chunk, so its error can still be answered. -/
def firstError (err : Err) : Err :=
    if err.is .eof then .text "provider stream ended before the first chunk" else err

def relay (codec : ChunkCodec) (rounds : Nat) (stream : Stream S)
    (headers : List (String × String)) :
    Program (effects.sum S) Unit := do
  setHeaders headers
  let received ← stream.Recv.along (.inr effects S)
  match received.2 with
  | some err => answerError (firstError err)
  | none => do
      setHeaders eventStream
      effect (.status 200)
      let failed ← writeSSEChunk codec received.1
      match failed with
      | some _ => pure ()
      | none => forward codec stream rounds

/-- The part of `streamChatCompletions` under the deferred `Close`. -/
def relayClosing (codec : ChunkCodec) (rounds : Nat) (stream : Stream S)
    (headers : List (String × String)) : Program (effects.sum S) Unit :=
  (relay codec rounds stream headers).ensuring do
    let _ ← stream.Close.along (.inr effects S)
    pure ()

def resultHeaders (result : Service.StreamResult T) : List (String × String) :=
  applyRateLimitHeaders result.rateLimit ++ [("X-Request-ID", result.requestID),
    ("X-ModelGate-Provider", result.provider)]

def streamChatCompletions (codec : ChunkCodec) (rounds : Nat) (gateway : Service.GatewayService T)
    (req : ChatRequest)
    (metadata : Service.RequestMetadata) : Program (effects.sum (Service.effects.sum T)) Unit := do
  let result ← (gateway.ChatStream req metadata).along (.inr effects _)
  match result with
  | .error err => answerError err
  | .ok result => relayClosing codec rounds result.stream (resultHeaders result)

end ModelGate.Api
