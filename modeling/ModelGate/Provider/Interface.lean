import ModelGate.Errors
import ModelGate.Provider.Types
import ModelGate.Semantics.Program

/-! The interfaces of `internal/provider` as records of programs.

A nil response or stream next to a nil error is `ok none`.
-/

set_option autoImplicit false

namespace ModelGate.Provider

open Semantics

structure Stream (T : Signature) where
  Recv : Program T (Option ChatStreamChunk × Option Err)
  Close : Program T (Option Err)
  /-- The name of a `NamedStream`. -/
  name : Option String

/-- The interface `Provider`. -/
structure ChatProvider (T : Signature) where
  Chat : ChatRequest → Program T (Except Err (Option ChatResponse))
  ChatStream : ChatRequest → Program T (Except Err (Option (Stream T)))

def StreamProviderName {T : Signature} (stream : Option (Stream T)) : String :=
  (stream.bind Stream.name).getD "unknown"

def Stream.along {S T : Signature} (e : Embedding S T) (stream : Stream S) : Stream T :=
  ⟨stream.Recv.along e, stream.Close.along e, stream.name⟩

/-- A provider of a component as one of the whole. -/
def ChatProvider.along {S T : Signature} (e : Embedding S T) (p : ChatProvider S) :
    ChatProvider T where
  Chat req := (p.Chat req).along e
  ChatStream req := do
    let result ← (p.ChatStream req).along e
    pure (result.map fun opened => opened.map (Stream.along e))

/-- The calls of a provider outside the development. It returns a response or
an error, and a stream is known by a number and the name it may carry. -/
inductive Call where
  | chat (req : ChatRequest)
  | chatStream (req : ChatRequest)
  | recv (stream : Nat)
  | close (stream : Nat)

abbrev calls : Signature where
  Op := Call
  Reply
    | .chat _ => Except Err ChatResponse
    | .chatStream _ => Except Err (Nat × Option String)
    | .recv _ => Option ChatStreamChunk × Option Err
    | .close _ => Option Err

def outside : ChatProvider calls where
  Chat req := do
    let answer : Except Err ChatResponse ← .call (S := calls) (.chat req)
    pure (answer.map some)
  ChatStream req := do
    let answer : Except Err (Nat × Option String) ← .call (S := calls) (.chatStream req)
    pure (answer.map fun (stream, name) =>
      some ⟨.call (S := calls) (.recv stream), .call (S := calls) (.close stream), name⟩)

/-- A provider upstream, which may also return nil without an error. -/
abbrev upstreamCalls : Signature where
  Op := Call
  Reply
    | .chat _ => Except Err (Option ChatResponse)
    | .chatStream _ => Except Err (Option (Nat × Option String))
    | .recv _ => Option ChatStreamChunk × Option Err
    | .close _ => Option Err

def upstreamStream (stream : Nat) (name : Option String) : Stream upstreamCalls :=
  ⟨.call (S := upstreamCalls) (.recv stream), .call (S := upstreamCalls) (.close stream), name⟩

def upstream : ChatProvider upstreamCalls where
  Chat req := .call (S := upstreamCalls) (.chat req)
  ChatStream req := do
    let answer : Except Err (Option (Nat × Option String)) ← .call (S := upstreamCalls)
      (.chatStream req)
    pure (answer.map fun opened => opened.map fun (stream, name) => upstreamStream stream name)

/-- `sync.Once.Do`: entering says whether the body still has to run. -/
def onceDo {T : Signature} (enter : Program T Bool) (leave body : Program T Unit) :
    Program T Unit := do
  if ← enter then
    body.ensuring leave

/-- Calling a method of a nil pointer or interface. -/
def nilDereference {T : Signature} {α : Type} : Program T α :=
  .abort "invalid memory address or nil pointer dereference"

/-! The calls of a client on a stream -/

inductive StreamCall where | recv | close

/-- What a call on a stream returned. -/
inductive Returned where
  | received (chunk : Option ChatStreamChunk) (err : Option Err)
  | closed (failed : Option Err)

namespace Returned

/-- `Close` and every error of `Recv` end a stream. -/
def terminal : Returned → Bool
  | .received _ err => err.isSome
  | .closed _ => true

/-- The error of `Recv` is `io.EOF`, as `errors.Is` finds it. -/
def eof : Returned → Bool
  | .received _ err => err.any (·.is .eof)
  | .closed _ => false

def usage : Returned → Option ChatUsage
  | .received chunk _ => chunk.bind ChatStreamChunk.usage
  | .closed _ => none

end Returned

/-- A stream panics in a call that ends it. -/
def terminates : Exit Returned → Bool
  | .returned returned => returned.terminal
  | .aborted _ => true

namespace Stream

variable {T : Signature} (stream : Stream T)

def invoke : StreamCall → Program T Returned
  | .recv => do
      let received ← stream.Recv
      pure (.received received.1 received.2)
  | .close => do
      let failed ← stream.Close
      pure (.closed failed)

/-- A client's calls, which go on after a panic. -/
def drive : List StreamCall → Program T (List (Exit Returned))
  | [] => pure []
  | call :: calls => do
      let exit ← (stream.invoke call).caught
      let rest ← drive calls
      pure (exit :: rest)

end Stream

end ModelGate.Provider
