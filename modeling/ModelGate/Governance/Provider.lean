import ModelGate.CircuitBreaker.Breaker
import ModelGate.Data.Text
import ModelGate.Provider.Interface
import ModelGate.Retry.Policy

/-! The governed provider of `internal/governance`.

A semaphore permit, a breaker permit and the `sync.Once` of a managed stream
are known by numbers. A refused `Allow` is no permit.
-/

set_option autoImplicit false

namespace ModelGate.Governance

open Data Semantics ModelGate.Provider

inductive Effect where
  | retry (op : Retry.Effect)
  | acquire
  | release (permit : Nat)
  | allow
  | done (permit : Nat) (outcome : CircuitBreaker.Outcome)
  | available
  | newStream (circuit concurrency : Nat) (cancel : Option Nat)
  | enterOnce (stream : Nat)
  | leaveOnce (stream : Nat)

/-- `Acquire` fails with the error of its context only. -/
abbrev effects : Signature where
  Op := Effect
  Reply
    | .retry op => Retry.effects.Reply op
    | .acquire => Except ContextError Nat
    | .allow => Option Nat
    | .available => Bool
    | .newStream _ _ _ => Nat
    | .enterOnce _ => Bool
    | .release _ | .done _ _ | .leaveOnce _ => Unit

variable {T : Signature}

/-- The operations of the retry policy among those of a governed provider. -/
def retrying (T : Signature) : Embedding (Retry.effects.sum T) (effects.sum T) where
  op
    | .inl op => .inl (.retry op)
    | .inr op => .inr op
  reply
    | .inl _ => .refl _
    | .inr _ => .refl _

def effect (op : Effect) : Program (effects.sum T) (effects.Reply op) :=
  .call (S := effects.sum T) (.inl op)

structure Provider (T : Signature) where
  name : String
  inner : ModelGate.Provider.ChatProvider T
  retry : Retry.Policy

def NewProvider (name : String) (inner : ModelGate.Provider.ChatProvider T)
    (retryPolicy : Retry.Policy) : Except String (Provider T) :=
  if trimSpace name = "" then .error "provider name is required"
  else .ok ⟨trimSpace name, inner, retryPolicy⟩

def circuitOutcome (err : Option Err) : CircuitBreaker.Outcome :=
  match err with
  | none => .success
  | some err => if IsCircuitFailure err then .failure else .ignored

/-- The fields of a `managedStream`, with the number of its `once`. -/
structure Managed (T : Signature) where
  providerName : String
  inner : Option (Stream T)
  circuit : Nat
  concurrency : Nat
  cancel : Option Nat
  once : Nat

namespace Managed

variable (m : Managed T)

/-- Calling a nil `CancelFunc` panics. -/
def callCancel : Program (effects.sum T) Unit :=
  match m.cancel with
  | none => nilDereference
  | some cancel => effect (.retry (.cancel cancel))

def finish (outcome : CircuitBreaker.Outcome) : Program (effects.sum T) Unit :=
  onceDo (effect (.enterOnce m.once)) (effect (.leaveOnce m.once)) do
    m.callCancel
    effect (.done m.circuit outcome)
    effect (.release m.concurrency)

/-- What the error of a received chunk means for the breaker, if it ends the stream. -/
def receivedOutcome (err : Option Err) : Option CircuitBreaker.Outcome :=
  err.map fun err => if err.is .eof then .success else circuitOutcome (some err)

def noteEnd (err : Option Err) : Program (effects.sum T) Unit :=
  match receivedOutcome err with
  | none => pure ()
  | some outcome => m.finish outcome

def Recv : Program (effects.sum T) (Option ChatStreamChunk × Option Err) :=
  match m.inner with
  | none => nilDereference
  | some inner => do
      let received ← inner.Recv.along (.inr effects T)
      m.noteEnd received.2
      pure received

def closedOutcome (failed : Option Err) : CircuitBreaker.Outcome :=
    if failed.isSome then .failure else .ignored

def Close : Program (effects.sum T) (Option Err) :=
  match m.inner with
  | none => nilDereference
  | some inner => do
      let failed ← inner.Close.along (.inr effects T)
      m.finish (closedOutcome failed)
      pure failed

def stream : Stream (effects.sum T) := ⟨m.Recv, m.Close, some m.providerName⟩

end Managed

namespace Provider

variable (p : Provider T)

def Available : Program (effects.sum T) Bool := effect .available

/-- The operation `Chat` retries. -/
def askChat (request : ChatRequest) : Program T (Option ChatResponse × Option Err) := do
  let answer ← p.inner.Chat request
  match answer with
  | .error err => pure (none, some err)
  | .ok none => pure (none, some (nilResult p.name "chat" "provider returned a nil response"))
  | .ok (some response) => pure (some response, none)

/-- The response is dereferenced to set its provider. -/
def answered : Retry.Done ChatResponse → Program (effects.sum T) (Except Err (Option ChatResponse))
  | ⟨_, some err, _⟩ => pure (.error err)
  | ⟨_, none, none⟩ => nilDereference
  | ⟨_, none, some response⟩ => pure (.ok (some { response with provider := p.name }))

/-- `Chat` once the breaker has replied. -/
def permitted (request : ChatRequest) :
    Option Nat → Program (effects.sum T) (Except Err (Option ChatResponse))
  | none => pure (.error .errOpen)
  | some circuitPermit => do
      let done ← (p.retry.Do (some IsRetryable) (p.askChat request)).along (retrying T)
      effect (.done circuitPermit (circuitOutcome done.err))
      p.answered done

/-- `Chat` once the semaphore has replied. The release is deferred. -/
def acquired (request : ChatRequest) :
    Except ContextError Nat → Program (effects.sum T) (Except Err (Option ChatResponse))
  | .error ended => pure (.error (.ofContext ended))
  | .ok concurrencyPermit =>
      (do
        let circuitPermit ← effect .allow
        p.permitted request circuitPermit).ensuring (effect (.release concurrencyPermit))

def Chat (request : ChatRequest) : Program (effects.sum T) (Except Err (Option ChatResponse)) := do
  let concurrencyPermit ← effect .acquire
  p.acquired request concurrencyPermit

def askStream (request : ChatRequest) : Program T (Option (Stream T) × Option Err) := do
  let answer ← p.inner.ChatStream request
  match answer with
  | .error err => pure (none, some err)
  | .ok none => pure (none, some (nilResult p.name "chat stream" "provider returned a nil stream"))
  | .ok (some stream) => pure (some stream, none)

def opened (concurrencyPermit circuitPermit : Nat) :
    Retry.Done (Stream T) → Program (effects.sum T) (Except Err (Option (Stream (effects.sum T))))
  | ⟨_, some err, _⟩ => do
      effect (.done circuitPermit (circuitOutcome (some err)))
      effect (.release concurrencyPermit)
      pure (.error err)
  | ⟨cancel, none, stream⟩ => do
      -- Both permits now belong to the stream; neither is given back here.
      let once ← effect (.newStream circuitPermit concurrencyPermit cancel)
      pure (.ok (some (Managed.stream ⟨p.name, stream, circuitPermit, concurrencyPermit,
        cancel, once⟩)))

def permittedStream (request : ChatRequest) (concurrencyPermit : Nat) :
    Option Nat → Program (effects.sum T) (Except Err (Option (Stream (effects.sum T))))
  | none => do
      -- Unlike in `Chat`, the release is not deferred: each failing branch has its own.
      effect (.release concurrencyPermit)
      pure (.error .errOpen)
  | some circuitPermit => do
      let done ← (p.retry.DoRetained (some IsRetryable) (p.askStream request)).along (retrying T)
      p.opened concurrencyPermit circuitPermit done

def acquiredStream (request : ChatRequest) :
    Except ContextError Nat → Program (effects.sum T) (Except Err (Option (Stream (effects.sum T))))
  | .error ended => pure (.error (.ofContext ended))
  | .ok concurrencyPermit => do
      let circuitPermit ← effect .allow
      p.permittedStream request concurrencyPermit circuitPermit

def ChatStream (request : ChatRequest) :
    Program (effects.sum T) (Except Err (Option (Stream (effects.sum T)))) := do
  let concurrencyPermit ← effect .acquire
  p.acquiredStream request concurrencyPermit

def provider : ModelGate.Provider.ChatProvider (effects.sum T) := ⟨p.Chat, p.ChatStream⟩

end Provider

/-- What an attempt makes of the answer of the inner provider. -/
def assigned {α : Type} (name operation message : String) :
    Except Err (Option α) → Option α × Option Err
  | .error err => (none, some err)
  | .ok none => (none, some (nilResult name operation message))
  | .ok (some value) => (some value, none)

section Attempts

variable {p : Provider T} {request : ChatRequest}

theorem askChat_eq : p.askChat request =
    (p.inner.Chat request >>= fun answer =>
      .done (assigned p.name "chat" "provider returned a nil response" answer)) := by
  unfold Provider.askChat
  congr 1
  funext answer
  match answer with
  | .error _ | .ok none | .ok (some _) => rfl

theorem askStream_eq : p.askStream request = (p.inner.ChatStream request >>= fun answer =>
    .done (assigned p.name "chat stream" "provider returned a nil stream" answer)) := by
  unfold Provider.askStream
  congr 1
  funext answer
  match answer with
  | .error _ | .ok none | .ok (some _) => rfl

end Attempts

end ModelGate.Governance
