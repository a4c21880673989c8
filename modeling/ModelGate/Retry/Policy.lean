import ModelGate.Errors
import ModelGate.Numeric.Int64
import ModelGate.Semantics.Program

/-! The retry policy of `internal/retry`.

The parent context, the contexts of the attempts, the observer, the random
source and the timer are operations. The duration of an attempt is not
modelled.
-/

set_option autoImplicit false

namespace ModelGate.Retry

open Numeric Semantics

/-- `jitter` says whether a `Jitter` is given. -/
structure Options where
  maxAttempts : Int
  attemptTimeout : Int
  baseBackoff : Int
  maxBackoff : Int
  jitter : Bool

structure Policy where
  options : Options

def New (options : Options) : Except String Policy :=
  if options.maxAttempts ≤ 0 then
    .error "max attempts must be positive"
  else if options.attemptTimeout ≤ 0 then
    .error "attempt timeout must be positive"
  else if options.baseBackoff ≤ 0 ∨ options.maxBackoff < options.baseBackoff then
    .error "backoff values must be positive and max must not be below base"
  else
    .ok ⟨options⟩

theorem new_ok_iff {options : Options} {p : Policy} :
    New options = .ok p ↔ 0 < options.maxAttempts ∧ 0 < options.attemptTimeout ∧
    0 < options.baseBackoff ∧ options.baseBackoff ≤ options.maxBackoff ∧ p = ⟨options⟩ := by
  unfold New
  constructor
  · intro accepted
    split at accepted
    case isTrue => cases accepted
    split at accepted
    case isTrue => cases accepted
    split at accepted
    case isTrue => cases accepted
    rename_i attempts timeout backoffs
    obtain ⟨positive, ordered⟩ := not_or.mp backoffs
    obtain rfl := Except.ok.inj accepted
    exact ⟨Int.not_le.mp attempts, Int.not_le.mp timeout, Int.not_le.mp positive,
      Int.not_lt.mp ordered, rfl⟩
  · rintro ⟨attempts, timeout, positive, ordered, rfl⟩
    rw [if_neg (Int.not_le.mpr attempts), if_neg (Int.not_le.mpr timeout),
      if_neg (not_or.mpr ⟨Int.not_le.mpr positive, Int.not_lt.mpr ordered⟩)]

inductive Effect where
  | ctxErr
  | withTimeout
  | cancel (attempt : Nat)
  | onAttempt (number : Nat) (err : Option Err)
  | jitter (maximum : Int)
  | int64N (bound : Int)
  | wait (delay : Int)

/-- A wait ends with the timer or with the error of the parent. -/
abbrev effects : Signature where
  Op := Effect
  Reply
    | .ctxErr => Option ContextError
    | .withTimeout => Nat
    | .cancel _ => Unit
    | .onAttempt _ _ => Unit
    | .jitter _ => Int
    | .int64N _ => Int
    | .wait _ => Option ContextError

variable {T : Signature} {α : Type}

def effect (op : Effect) : Program (effects.sum T) (effects.Reply op) :=
  .call (S := effects.sum T) (.inl op)

/-- The loop of `backoff`, by the doublings left. -/
def double (maxBackoff : Int) : Nat → Int → Int
  | 0, delay => if delay > maxBackoff then maxBackoff else delay
  | steps + 1, delay =>
      if delay ≥ maxBackoff.tdiv 2 then maxBackoff else double maxBackoff steps (int64 (delay * 2))

namespace Policy

variable (p : Policy)

def backoff (failedAttempt : Nat) : Int :=
  double p.options.maxBackoff (failedAttempt - 1) p.options.baseBackoff

end Policy

/-- `rand.Int64N` panics unless its argument is positive. -/
def fullJitter (maximum : Int) : Program (effects.sum T) Int :=
  if maximum ≤ 0 then pure 0
  else if int64 (maximum + 1) ≤ 0 then .abort "invalid argument to Int64N"
  else effect (.int64N (int64 (maximum + 1)))

/-- The results of `do`, and the variable its operation assigns. -/
structure Done (α : Type) where
  cancel : Option Nat
  err : Option Err
  captured : Option α

namespace Policy

variable (p : Policy)

def Jitter (maximum : Int) : Program (effects.sum T) Int :=
  if p.options.jitter then effect (.jitter maximum) else fullJitter maximum

/-- The select on the parent and the timer. -/
def waited (captured : Option α) (again : Program (effects.sum T) (Done α)) :
    Option ContextError → Program (effects.sum T) (Done α)
  | some ended => pure ⟨none, some (.ofContext ended), captured⟩
  | none => again

def pause (captured : Option α) (again : Program (effects.sum T) (Done α)) (delay : Int) :
    Program (effects.sum T) (Done α) :=
  if delay ≤ 0 then again
  else do
    let ended ← effect (.wait delay)
    waited captured again ended

/-- After a failed attempt whose context is cancelled. -/
def failed (shouldRetry : Option (Err → Bool)) (attempt : Nat) (captured : Option α) (err : Err)
    (again : Program (effects.sum T) (Done α)) :
    Option ContextError → Program (effects.sum T) (Done α)
  | some ended => pure ⟨none, some (.ofContext ended), captured⟩
  | none =>
      if (attempt : Int) = p.options.maxAttempts ∨
        shouldRetry.all (fun retryable => !retryable err) then
        pure ⟨none, some err, captured⟩
      else do
        let delay ← p.Jitter (p.backoff attempt)
        pause captured again delay

/-- After the operation of an attempt. -/
def attempted (shouldRetry : Option (Err → Bool)) (retainSuccess : Bool) (attempt cancel : Nat)
    (again : Option α → Program (effects.sum T) (Done α)) :
    Option α × Option Err → Program (effects.sum T) (Done α)
  | (captured, err) => do
      effect (.onAttempt attempt err)
      match err with
      | none =>
          if retainSuccess then pure ⟨some cancel, none, captured⟩
          else do
            effect (.cancel cancel)
            pure ⟨none, none, captured⟩
      | some err => do
          effect (.cancel cancel)
          let ended ← effect .ctxErr
          p.failed shouldRetry attempt captured err (again captured) ended

/-- One round of the loop, unless the parent has ended. -/
def entered (shouldRetry : Option (Err → Bool)) (operation : Program T (Option α × Option Err))
    (retainSuccess : Bool) (attempt : Nat) (captured : Option α)
    (again : Option α → Program (effects.sum T) (Done α)) :
    Option ContextError → Program (effects.sum T) (Done α)
  | some ended => pure ⟨none, some (.ofContext ended), captured⟩
  | none => do
      let cancel ← effect .withTimeout
      let result ← operation.along (.inr effects T)
      p.attempted shouldRetry retainSuccess attempt cancel again result

/-- The loop of `do`, by the attempts left. -/
def loop (shouldRetry : Option (Err → Bool)) (operation : Program T (Option α × Option Err))
    (retainSuccess : Bool) : Nat → Nat → Option α → Program (effects.sum T) (Done α)
  | 0, _, captured => pure ⟨none, none, captured⟩
  | left + 1, attempt, captured => do
      let ended ← effect .ctxErr
      p.entered shouldRetry operation retainSuccess attempt captured
        (loop shouldRetry operation retainSuccess left (attempt + 1)) ended

def DoRetained (shouldRetry : Option (Err → Bool)) (operation : Program T (Option α × Option Err)) :
    Program (effects.sum T) (Done α) :=
  p.loop shouldRetry operation true p.options.maxAttempts.toNat 1 none

/-- A cancel function that comes back without success is called. -/
def Do (shouldRetry : Option (Err → Bool)) (operation : Program T (Option α × Option Err)) :
    Program (effects.sum T) (Done α) := do
  let done ← p.loop shouldRetry operation false p.options.maxAttempts.toNat 1 none
  match done.cancel with
  | none => pure done
  | some cancel => do
      effect (.cancel cancel)
      pure { done with cancel := none }

end Policy

end ModelGate.Retry
