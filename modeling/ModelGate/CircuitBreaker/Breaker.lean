import ModelGate.Data.Window
import ModelGate.Numeric.Float64

/-! The circuit breaker of `internal/circuitbreaker`.

Every method of `Breaker` runs under its mutex, so each is one function from
the locked record to the next one. `Options.Now` is read at most once in a
method; the reading is an argument, in nanoseconds. A method that changed the
state reports it as the notification its caller passes to `OnStateChange`
after unlocking.
-/

set_option autoImplicit false

namespace ModelGate.CircuitBreaker

open Data Numeric

inductive State where | closed | open | halfOpen
  deriving DecidableEq, Repr

inductive Outcome where | ignored | success | failure
  deriving DecidableEq, Repr

structure Options where
  windowSize : Int
  minimumRequests : Int
  failureRatio : Float64
  openTimeout : Int
  halfOpenMaxRequests : Int

structure Breaker where
  state : State
  outcomes : List Bool
  next : Nat
  failures : Int
  openedAt : Int
  halfOpenActive : Nat
  halfOpenPassed : Nat
  generation : UInt64
  deriving DecidableEq

/-- A permit remembers the state and generation it was issued in. `spent` is
the `sync.Once` of `Permit.Done`. -/
structure Permit where
  state : State
  generation : UInt64
  spent : Bool
  deriving DecidableEq

def minDuration : Int := -2 ^ 63
def maxDuration : Int := 2 ^ 63 - 1

/-- `Time.Sub` clamps a difference that does not fit a Duration. -/
def timeSub (later earlier : Int) : Int := max minDuration (min maxDuration (later - earlier))

/-- `openedAt` is the zero time until the breaker first opens. -/
def zeroTime : Int := -62135596800 * 10 ^ 9

def initialBreaker : Breaker := ⟨.closed, [], 0, 0, zeroTime, 0, 0, 0⟩

def New (options : Options) : Except String Breaker :=
  if options.windowSize ≤ 0 then
    .error "window size must be positive"
  else if options.minimumRequests ≤ 0 ∨ options.minimumRequests > options.windowSize then
    .error "minimum requests must be between one and window size"
  else if options.failureRatio.le (.ofRat 0) ∨ (Float64.ofRat 1).lt options.failureRatio then
    .error "failure ratio must be in (0, 1]"
  else if options.openTimeout ≤ 0 then
    .error "open timeout must be positive"
  else if options.halfOpenMaxRequests ≤ 0 then
    .error "half-open max requests must be positive"
  else
    .ok initialBreaker

/-- `now` is the clock reading that opening takes; the other states take none. -/
def transitionLocked (now : Int) (target : State) (b : Breaker) : Breaker :=
  let b := { b with
    state := target
    generation := b.generation + 1
    halfOpenActive := 0
    halfOpenPassed := 0 }
  match target with
  | .closed => { b with outcomes := [], next := 0, failures := 0 }
  | .open => { b with openedAt := now }
  | .halfOpen => b

def recordLocked (options : Options) (success : Bool) (b : Breaker) : Breaker :=
  if (b.outcomes.length : Int) < options.windowSize then
    { b with
      outcomes := b.outcomes ++ [success]
      failures := if success then b.failures else b.failures + 1 }
  else
    let failures := if b.outcomes[b.next]? = some false then b.failures - 1 else b.failures
    { b with
      outcomes := b.outcomes.set b.next success
      failures := if success then failures else failures + 1
      next := (b.next + 1) % options.windowSize.toNat }

/-- The flag says whether the state changed. -/
def advanceLocked (options : Options) (now : Int) (b : Breaker) : Breaker × Bool :=
  if b.state ≠ .open ∨ timeSub now b.openedAt < options.openTimeout then
    (b, false)
  else
    (transitionLocked now .halfOpen b, true)

def notify (changed : Bool) (b : Breaker) : Option State := if changed then some b.state else none

/-- The trip test of the closed state. A quotient of two integers is taken
exactly; `Float64.le` keeps the comparison with a NaN ratio false. -/
def tripped (options : Options) (b : Breaker) : Bool :=
  decide ((b.outcomes.length : Int) ≥ options.minimumRequests) &&
    options.failureRatio.le (.ofRat ((b.failures : ℚ) / (b.outcomes.length : ℚ)))

/-- No permit stands for the `ErrOpen` result. -/
def allow (options : Options) (now : Int) (b : Breaker) : Breaker × Option Permit × Option State :=
  let (b, changed) := advanceLocked options now b
  if b.state = .open ∨
    (b.state = .halfOpen ∧ (b.halfOpenActive : Int) ≥ options.halfOpenMaxRequests) then
    (b, none, notify changed b)
  else
    let b := if b.state = .halfOpen then { b with halfOpenActive := b.halfOpenActive + 1 } else b
    (b, some ⟨b.state, b.generation, false⟩, notify changed b)

/-- `Breaker.State`. -/
def currentState (options : Options) (now : Int) (b : Breaker) : Breaker × State × Option State :=
  let (b, changed) := advanceLocked options now b
  (b, b.state, notify changed b)

def available (options : Options) (now : Int) (b : Breaker) : Breaker × Bool × Option State :=
  let (b, changed) := advanceLocked options now b
  (b, decide (b.state = .closed ∨
      (b.state = .halfOpen ∧ (b.halfOpenActive : Int) < options.halfOpenMaxRequests)),
    notify changed b)

/-- The closed branch of `complete`. The trip test reads the window that
already holds the outcome; `now` is read only when it opens the breaker. -/
def completeClosed (options : Options) (now : Int) (outcome : Outcome) (b : Breaker) :
    Breaker × Option State :=
  if outcome = .ignored then
    (b, none)
  else
    let b := recordLocked options (outcome = .success) b
    if tripped options b then
      let b := transitionLocked now .open b
      (b, some b.state)
    else
      (b, none)

def vacated (b : Breaker) : Breaker :=
  if b.halfOpenActive > 0 then { b with halfOpenActive := b.halfOpenActive - 1 } else b

/-- The half-open branch of `complete`. -/
def completeHalfOpen (options : Options) (now : Int) (outcome : Outcome) (b : Breaker) :
    Breaker × Option State :=
  let b := vacated b
  match outcome with
  | .failure =>
      let b := transitionLocked now .open b
      (b, some b.state)
  | .success =>
      let b := { b with halfOpenPassed := b.halfOpenPassed + 1 }
      if (b.halfOpenPassed : Int) ≥ options.halfOpenMaxRequests then
        let b := transitionLocked now .closed b
        (b, some b.state)
      else
        (b, none)
  | .ignored => (b, none)

def complete (options : Options) (now : Int) (permitState : State) (generation : UInt64)
    (outcome : Outcome) (b : Breaker) : Breaker × Option State :=
  if generation ≠ b.generation ∨ permitState ≠ b.state then
    (b, none)
  else
    match b.state with
    | .closed => completeClosed options now outcome b
    | .open => (b, none)
    | .halfOpen => completeHalfOpen options now outcome b

end ModelGate.CircuitBreaker
