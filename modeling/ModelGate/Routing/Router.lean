import ModelGate.Data.Text
import ModelGate.Numeric.Int64
import ModelGate.Provider.Interface

/-! The router of `internal/routing`.

The mutex guards the cursor and the current weights. `lock` answers what
earlier selections left there, and `unlock` leaves what the next one will
find, so selections of other requests come between the two of different
selections only. No `Available` of a target is expected to panic.
-/

set_option autoImplicit false

namespace ModelGate.Routing

open Data Numeric Semantics ModelGate.Provider

inductive Strategy where
  | roundRobin
  | weightedRoundRobin
  | unsupported (text : String)
  deriving DecidableEq

/-- What the mutex guards, with the `currentWeight` of each target. -/
structure Cursor where
  next : Nat
  currentWeights : List Int
  deriving DecidableEq

inductive Effect where
  | lock
  | unlock (cursor : Cursor)

abbrev effects : Signature where
  Op := Effect
  Reply
    | .lock => Cursor
    | .unlock _ => Unit

variable {T : Signature} {α β : Type}

def effect (op : Effect) : Program (effects.sum T) (effects.Reply op) :=
  .call (S := effects.sum T) (.inl op)

structure Target (T : Signature) where
  provider : ChatProvider T
  name : String
  Available : Program T Bool

structure WeightedTarget (T : Signature) where
  target : Option (Target T)
  weight : Int

/-- A `targetState` without its `currentWeight`. -/
structure TargetState (T : Signature) where
  target : Target T
  weight : Int

structure Router (T : Signature) where
  strategy : Strategy
  targets : List (TargetState T)

/-- The loop of `New`. The verb `%q` is a parameter. -/
def enroll (quote : String → String) :
    List (WeightedTarget T) → List String → List (TargetState T) →
    Except String (List (TargetState T))
  | [], _, states => .ok states
  | candidate :: rest, names, states =>
      match candidate.target with
      | none => .error "provider target is required"
      | some target =>
          let name := trimSpace target.name
          if name = "" then .error "provider target name is required"
          else if name ∈ names then .error ("provider target " ++ quote name ++ " is duplicated")
          else if candidate.weight ≤ 0 then
            .error ("provider target " ++ quote name ++ " weight must be positive")
          else enroll quote rest (name :: names) (states ++ [⟨target, candidate.weight⟩])

def New (quote : String → String) (strategy : Strategy) (targets : List (WeightedTarget T)) :
    Except String (Router T) :=
  match strategy with
  | .unsupported text => .error ("unsupported routing strategy " ++ quote text)
  | _ =>
      if targets = [] then .error "at least one provider target is required"
      else (enroll quote targets [] []).map fun states => ⟨strategy, states⟩

def unavailable (operation : String) (cause : Err) : Err :=
  .upstream ⟨"router", operation, .unavailable, 0, false⟩ (some cause)

/-- A stream under the name of its target. -/
def namedStream (name : String) (inner : Stream T) : Stream T :=
  ⟨inner.Recv, inner.Close, some name⟩

/-- Whether a selection may take a candidate, which is asked unless it is excluded. -/
def Target.passes (candidate : Target T) (excluded : List String) : Program (effects.sum T) Bool :=
  if candidate.name ∈ excluded then pure false else candidate.Available.along (.inr effects T)

structure Weighing where
  selected : Option Nat
  total : Int
  currentWeights : List Int

/-- A candidate that passes gains its weight, and is selected if it is ahead. -/
def Weighing.add (w : Weighing) (index : Nat) (weight : Int) : Weighing :=
  let current := int64 (w.currentWeights.getD index 0 + weight)
  let currentWeights := w.currentWeights.set index current
  let ahead := w.selected.all fun selected => decide (current > currentWeights.getD selected 0)
  ⟨if ahead then some index else w.selected, int64 (w.total + weight), currentWeights⟩

/-- Where the loop of `Chat` or `ChatStream` ends: with the error of the router
itself or with the answer of a target. -/
inductive Routed (β : Type) where
  | unavailable (err : Err)
  | answered (result : Except Err β)

def Routed.result : Routed β → Except Err (Option β)
  | .unavailable err => .error err
  | .answered (.error err) => .error err
  | .answered (.ok value) => .ok (some value)

namespace Router

variable (r : Router T)

def cursor : Cursor := ⟨0, r.targets.map fun _ => 0⟩

/-- The loop of the round robin, by the checks left. -/
def roundRobin (excluded : List String) :
    Nat → Cursor → Program (effects.sum T) (Option (Target T) × Cursor)
  | 0, cursor => pure (none, cursor)
  | left + 1, cursor =>
      match r.targets[cursor.next % r.targets.length]? with
      | none => .abort "index out of range"
      | some candidate => do
          let advanced := { cursor with next := (cursor.next + 1) % r.targets.length }
          if ← candidate.target.passes excluded then pure (some candidate.target, advanced)
          else roundRobin excluded left advanced

/-- The loop of the weighted round robin, over the targets left. -/
def weigh (excluded : List String) :
    List (TargetState T × Nat) → Weighing → Program (effects.sum T) Weighing
  | [], w => pure w
  | (candidate, index) :: rest, w => do
      if ← candidate.target.passes excluded then weigh excluded rest (w.add index candidate.weight)
      else weigh excluded rest w

def weighted (cursor : Cursor) (w : Weighing) :
    Program (effects.sum T) (Option (Target T) × Cursor) :=
  match w.selected with
  | none => pure (none, { cursor with currentWeights := w.currentWeights })
  | some selected =>
      match r.targets[selected]? with
      | none => .abort "index out of range"
      | some candidate =>
          let current := int64 (w.currentWeights.getD selected 0 - w.total)
          pure (some candidate.target,
            { cursor with currentWeights := w.currentWeights.set selected current })

def weightedRoundRobin (excluded : List String) (cursor : Cursor) :
    Program (effects.sum T) (Option (Target T) × Cursor) := do
  let w ← weigh excluded r.targets.zipIdx ⟨none, 0, cursor.currentWeights⟩
  r.weighted cursor w

/-- The body of `selectTarget` under the mutex. -/
def choose (excluded : List String) (cursor : Cursor) :
    Program (effects.sum T) (Option (Target T) × Cursor) :=
  match r.strategy with
  | .roundRobin => r.roundRobin excluded r.targets.length cursor
  | .weightedRoundRobin => r.weightedRoundRobin excluded cursor
  | .unsupported _ => pure (none, cursor)

def selectTarget (excluded : List String) : Program (effects.sum T) (Except Err (Target T)) := do
  let cursor ← effect .lock
  let (selected, left) ← r.choose excluded cursor
  effect (.unlock left)
  match selected with
  | some target => pure (.ok target)
  | none => pure (.error .errNoHealthyProviders)

/-- What a round of `Chat` or `ChatStream` makes of the answer of its target. -/
def heard (operation nilMessage name : String) (named : String → α → β)
    (again : Program (effects.sum T) (Routed β)) :
    Except Err (Option α) → Program (effects.sum T) (Routed β)
  | .error err => if err.is .errOpen then again else pure (.answered (.error err))
  | .ok none => pure (.answered (.error (nilResult name operation nilMessage)))
  | .ok (some value) => pure (.answered (.ok (named name value)))

/-- The loop `Chat` and `ChatStream` share, with enough rounds never to run out. -/
def route (operation nilMessage : String) (call : Target T → Program T (Except Err (Option α)))
    (named : String → α → β) : Nat → List String → Program (effects.sum T) (Routed β)
  | 0, _ => .abort "out of rounds"
  | rounds + 1, excluded =>
      if excluded.length < r.targets.length then do
        let selected ← r.selectTarget excluded
        match selected with
        | .error err => pure (.unavailable (Routing.unavailable operation err))
        | .ok target => do
            let answer ← (call target).along (.inr effects T)
            heard operation nilMessage target.name named
              (route operation nilMessage call named rounds (excluded.insert target.name)) answer
      else pure (.unavailable (Routing.unavailable operation .errNoHealthyProviders))

def routeChat (request : ChatRequest) : Program (effects.sum T) (Routed ChatResponse) :=
  r.route "chat" "provider returned a nil response" (fun target => target.provider.Chat request)
    (fun name response => { response with provider := name }) (r.targets.length + 1) []

def Chat (request : ChatRequest) : Program (effects.sum T) (Except Err (Option ChatResponse)) := do
  let routed ← r.routeChat request
  pure routed.result

def routeStream (request : ChatRequest) :
    Program (effects.sum T) (Routed (Stream (effects.sum T))) :=
  r.route "chat stream" "provider returned a nil stream"
    (fun target => target.provider.ChatStream request)
    (fun name stream => namedStream name (stream.along (.inr effects T))) (r.targets.length + 1) []

def ChatStream (request : ChatRequest) :
    Program (effects.sum T) (Except Err (Option (Stream (effects.sum T)))) := do
  let routed ← r.routeStream request
  pure routed.result

def provider : ChatProvider (effects.sum T) := ⟨r.Chat, r.ChatStream⟩

end Router

end ModelGate.Routing
