import ModelGate.Retry.Rules
import ModelGate.Semantics.Runs

/-! Every execution of the retry loop, attempt by attempt. -/

set_option autoImplicit false

namespace ModelGate.Retry

open Numeric Semantics

variable {T : Signature} {α : Type}

/-- One invocation of the operation, with the context it was given. -/
structure Try (T : Signature) (α : Type) where
  context : Nat
  events : List (Event T)
  value : Option α
  err : Option Err

def own (op : Effect) (reply : effects.Reply op) : Event (effects.sum T) := ⟨.inl op, reply⟩

/-- An attempt from the check before it to the observer. -/
def tried (attempt : Nat) (t : Try T α) : List (Event (effects.sum T)) :=
  own .ctxErr none :: own .withTimeout t.context ::
    (t.events.map (Event.along (.inr effects T)) ++ [own (.onAttempt attempt t.err) ()])

/-- A failed attempt, up to the check after it. -/
def fell (attempt : Nat) (t : Try T α) (ended : Option ContextError) :
    List (Event (effects.sum T)) :=
  tried attempt t ++ [own (.cancel t.context) (), own .ctxErr ended]

def Accepts (shouldRetry : Option (Err → Bool)) (err : Err) : Prop :=
  ∃ retryable, shouldRetry = some retryable ∧ retryable err = true

/-- The choice of a delay, or a wait for it through which the parent lives on. -/
def Quiet : Event (effects.sum T) → Prop
  | ⟨.inl (.jitter _), _⟩ | ⟨.inl (.int64N _), _⟩ | ⟨.inl (.wait _), none⟩ => True
  | _ => False

def jitterPanic : String := "invalid argument to Int64N"

/-- The loop from the check before an attempt to its end. -/
inductive Course (p : Policy) (shouldRetry : Option (Err → Bool))
    (operation : Program T (Option α × Option Err)) (retainSuccess : Bool) :
    Nat → Option α → List (Try T α) → List (Event (effects.sum T)) → Exit (Done α) → Prop where
  | ended {attempt : Nat} {captured : Option α} (ended : ContextError) :
      Course p shouldRetry operation retainSuccess attempt captured [] [own .ctxErr (some ended)]
        (.returned ⟨none, some (.ofContext ended), captured⟩)
  | panicked {attempt : Nat} {captured : Option α} (context : Nat) {events : List (Event T)}
      {reason : String}
      (runs : operation.Runs events (.aborted reason)) :
      Course p shouldRetry operation retainSuccess attempt captured []
        (own .ctxErr none :: own .withTimeout context :: events.map (Event.along (.inr effects T)))
        (.aborted reason)
  | succeeded {attempt : Nat} {captured : Option α} {t : Try T α} (success : t.err = none)
      (runs : operation.Runs t.events (.returned (t.value, t.err))) :
      Course p shouldRetry operation retainSuccess attempt captured [t]
        (tried attempt t ++ if retainSuccess then [] else [own (.cancel t.context) ()])
        (.returned ⟨if retainSuccess then some t.context else none, none, t.value⟩)
  | overtaken {attempt : Nat} {captured : Option α} {t : Try T α}
      {err : Err} (failure : t.err = some err)
      (runs : operation.Runs t.events (.returned (t.value, t.err))) (ended : ContextError) :
      Course p shouldRetry operation retainSuccess attempt captured [t]
        (fell attempt t (some ended)) (.returned ⟨none, some (.ofContext ended), t.value⟩)
  | failed {attempt : Nat} {captured : Option α} {t : Try T α}
      {err : Err} (failure : t.err = some err)
      (runs : operation.Runs t.events (.returned (t.value, t.err)))
      (final : (attempt : Int) = p.options.maxAttempts ∨ ¬Accepts shouldRetry err) :
      Course p shouldRetry operation retainSuccess attempt captured [t] (fell attempt t none)
        (.returned ⟨none, some err, t.value⟩)
  | unsteady {attempt : Nat} {captured : Option α} {t : Try T α}
      {err : Err} (failure : t.err = some err)
      (runs : operation.Runs t.events (.returned (t.value, t.err))) (unsteady : ¬p.Steady) :
      Course p shouldRetry operation retainSuccess attempt captured [t] (fell attempt t none)
        (.aborted jitterPanic)
  | interrupted {attempt : Nat} {captured : Option α} {t : Try T α}
      {err : Err} (failure : t.err = some err)
      (runs : operation.Runs t.events (.returned (t.value, t.err)))
        {pause : List (Event (effects.sum T))}
      (quiet : ∀ event ∈ pause, Quiet event) (delay : Int) (ended : ContextError) :
      Course p shouldRetry operation retainSuccess attempt captured [t]
        (fell attempt t none ++ pause ++ [own (.wait delay) (some ended)])
        (.returned ⟨none, some (.ofContext ended), t.value⟩)
  | again {attempt : Nat} {captured : Option α} {t : Try T α}
      {err : Err} (failure : t.err = some err)
      (runs : operation.Runs t.events (.returned (t.value, t.err)))
        (accepted : Accepts shouldRetry err)
      (early : (attempt : Int) < p.options.maxAttempts) {pause : List (Event (effects.sum T))}
      (quiet : ∀ event ∈ pause, Quiet event) {tries : List (Try T α)}
        {trace : List (Event (effects.sum T))}
      {exit : Exit (Done α)}
        (later : Course p shouldRetry operation retainSuccess
          (attempt + 1) t.value tries trace exit) :
      Course p shouldRetry operation retainSuccess attempt captured (t :: tries)
        (fell attempt t none ++ pause ++ trace) exit

section Runs

variable {p : Policy} {shouldRetry : Option (Err → Bool)}
  {operation : Program T (Option α × Option Err)} {retainSuccess : Bool}
  {trace : List (Event (effects.sum T))} {exit : Exit (Done α)}

theorem jitter_runs {β : Type} {attempt : Nat} (first : 1 ≤ attempt)
    (early : (attempt : Int) < p.options.maxAttempts) {next : Int → Program (effects.sum T) β}
    {exit : Exit β} (runs : (p.Jitter (p.backoff attempt) >>= next).Runs trace exit) :
    (∃ chosen rest delay, trace = chosen ++ rest ∧ (∀ event ∈ chosen, Quiet event) ∧
      (next delay).Runs rest exit) ∨ (trace = [] ∧ exit = .aborted jitterPanic ∧ ¬p.Steady) := by
  unfold Policy.Jitter at runs
  split at runs
  · obtain ⟨delay, rest, rfl, goes⟩ := Program.Runs.call runs
    exact .inl ⟨[own (.jitter _) delay], rest, delay, rfl, by simp [Quiet, own], goes⟩
  · rename_i absent
    unfold fullJitter at runs
    split at runs
    · exact .inl ⟨[], trace, 0, rfl, nofun, runs⟩
    · split at runs
      · rename_i overflow
        obtain ⟨rfl, rfl⟩ := Program.runs_abort.mp runs
        refine .inr ⟨rfl, rfl, fun steady => ?_⟩
        have small := steady.resolve_left absent attempt first early
        rw [int64_of_bounds (by omega) (by omega)] at overflow
        omega
      · obtain ⟨delay, rest, rfl, goes⟩ := Program.Runs.call runs
        exact .inl ⟨[own (.int64N _) delay], rest, delay, rfl, by simp [Quiet, own], goes⟩

theorem pause_runs {captured : Option α} {next : Program (effects.sum T) (Done α)} {delay : Int}
    (runs : (Policy.pause captured next delay).Runs trace exit) :
    (∃ waited rest, trace = waited ++ rest ∧ (∀ event ∈ waited, Quiet event) ∧
      next.Runs rest exit) ∨ ∃ ended, trace = [own (.wait delay) (some ended)] ∧
    exit = .returned ⟨none, some (.ofContext ended), captured⟩ := by
  unfold Policy.pause at runs
  split at runs
  · exact .inl ⟨[], trace, rfl, nofun, runs⟩
  · obtain ⟨reply, rest, rfl, goes⟩ := Program.Runs.call runs
    cases reply with
    | none => exact .inl ⟨[own (.wait delay) none], rest, rfl, by simp [Quiet, own], goes⟩
    | some ended =>
        obtain ⟨rfl, rfl⟩ := Program.runs_done.mp goes
        exact .inr ⟨ended, rfl, rfl⟩

theorem accepts_of_not_all {err : Err}
    (passes : ¬(shouldRetry.all fun retryable => !retryable err) = true) :
    Accepts shouldRetry err := by
  cases shouldRetry with
  | none => exact absurd rfl passes
  | some retryable =>
      rw [Option.all_some, Bool.not_eq_true', Bool.not_eq_false] at passes
      exact ⟨retryable, rfl, passes⟩

theorem not_accepts_of_all {err : Err}
    (refuses : (shouldRetry.all fun retryable => !retryable err) = true) :
    ¬Accepts shouldRetry err := by
  rintro ⟨retryable, rfl, passes⟩
  rw [Option.all_some, passes] at refuses
  cases refuses

variable {attempt : Nat} {captured : Option α}

theorem failed_runs (first : 1 ≤ attempt) (within : (attempt : Int) ≤ p.options.maxAttempts)
    {t : Try T α} {err : Err} (failure : t.err = some err)
    (own' : operation.Runs t.events (.returned (t.value, t.err)))
    {next : Program (effects.sum T) (Done α)}
    (later : (attempt : Int) < p.options.maxAttempts → ∀ {rest exit}, next.Runs rest exit →
      ∃ tries, Course p shouldRetry operation retainSuccess (attempt + 1) t.value tries rest exit)
    {ended : Option ContextError}
    (runs : (p.failed shouldRetry attempt t.value err next ended).Runs trace exit) :
    ∃ tries, Course p shouldRetry operation retainSuccess attempt captured tries
      (fell attempt t ended ++ trace) exit := by
  -- The parent's context is asked first: when it is done, its error is the one returned.
  cases ended with
  | some ended =>
      obtain ⟨rfl, rfl⟩ := Program.runs_done.mp runs
      rw [List.append_nil]
      exact ⟨[t], .overtaken failure own' ended⟩
  | none =>
      unfold Policy.failed at runs
      dsimp only at runs
      split at runs
      · rename_i final
        obtain ⟨rfl, rfl⟩ := Program.runs_done.mp runs
        rw [List.append_nil]
        exact ⟨[t], .failed failure own' (final.imp_right not_accepts_of_all)⟩
      · rename_i more
        have early : (attempt : Int) < p.options.maxAttempts := by
          have other : (attempt : Int) ≠ p.options.maxAttempts := fun same => more (.inl same)
          omega
        have accepted := accepts_of_not_all fun refuses => more (.inr refuses)
        rcases jitter_runs first early runs with ⟨chosen, rest, delay, rfl, quiet, goes⟩ |
          ⟨rfl, rfl, unsteady⟩
        · rcases pause_runs goes with ⟨waited, after, rfl, still, continues⟩ | ⟨ended, rfl, rfl⟩
          · obtain ⟨tries, course⟩ := later early continues
            have silent (event : Event (effects.sum T)) (member : event ∈ chosen ++ waited) :
                Quiet event :=
              (List.mem_append.mp member).elim (quiet event) (still event)
            rw [← List.append_assoc chosen, ← List.append_assoc]
            exact ⟨t :: tries, .again failure own' accepted early silent course⟩
          · rw [← List.append_assoc]
            exact ⟨[t], .interrupted failure own' quiet delay ended⟩
        · rw [List.append_nil]
          exact ⟨[t], .unsteady failure own' unsteady⟩

theorem entered_runs (first : 1 ≤ attempt) (within : (attempt : Int) ≤ p.options.maxAttempts)
    {next : Option α → Program (effects.sum T) (Done α)}
    (later : (attempt : Int) < p.options.maxAttempts → ∀ value {rest exit},
      (next value).Runs rest exit →
      ∃ tries, Course p shouldRetry operation retainSuccess (attempt + 1) value tries rest exit)
    {ended : Option ContextError}
    (runs : (p.entered shouldRetry operation retainSuccess attempt captured next ended).Runs
      trace exit) :
    ∃ tries, Course p shouldRetry operation retainSuccess attempt captured tries
      (own .ctxErr ended :: trace) exit := by
  cases ended with
  | some ended =>
      obtain ⟨rfl, rfl⟩ := Program.runs_done.mp runs
      exact ⟨[], .ended ended⟩
  | none =>
      obtain ⟨context, rest, rfl, goes⟩ := Program.Runs.call runs
      rcases goes.bind with ⟨early, late, ⟨value, err⟩, rfl, called, observed⟩ |
        ⟨reason, called, rfl⟩
      · obtain ⟨events, rfl, own'⟩ := called.along
        obtain ⟨_, after, rfl, decides⟩ := Program.Runs.call observed
        let t : Try T α := ⟨context, events, value, err⟩
        -- The events of one attempt, in the order the loop makes them.
        have joined (after : List (Event (effects.sum T))) :
            own .ctxErr none :: own .withTimeout context ::
            (events.map (Event.along (.inr effects T)) ++ own (.onAttempt attempt err)
              () :: after) = tried attempt t ++ after := by
          simp [tried, t]
        cases err with
        | none =>
            have success : t.err = none := rfl
            cases retainSuccess with
            | true =>
                obtain ⟨rfl, rfl⟩ := Program.runs_done.mp decides
                exact ⟨[t], joined [] ▸ .succeeded success own'⟩
            | false =>
                obtain ⟨_, end', rfl, returns⟩ := Program.Runs.call decides
                obtain ⟨rfl, rfl⟩ := Program.runs_done.mp returns
                exact ⟨[t], joined [_] ▸ .succeeded success own'⟩
        | some err =>
            have failure : t.err = some err := rfl
            obtain ⟨_, checks, rfl, cancels⟩ := Program.Runs.call decides
            obtain ⟨ended, end', rfl, falls⟩ := Program.Runs.call cancels
            obtain ⟨tries, course⟩ :=
              failed_runs first within failure own' (fun early => later early value) falls
            refine ⟨tries, ?_⟩
            rw [fell, List.append_assoc] at course
            exact joined _ ▸ course
      · obtain ⟨events, rfl, own'⟩ := called.along
        exact ⟨[], .panicked context own'⟩

theorem rounds_runs (positive : 0 < p.options.maxAttempts)
    (runs : (p.loop shouldRetry operation retainSuccess p.options.maxAttempts.toNat 1 captured).Runs
      trace exit) :
    ∃ tries, Course p shouldRetry operation retainSuccess 1 captured tries trace exit := by
  refine rounds_induction (motive := fun made captured program => ∀ {trace exit},
      program.Runs trace exit →
      ∃ tries, Course p shouldRetry operation retainSuccess (made + 1) captured tries trace exit) ?_
    positive captured runs
  intro made captured again within later trace exit runs
  obtain ⟨ended, rest, rfl, goes⟩ := Program.Runs.call runs
  exact entered_runs (Nat.le_add_left 1 made) within later goes

end Runs

end ModelGate.Retry
