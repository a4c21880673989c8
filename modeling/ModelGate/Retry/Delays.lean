import ModelGate.Retry.Account
import ModelGate.Retry.Backoff

/-! The default jitter, and the delays in whole executions of the loop. -/

set_option autoImplicit false

namespace ModelGate.Retry

open Numeric Semantics

variable {T : Signature} {α : Type} {p : Policy}

/-- The largest delay is reached when the doubling passes it or ends one below. -/
theorem Policy.backoff_eq_top_iff (durations : p.options.Durations) (attempt : Nat) :
    p.backoff attempt = 2 ^ 63 - 1 ↔ p.options.maxBackoff = 2 ^ 63 - 1 ∧
      (p.options.baseBackoff = 2 ^ 63 - 1 ∨
        2 ≤ attempt ∧ 2 ^ 63 - 2 ≤ p.options.baseBackoff * 2 ^ (attempt - 1)) := by
  obtain ⟨positive, ordered, fits⟩ := durations
  rw [backoff_eq_saturated ⟨positive, ordered, fits⟩, saturated]
  by_cases later : 2 ≤ attempt
  · have grown := le_doubled positive (attempt - 1)
    split <;> omega
  · have none' : attempt - 1 = 0 := by omega
    rw [none', pow_zero]
    split <;> omega

/-- `rand.Int64N` answers a number from zero up to its argument, without that. -/
def Random (trace : List (Event (effects.sum T))) : Prop :=
  ∀ bound drawn, own (.int64N bound) drawn ∈ trace → 0 ≤ drawn ∧ drawn < bound

/-- After a failed attempt the range to draw from is not empty, and the jitter
answers without a panic a delay up to the backoff. -/
structure SafeJitter (T : Signature) (p : Policy) (attempt : Nat) : Prop where
  positive : 0 < int64 (p.backoff attempt + 1)
  within : ∀ {trace exit}, (p.Jitter (p.backoff attempt) : Program (effects.sum T) Int).Runs trace
      exit → Random trace → ∃ delay, exit = .returned delay ∧ 0 ≤ delay ∧ delay ≤ p.backoff attempt

section Jitter

variable (durations : p.options.Durations) (default' : p.options.jitter = false) {attempt : Nat}
include durations

theorem int64_backoff_succ (below : p.backoff attempt ≠ 2 ^ 63 - 1) :
    int64 (p.backoff attempt + 1) = p.backoff attempt + 1 := by
  have positive := Policy.backoff_pos durations attempt
  have most := (Policy.backoff_bounds durations attempt).2
  have fits := durations.fits
  exact int64_of_bounds (by omega) (by omega)

include default'

theorem jitter_eq (below : p.backoff attempt ≠ 2 ^ 63 - 1) :
    (p.Jitter (p.backoff attempt) : Program (effects.sum T) Int) =
      effect (.int64N (p.backoff attempt + 1)) := by
  have positive := Policy.backoff_pos durations attempt
  rw [Policy.Jitter, default', if_neg Bool.false_ne_true, fullJitter,
    if_neg (Int.not_le.mpr positive), int64_backoff_succ durations below, if_neg (by omega)]

theorem safeJitter_iff : SafeJitter T p attempt ↔ p.backoff attempt ≠ 2 ^ 63 - 1 := by
  constructor
  · intro safe top
    have positive := safe.positive
    rw [top] at positive
    exact absurd positive (by decide)
  · intro below
    have positive := Policy.backoff_pos durations attempt
    constructor
    · rw [int64_backoff_succ durations below]
      omega
    · intro trace exit runs random
      rw [jitter_eq durations default' below] at runs
      obtain ⟨drawn, rest, rfl, ends⟩ := Program.runs_perform.mp runs
      obtain ⟨rfl, rfl⟩ := Program.runs_done.mp ends
      obtain ⟨least, most⟩ := random _ drawn List.mem_cons_self
      exact ⟨drawn, rfl, least, Int.lt_add_one_iff.mp most⟩

end Jitter

/-! The delays of a whole execution -/

/-- The last attempt that was reported, and the number drawn last. -/
structure Pace where
  attempt : Nat
  drawn : Int

/-- A draw is from the range of the last attempt, and a wait is for what was drawn. -/
def pacing (T : Signature) (p : Policy) : Protocol (effects.sum T) Pace where
  may pace
    | .inl (.int64N bound) => 0 < bound ∧ bound = p.backoff pace.attempt + 1
    | .inl (.wait delay) => 0 < delay ∧ delay = pace.drawn ∧ delay ≤ p.backoff pace.attempt
    | .inl (.jitter _) => False
    | _ => True
  answers _
    | .inl (.int64N bound), drawn => 0 ≤ drawn ∧ drawn < bound
    | _, _ => True
  after pace
    | .inl (.onAttempt number _), _ => { pace with attempt := number }
    | .inl (.int64N _), drawn => { pace with drawn }
    | _, _ => pace

/-- Only the operation of an attempt unwinds the loop. -/
def Unwinds (operation : Program T (Option α × Option Err)) : Exit (Done α) → Pace → Prop
  | .returned _, _ => True
  | .aborted reason, _ => ∃ events, operation.Runs events (.aborted reason)

section Pacing

variable (durations : p.options.Durations) (default' : p.options.jitter = false)
  (shouldRetry : Option (Err → Bool)) {operation : Program T (Option α × Option Err)}
  (retainSuccess : Bool)

theorem operation_paced {β : Type} {post : Exit β → Pace → Prop} {pace : Pace}
    (unwinds : ∀ events reason, operation.Runs events (.aborted reason) →
      post (.aborted reason) pace)
    {next : Option α × Option Err → Program (effects.sum T) β}
    (rest : ∀ result, Obeys (pacing T p) post (next result) pace) :
    Obeys (pacing T p) post (operation.along (.inr effects T) >>= next) pace := by
  have still (trace : List (Event T)) : ((pacing T p).along (.inr effects T)).advance pace trace =
      pace := by
    induction trace with
    | nil => rfl
    | cons event trace ih => exact ih
  rw [obeys_bind, obeys_along]
  apply obeys_of_runs (fun _ _ => trivial)
  intro trace exit runs _
  rw [still]
  cases exit with
  | returned result => exact followed_returned.mpr (rest result)
  | aborted reason => exact followed_aborted.mpr (unwinds trace reason runs)

variable (steady : p.Steady)
include durations default' steady

theorem jitter_paced {β : Type} {post : Exit β → Pace → Prop} {attempt : Nat} (first : 1 ≤ attempt)
    (early : (attempt : Int) < p.options.maxAttempts) (drawn : Int)
    {next : Int → Program (effects.sum T) β}
    (rest : ∀ delay, delay ≤ p.backoff attempt →
      Obeys (pacing T p) post (next delay) ⟨attempt, delay⟩) :
    Obeys (pacing T p) post (p.Jitter (p.backoff attempt) >>= next) ⟨attempt, drawn⟩ := by
  have below := steady.resolve_left (by simp [default']) attempt first early
  have positive := Policy.backoff_pos durations attempt
  have allowed : (pacing T p).may ⟨attempt, drawn⟩ (.inl (.int64N (p.backoff attempt + 1))) :=
    ⟨by omega, rfl⟩
  rw [jitter_eq durations default' below.ne]
  apply obeys_call_bind allowed
  intro delay answered
  exact rest delay (Int.lt_add_one_iff.mp answered.2)

theorem failed_paced {attempt : Nat} (first : 1 ≤ attempt)
    (within : (attempt : Int) ≤ p.options.maxAttempts) (captured : Option α) (err : Err)
    {again : Program (effects.sum T) (Done α)}
    (retries : (attempt : Int) < p.options.maxAttempts →
      ∀ drawn, Obeys (pacing T p) (Unwinds operation) again ⟨attempt, drawn⟩)
    (ended : Option ContextError) (drawn : Int) :
    Obeys (pacing T p) (Unwinds operation) (p.failed shouldRetry attempt captured err again ended)
      ⟨attempt, drawn⟩ := by
  cases ended with
  | some ended => exact obeys_done.mpr trivial
  | none =>
      unfold Policy.failed
      dsimp only
      split
      · exact obeys_done.mpr trivial
      · rename_i more
        have early : (attempt : Int) < p.options.maxAttempts := by
          have other : (attempt : Int) ≠ p.options.maxAttempts := fun same => more (.inl same)
          omega
        apply jitter_paced durations default' steady first early
        intro delay most
        unfold Policy.pause
        split
        · exact retries early delay
        · rename_i waits
          have allowed : (pacing T p).may ⟨attempt, delay⟩ (.inl (.wait delay)) :=
            ⟨Int.not_le.mp waits, rfl, most⟩
          apply obeys_call_bind allowed
          intro ended _
          cases ended with
          | some ended => exact obeys_done.mpr trivial
          | none => exact retries early delay

theorem attempted_paced {attempt : Nat} (first : 1 ≤ attempt)
    (within : (attempt : Int) ≤ p.options.maxAttempts) (cancel : Nat)
    {again : Option α → Program (effects.sum T) (Done α)}
    (retries : (attempt : Int) < p.options.maxAttempts →
      ∀ captured drawn, Obeys (pacing T p) (Unwinds operation) (again captured) ⟨attempt, drawn⟩)
    (result : Option α × Option Err) (pace : Pace) :
    Obeys (pacing T p) (Unwinds operation)
      (p.attempted shouldRetry retainSuccess attempt cancel again result) pace := by
  obtain ⟨captured, err⟩ := result
  unfold Policy.attempted
  apply obeys_call_bind (S := effects.sum T) trivial
  intro _ _
  -- From here on the attempt is the one just reported.
  change Obeys (pacing T p) (Unwinds operation) _ ⟨attempt, pace.drawn⟩
  cases err with
  | none =>
      dsimp only
      split
      · exact obeys_done.mpr trivial
      · apply obeys_call_bind (S := effects.sum T) trivial
        intro _ _
        exact obeys_done.mpr trivial
  | some err =>
      apply obeys_call_bind (S := effects.sum T) trivial
      intro _ _
      apply obeys_call_bind (S := effects.sum T) trivial
      intro ended _
      exact failed_paced durations default' shouldRetry steady first within captured err
        (fun early => retries early captured) ended pace.drawn

theorem entered_paced {attempt : Nat} (first : 1 ≤ attempt)
    (within : (attempt : Int) ≤ p.options.maxAttempts) (captured : Option α)
    {again : Option α → Program (effects.sum T) (Done α)}
    (retries : (attempt : Int) < p.options.maxAttempts →
      ∀ captured drawn, Obeys (pacing T p) (Unwinds operation) (again captured) ⟨attempt, drawn⟩)
    (ended : Option ContextError) (pace : Pace) :
    Obeys (pacing T p) (Unwinds operation)
      (p.entered shouldRetry operation retainSuccess attempt captured again ended) pace := by
  cases ended with
  | some ended => exact obeys_done.mpr trivial
  | none =>
      apply obeys_call_bind (S := effects.sum T) trivial
      intro cancel _
      apply operation_paced fun events reason runs => ⟨events, runs⟩
      intro result
      exact attempted_paced durations default' shouldRetry retainSuccess steady first within cancel
        retries result _

theorem rounds_paced (positive : 0 < p.options.maxAttempts) (pace : Pace) :
    Obeys (pacing T p) (Unwinds operation)
      (p.loop shouldRetry operation retainSuccess p.options.maxAttempts.toNat 1 none) pace := by
  refine rounds_induction
    (motive := fun _ _ program => ∀ pace, Obeys (pacing T p) (Unwinds operation) program pace) ?_
    positive none pace
  intro made captured again within retries pace
  apply obeys_call_bind (S := effects.sum T) trivial
  intro ended _
  exact entered_paced durations default' shouldRetry retainSuccess steady
    (Nat.le_add_left 1 made) within captured (fun early captured _ => retries early captured _)
    ended pace

theorem do_paced (positive : 0 < p.options.maxAttempts) (pace : Pace) :
    Obeys (pacing T p) (Unwinds operation) (p.Do shouldRetry operation) pace := by
  unfold Policy.Do
  rw [obeys_bind]
  apply (rounds_paced durations default' shouldRetry false steady positive pace).mono
  intro exit last ended
  cases exit with
  | aborted reason => exact ended
  | returned done =>
      apply followed_returned.mpr
      cases done.cancel with
      | none => exact obeys_done.mpr trivial
      | some cancel =>
          apply obeys_call_bind (S := effects.sum T) trivial
          intro _ _
          exact obeys_done.mpr trivial

end Pacing

def lastAttempt (trace : List (Event (effects.sum T))) : Nat :=
  ((trace.filterMap observes).getLast?.map Prod.fst).getD 0

theorem lastAttempt_concat (trace : List (Event (effects.sum T))) (event : Event (effects.sum T)) :
    lastAttempt (trace ++ [event]) = ((observes event).map Prod.fst).getD (lastAttempt trace) := by
  unfold lastAttempt
  rw [List.filterMap_append]
  cases reported : observes event with
  | none =>
      rw [List.filterMap_cons_none reported, List.filterMap_nil, List.append_nil, Option.map_none,
        Option.getD_none]
  | some report => simp [List.filterMap_cons_some reported]

theorem pacing_attempt (pace : Pace) (event : Event (effects.sum T)) :
    ((pacing T p).after pace event.op event.reply).attempt =
      ((observes event).map Prod.fst).getD pace.attempt := by
  obtain ⟨op | op, reply⟩ := event
  · cases op <;> rfl
  · rfl

theorem advance_attempt (trace : List (Event (effects.sum T))) :
    ((pacing T p).advance ⟨0, 0⟩ trace).attempt = lastAttempt trace := by
  induction trace using List.reverseRecOn with
  | nil => rfl
  | append_singleton trace event ih =>
      rw [Protocol.advance_concat, pacing_attempt, ih, lastAttempt_concat]

theorem answered_of_random {trace : List (Event (effects.sum T))} (random : Random trace)
    (pace : Pace) : (pacing T p).Answered pace trace := by
  induction trace generalizing pace with
  | nil => trivial
  | cons event trace ih =>
      refine ⟨?_, ih (fun bound drawn member => random bound drawn (List.mem_cons_of_mem _ member))
        _⟩
      obtain ⟨op | op, reply⟩ := event
      · cases op with
        | int64N bound => exact random bound reply List.mem_cons_self
        | _ => trivial
      · trivial

/-- In an execution without a jitter of its own, every draw and every wait
stays within the backoff of the attempt before, and only the operation panics. -/
structure Paced (p : Policy) (operation : Program T (Option α × Option Err))
    (trace : List (Event (effects.sum T))) (exit : Exit (Done α)) : Prop where
  draws : ∀ before bound drawn after, trace = before ++ own (.int64N bound) drawn :: after →
    0 < bound ∧ bound = p.backoff (lastAttempt before) + 1
  waits : ∀ before delay ended after, trace = before ++ own (.wait delay) ended :: after →
    0 < delay ∧ delay ≤ p.backoff (lastAttempt before)
  panics : ∀ reason, exit = .aborted reason → ∃ events, operation.Runs events (.aborted reason)

theorem paced_of_obeys {operation : Program T (Option α × Option Err)}
    {program : Program (effects.sum T) (Done α)}
    (obeys : Obeys (pacing T p) (Unwinds operation) program ⟨0, 0⟩)
    {trace : List (Event (effects.sum T))} {exit : Exit (Done α)} (runs : program.Runs trace exit)
    (random : Random trace) : Paced p operation trace exit := by
  have answered := answered_of_random (p := p) random ⟨0, 0⟩
  constructor
  · rintro before bound drawn after rfl
    have allowed := obeys.allowed_after runs answered
    rw [← advance_attempt (p := p) before]
    exact allowed
  · rintro before delay ended after rfl
    obtain ⟨positive, -, most⟩ := obeys.allowed_after runs answered
    rw [← advance_attempt (p := p) before]
    exact ⟨positive, most⟩
  · rintro reason rfl
    exact obeys.runs runs answered

theorem executions_paced {options : Options} (accepted : New options = .ok p)
    (fits : options.maxBackoff ≤ 2 ^ 63 - 1) (default' : options.jitter = false) (steady : p.Steady)
    (shouldRetry : Option (Err → Bool)) {operation : Program T (Option α × Option Err)}
    {trace : List (Event (effects.sum T))} {exit : Exit (Done α)} (random : Random trace) :
    ((p.Do shouldRetry operation).Runs trace exit → Paced p operation trace exit) ∧
    ((p.DoRetained shouldRetry operation).Runs trace exit → Paced p operation trace exit) := by
  obtain ⟨rfl, durations⟩ := durations_of_new accepted fits
  have positive := positive_of_new accepted
  constructor
  · intro runs
    exact paced_of_obeys (do_paced durations default' shouldRetry steady positive _) runs random
  · intro runs
    exact paced_of_obeys (rounds_paced durations default' shouldRetry true steady positive _)
      runs random

/-- A policy is steady when the delay before its last attempt is not the largest. -/
theorem steady_iff (durations : p.options.Durations) (default' : p.options.jitter = false) :
    p.Steady ↔ p.options.maxAttempts ≤ 1 ∨
    p.backoff (p.options.maxAttempts - 1).toNat ≠ 2 ^ 63 - 1 := by
  constructor
  · intro steady
    by_cases few : p.options.maxAttempts ≤ 1
    · exact .inl few
    · have below := steady.resolve_left (by simp [default']) (p.options.maxAttempts - 1).toNat
        (by omega) (by omega)
      exact .inr below.ne
  · rintro last
    refine .inr fun attempt first early => ?_
    have unlike := last.resolve_left (by omega)
    have order : p.backoff attempt ≤ p.backoff (p.options.maxAttempts - 1).toNat :=
      Policy.backoff_mono durations (by omega)
    have most := (Policy.backoff_bounds durations (p.options.maxAttempts - 1).toNat).2
    have fits := durations.fits
    omega

end ModelGate.Retry
