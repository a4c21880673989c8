import Mathlib.Data.List.Chain
import ModelGate.Retry.Course

/-! What every execution of `Do` and `DoRetained` has in common. -/

set_option autoImplicit false

namespace ModelGate.Retry

open Semantics

variable {T : Signature} {α : Type}

/-! What an event says -/

/-- A check or a wait that finds the parent ended. -/
def parentEnded : Event (effects.sum T) → Option ContextError
  | ⟨.inl .ctxErr, reply⟩ => reply
  | ⟨.inl (.wait _), reply⟩ => reply
  | _ => none

def opens : Event (effects.sum T) → Option Nat
  | ⟨.inl .withTimeout, context⟩ => some context
  | _ => none

theorem mem_of_opens {context : Nat} {trace : List (Event (effects.sum T))}
    (opened : context ∈ trace.filterMap opens) : own .withTimeout context ∈ trace := by
  obtain ⟨event, member, same⟩ := List.mem_filterMap.mp opened
  unfold opens at same
  split at same
  · cases same
    exact member
  · cases same

def cancels : Event (effects.sum T) → Option Nat
  | ⟨.inl (.cancel context), _⟩ => some context
  | _ => none

def observes : Event (effects.sum T) → Option (Nat × Option Err)
  | ⟨.inl (.onAttempt number err), _⟩ => some (number, err)
  | _ => none

def invokes : Event (effects.sum T) → Option (Event T)
  | ⟨.inr op, reply⟩ => some ⟨op, reply⟩
  | _ => none

/-- A context is opened right after a check that finds the parent alive. -/
def Follows (first second : Event (effects.sum T)) : Prop :=
  opens second ≠ none → first = own .ctxErr none

section Events

variable {β : Type} {f : Event (effects.sum T) → Option β}

theorem filterMap_operation
    (blind : ∀ event : Event T, f (Event.along (.inr effects T) event) = none)
    (events : List (Event T)) : (events.map (Event.along (.inr effects T))).filterMap f = [] := by
  rw [List.filterMap_map, List.filterMap_eq_nil_iff]
  exact fun event _ => blind event

theorem invokes_operation (events : List (Event T)) :
    (events.map (Event.along (.inr effects T))).filterMap invokes = events := by
  rw [List.filterMap_map]
  exact List.filterMap_some

end Events

/-- The choice of a delay and the wait for it say nothing. -/
structure Silent (event : Event (effects.sum T)) : Prop where
  ended : parentEnded event = none
  opens : opens event = none
  cancels : cancels event = none
  observes : observes event = none
  invokes : invokes event = none

theorem Quiet.silent {event : Event (effects.sum T)} (quiet : Quiet event) : Silent event := by
  obtain ⟨op, reply⟩ := event
  match op, reply, quiet with
  | .inl (.jitter _), _, _ => exact ⟨rfl, rfl, rfl, rfl, rfl⟩
  | .inl (.int64N _), _, _ => exact ⟨rfl, rfl, rfl, rfl, rfl⟩
  | .inl (.wait _), none, _ => exact ⟨rfl, rfl, rfl, rfl, rfl⟩

theorem filterMap_quiet {β : Type} {f : Event (effects.sum T) → Option β}
    (blind : ∀ {event}, Silent event → f event = none) {pause : List (Event (effects.sum T))}
    (quiet : ∀ event ∈ pause, Quiet event) : pause.filterMap f = [] :=
  List.filterMap_eq_nil_iff.mpr fun event member => blind (quiet event member).silent

theorem checked_of_closed {events : List (Event (effects.sum T))}
    (closed : ∀ event ∈ events, opens event = none) : events.IsChain Follows := by
  apply List.Pairwise.isChain
  apply List.pairwise_of_forall_mem_list
  intro first _ second member opened
  exact absurd (closed second member) opened

theorem checked_append {first second : List (Event (effects.sum T))} (one : first.IsChain Follows)
    (two : second.IsChain Follows) (closed : ∀ event ∈ second.head?, opens event = none) :
    (first ++ second).IsChain Follows :=
  one.append two fun _ _ event member opened => absurd (closed event member) opened

theorem started_checked {context : Nat} {rest : List (Event (effects.sum T))}
    (closed : ∀ event ∈ rest, opens event = none) :
    (own .ctxErr none :: own .withTimeout context :: rest).IsChain Follows := by
  apply List.isChain_cons_cons.mpr
  refine ⟨fun _ => rfl, ?_⟩
  apply checked_append (.singleton _) (checked_of_closed closed)
  intro event member
  exact closed event (List.mem_of_mem_head? member)

theorem quiet_closed {pause : List (Event (effects.sum T))} (quiet : ∀ event ∈ pause, Quiet event) :
    ∀ event ∈ pause, opens event = none :=
  fun event member => (quiet event member).silent.opens

section Tried

variable (attempt : Nat) (t : Try T α) (ended : Option ContextError)

theorem tried_opens : (tried attempt t).filterMap opens = [t.context] := by
  have opened : opens (own (T := T) .withTimeout t.context) = some t.context := rfl
  rw [tried, List.filterMap_cons_none rfl, List.filterMap_cons_some opened, List.filterMap_append,
    filterMap_operation fun _ => rfl]
  rfl

theorem tried_cancels : (tried attempt t).filterMap cancels = [] := by
  rw [tried, List.filterMap_cons_none rfl, List.filterMap_cons_none rfl, List.filterMap_append,
    filterMap_operation fun _ => rfl]
  rfl

theorem tried_observes : (tried attempt t).filterMap observes = [(attempt, t.err)] := by
  rw [tried, List.filterMap_cons_none rfl, List.filterMap_cons_none rfl, List.filterMap_append,
    filterMap_operation fun _ => rfl]
  rfl

theorem tried_invokes : (tried attempt t).filterMap invokes = t.events := by
  rw [tried, List.filterMap_cons_none rfl, List.filterMap_cons_none rfl, List.filterMap_append,
    invokes_operation]
  exact List.append_nil _

theorem fell_cancels : (fell attempt t ended).filterMap cancels = [t.context] := by
  rw [fell, List.filterMap_append, tried_cancels]
  rfl

theorem tried_alive {event : Event (effects.sum T)} (member : event ∈ tried attempt t) :
    parentEnded event = none := by
  simp only [tried, List.mem_cons, List.mem_append, List.mem_map, List.not_mem_nil,
    or_false] at member
  rcases member with rfl | rfl | ⟨_, _, rfl⟩ | rfl <;> rfl

theorem fell_alive {event : Event (effects.sum T)} (member : event ∈ fell attempt t none) :
    parentEnded event = none := by
  simp only [fell, List.mem_cons, List.mem_append, List.not_mem_nil, or_false] at member
  rcases member with inside | rfl | rfl
  · exact tried_alive attempt t inside
  · rfl
  · rfl

theorem tried_checked : (tried attempt t).IsChain Follows := by
  apply started_checked
  intro event member
  simp only [List.mem_append, List.mem_map, List.mem_singleton] at member
  rcases member with ⟨_, _, rfl⟩ | rfl <;> rfl

theorem fell_checked : (fell attempt t ended).IsChain Follows := by
  apply checked_append (tried_checked attempt t) (checked_of_closed _) (by simp [own, opens])
  simp [own, opens]

theorem paused_checked {pause : List (Event (effects.sum T))}
    (quiet : ∀ event ∈ pause, Quiet event) :
    (fell attempt t ended ++ pause).IsChain Follows := by
  apply checked_append (fell_checked ..) (checked_of_closed (quiet_closed quiet))
  intro event member
  exact quiet_closed quiet event (List.mem_of_mem_head? member)

end Tried

section Course

variable {p : Policy} {shouldRetry : Option (Err → Bool)}
  {operation : Program T (Option α × Option Err)} {retainSuccess : Bool} {attempt : Nat}
  {captured : Option α} {tries : List (Try T α)} {trace : List (Event (effects.sum T))}
  {exit : Exit (Done α)}
  (course : Course p shouldRetry operation retainSuccess attempt captured tries trace exit)
include course

theorem Course.ne_nil : trace ≠ [] := by
  cases course <;> simp [tried, fell]

theorem Course.runs {t : Try T α} (member : t ∈ tries) :
    operation.Runs t.events (.returned (t.value, t.err)) := by
  induction course with
  | ended | panicked => cases member
  | succeeded _ runs | overtaken _ runs | failed _ runs | unsteady _ runs | interrupted _ runs =>
      obtain rfl := List.mem_singleton.mp member
      exact runs
  | again _ runs _ _ _ _ ih =>
      rcases List.mem_cons.mp member with rfl | later
      · exact runs
      · exact ih later

theorem Course.length_le (within : (attempt : Int) ≤ p.options.maxAttempts) :
    (tries.length : Int) + attempt ≤ p.options.maxAttempts + 1 := by
  induction course with
  | ended | panicked | succeeded | overtaken | failed | unsteady | interrupted =>
      simp only [List.length_nil, List.length_singleton]
      omega
  | again _ _ _ early _ _ ih =>
      have rest := ih (by push_cast; omega)
      rw [List.length_cons]
      push_cast at rest ⊢
      omega

theorem Course.untried (returns : ∀ events reason, ¬operation.Runs events (.aborted reason))
    (nothing : tries = []) :
    ∃ ended captured, trace = [own .ctxErr (some ended)] ∧
    exit = .returned ⟨none, some (.ofContext ended), captured⟩ := by
  cases course with
  | ended ended => exact ⟨ended, captured, rfl, rfl⟩
  | panicked _ runs => exact absurd runs (returns _ _)
  | succeeded | overtaken | failed | unsteady | interrupted | again => cases nothing

theorem Course.filterMap_eq (returns : ∀ events reason, ¬operation.Runs events (.aborted reason))
    {β : Type} {f : Event (effects.sum T) → Option β} {g : Nat → Try T α → List β}
    (attempts : ∀ attempt t, (tried attempt t).filterMap f = g attempt t)
    (cancels : ∀ context, f (own (.cancel context) ()) = none)
    (checks : ∀ ended, f (own .ctxErr ended) = none)
    (waits : ∀ delay ended, f (own (.wait delay) ended) = none)
    (silent : ∀ {event}, Silent event → f event = none) :
    trace.filterMap f = (tries.zipIdx attempt).flatMap fun entry => g entry.2 entry.1 := by
  have falls (attempt : Nat) (t : Try T α) (ended : Option ContextError) :
      (fell attempt t ended).filterMap f = g attempt t := by
    rw [fell, List.filterMap_append, attempts, List.filterMap_cons_none (cancels _),
      List.filterMap_cons_none (checks _)]
    exact List.append_nil _
  have single (attempt : Nat) (t : Try T α) : ([t].zipIdx attempt).flatMap
    (fun entry => g entry.2 entry.1) = g attempt t := List.append_nil _
  -- Only `again` goes on; every other constructor is the last attempt of a run.
  induction course with
  | ended => exact List.filterMap_cons_none (checks _)
  | panicked context runs => exact absurd runs (returns _ _)
  | succeeded =>
      rw [List.filterMap_append, attempts, single]
      split
      · exact List.append_nil _
      · rw [List.filterMap_cons_none (cancels _)]
        exact List.append_nil _
  | overtaken | failed | unsteady => rw [falls, single]
  | interrupted _ _ quiet =>
      rw [List.filterMap_append, List.filterMap_append, falls, filterMap_quiet silent quiet,
        List.filterMap_cons_none (waits _ _), single]
      simp only [List.filterMap_nil, List.append_nil]
  | again _ _ _ _ quiet _ ih =>
      rw [List.filterMap_append, List.filterMap_append, falls, filterMap_quiet silent quiet,
        List.append_nil, ih]
      rfl

theorem Course.retried {t : Try T α} (member : t ∈ tries.dropLast) :
    ∃ err, t.err = some err ∧ Accepts shouldRetry err := by
  induction course with
  | ended | panicked | succeeded | overtaken | failed | unsteady | interrupted => cases member
  | @again _ _ _ _ failure _ accepted _ _ _ tries _ _ _ ih =>
      cases tries with
      | nil => cases member
      | cons next rest =>
          rcases List.mem_cons.mp member with rfl | later
          · exact ⟨_, failure, accepted⟩
          · exact ih later

theorem Course.alive {event : Event (effects.sum T)} (member : event ∈ trace.dropLast) :
    parentEnded event = none := by
  -- Only the last event of a run can say that the caller's context has ended.
  induction course with
  | ended => cases member
  | panicked =>
      have inside := List.dropLast_subset _ member
      simp only [List.mem_cons, List.mem_map] at inside
      rcases inside with rfl | rfl | ⟨_, _, rfl⟩ <;> rfl
  | succeeded =>
      rcases List.mem_append.mp (List.dropLast_subset _ member) with inside | after
      · exact tried_alive _ _ inside
      · split at after
        · cases after
        · obtain rfl := List.mem_singleton.mp after
          rfl
  | overtaken =>
      rw [fell, List.dropLast_append_of_ne_nil (List.cons_ne_nil _ _)] at member
      rcases List.mem_append.mp member with inside | after
      · exact tried_alive _ _ inside
      · obtain rfl := List.mem_singleton.mp after
        rfl
  | failed | unsteady => exact fell_alive _ _ (List.dropLast_subset _ member)
  | interrupted _ _ quiet =>
      rw [List.dropLast_concat] at member
      rcases List.mem_append.mp member with inside | after
      · exact fell_alive _ _ inside
      · exact (quiet event after).silent.ended
  | again _ _ _ _ quiet later ih =>
      rw [List.dropLast_append_of_ne_nil later.ne_nil] at member
      rcases List.mem_append.mp member with before | after
      · rcases List.mem_append.mp before with inside | after
        · exact fell_alive _ _ inside
        · exact (quiet event after).silent.ended
      · exact ih after

theorem Course.head : ∃ ended, trace.head? = some (own .ctxErr ended) := by
  cases course with
  | ended ended => exact ⟨some ended, rfl⟩
  | panicked | succeeded | overtaken | failed | unsteady | interrupted | again => exact ⟨none, rfl⟩

theorem Course.checked : trace.IsChain Follows := by
  induction course with
  | ended => exact .singleton _
  | panicked =>
      apply started_checked
      intro event member
      obtain ⟨_, _, rfl⟩ := List.mem_map.mp member
      rfl
  | succeeded =>
      apply checked_append (tried_checked ..) <;> split <;> simp [own, opens]
  | overtaken | failed | unsteady => exact fell_checked ..
  | interrupted _ _ quiet =>
      exact checked_append (paused_checked _ _ _ quiet) (.singleton _) (by simp [own, opens])
  | again _ _ _ _ quiet later ih =>
      apply checked_append (paused_checked _ _ _ quiet) ih
      obtain ⟨ended, starts⟩ := later.head
      rw [starts]
      rintro _ ⟨⟩
      rfl

end Course

/-! How a run ends -/

/-- What `do` returns, and what it leaves of the contexts of its attempts. -/
structure Returned (retainSuccess : Bool) (tries : List (Try T α))
    (trace : List (Event (effects.sum T))) (done : Done α) : Prop where
  success : done.err = none ↔ ∃ t ∈ tries.getLast?, t.err = none
  captured : done.err = none → ∃ t ∈ tries.getLast?, t.err = none ∧ done.captured = t.value
  /-- The error of the parent if the last event found it ended. -/
  failure : ∀ err, done.err = some err →
    (∀ ended, trace.getLast?.bind parentEnded = some ended → err = .ofContext ended) ∧
      (trace.getLast?.bind parentEnded = none → ∃ t ∈ tries.getLast?, t.err = some err)
  retained : retainSuccess = true → done.err = none → ∃ t ∈ tries.getLast?,
    done.cancel = some t.context ∧ trace.filterMap cancels = tries.dropLast.map Try.context
  released : retainSuccess = false ∨ done.err ≠ none →
    done.cancel = none ∧ trace.filterMap cancels = tries.map Try.context

/-- A run panics in the jitter only, after an attempt that failed and with all contexts
cancelled. -/
def Concluded (p : Policy) (retainSuccess : Bool) (tries : List (Try T α))
    (trace : List (Event (effects.sum T))) : Exit (Done α) → Prop
  | .returned done => Returned retainSuccess tries trace done
  | .aborted reason =>
      reason = jitterPanic ∧ ¬p.Steady ∧ trace.filterMap cancels = tries.map Try.context ∧
      ∃ t ∈ tries.getLast?, t.err ≠ none

section Concluded

variable {p : Policy} {retainSuccess : Bool} {t : Try T α} {tries : List (Try T α)}
  {trace : List (Event (effects.sum T))}

theorem returned_ended {ended : ContextError} {captured : Option α}
    (last : trace.getLast?.bind parentEnded = some ended)
    (failed : ∀ t ∈ tries.getLast?, t.err ≠ none)
    (cancelled : trace.filterMap cancels = tries.map Try.context) :
    Returned retainSuccess tries trace ⟨none, some (.ofContext ended), captured⟩ := by
  refine ⟨⟨nofun, ?_⟩, nofun, ?_, nofun, fun _ => ⟨rfl, cancelled⟩⟩
  · rintro ⟨t, member, success⟩
    exact absurd success (failed t member)
  · rintro err same
    obtain rfl := Option.some.inj same
    refine ⟨fun other found => ?_, fun nothing => ?_⟩
    · obtain rfl := Option.some.inj (last.symm.trans found)
      rfl
    · rw [last] at nothing
      cases nothing

theorem mem_getLast?_cons {s : Try T α} (member : s ∈ tries.getLast?) :
    s ∈ (t :: tries).getLast? := by
  rw [List.getLast?_cons, member]
  rfl

theorem getLast?_of_cons {s : Try T α} (other : s ≠ t) (member : s ∈ (t :: tries).getLast?) :
    s ∈ tries.getLast? := by
  rw [List.getLast?_cons] at member
  cases found : tries.getLast? with
  | none =>
      rw [found] at member
      exact absurd (Option.some.inj member).symm other
  | some last =>
      rw [found] at member
      exact member

theorem Concluded.cons {exit : Exit (Done α)} {before : List (Event (effects.sum T))}
    (some' : trace ≠ []) (failed : t.err ≠ none)
    (cancelled : before.filterMap cancels = [t.context])
    (later : Concluded p retainSuccess tries trace exit) :
    Concluded p retainSuccess (t :: tries) (before ++ trace) exit := by
  -- The last event and the last attempt are those of the run after it.
  have last : (before ++ trace).getLast?.bind parentEnded = trace.getLast?.bind parentEnded := by
    rw [List.getLast?_append_of_ne_nil _ some']
  have joined : (before ++ trace).filterMap cancels = t.context :: trace.filterMap cancels := by
    rw [List.filterMap_append, cancelled]
    rfl
  cases exit with
  | aborted reason =>
      obtain ⟨panic, unsteady, all, s, member, failure⟩ := later
      exact ⟨panic, unsteady, by rw [joined, all, List.map_cons], s,
        mem_getLast?_cons member, failure⟩
  | returned done =>
      refine ⟨⟨fun success => ?_, fun success => ?_⟩, fun success => ?_, fun err failure => ?_,
        fun retains success => ?_, fun releases => ?_⟩
      · obtain ⟨s, member, none'⟩ := later.success.mp success
        exact ⟨s, mem_getLast?_cons member, none'⟩
      · obtain ⟨s, member, none'⟩ := success
        exact later.success.mpr
          ⟨s, getLast?_of_cons (by rintro rfl; exact failed none') member, none'⟩
      · obtain ⟨s, member, none', value⟩ := later.captured success
        exact ⟨s, mem_getLast?_cons member, none', value⟩
      · rw [last]
        obtain ⟨parent, own'⟩ := later.failure err failure
        refine ⟨parent, fun nothing => ?_⟩
        obtain ⟨s, member, same⟩ := own' nothing
        exact ⟨s, mem_getLast?_cons member, same⟩
      · obtain ⟨s, member, cancel, others⟩ := later.retained retains success
        refine ⟨s, mem_getLast?_cons member, cancel, ?_⟩
        have occupied : tries ≠ [] := by
          rintro rfl
          cases member
        rw [joined, others, List.dropLast_cons_of_ne_nil occupied, List.map_cons]
      · obtain ⟨cancel, all⟩ := later.released releases
        exact ⟨cancel, by rw [joined, all, List.map_cons]⟩

end Concluded

theorem Course.concluded {p : Policy} {shouldRetry : Option (Err → Bool)}
    {operation : Program T (Option α × Option Err)}
    (returns : ∀ events reason, ¬operation.Runs events (.aborted reason)) {retainSuccess : Bool}
    {attempt : Nat} {captured : Option α} {tries : List (Try T α)}
    {trace : List (Event (effects.sum T))} {exit : Exit (Done α)}
    (course : Course p shouldRetry operation retainSuccess attempt captured tries trace exit) :
    Concluded p retainSuccess tries trace exit := by
  induction course with
  -- The induction is over the attempts; only `again` is followed by more of them.
  | ended ended => exact returned_ended rfl (by simp) rfl
  | panicked _ runs => exact absurd runs (returns _ _)
  | @succeeded _ _ t success =>
      refine ⟨⟨fun _ => ⟨t, rfl, success⟩, fun _ => rfl⟩, fun _ => ⟨t, rfl, success, rfl⟩, by simp,
        fun retains _ => ?_, fun releases => ?_⟩
      · refine ⟨t, rfl, if_pos retains, ?_⟩
        rw [if_pos retains, List.append_nil, tried_cancels]
        rfl
      -- Without `retainSuccess` the successful attempt is cancelled as well.
      · have released := releases.resolve_right fun failed => failed rfl
        have kept : ¬retainSuccess = true := by simp [released]
        refine ⟨if_neg kept, ?_⟩
        rw [if_neg kept, List.filterMap_append, tried_cancels]
        rfl
  | @overtaken _ _ t _ failure _ ended =>
      apply returned_ended
      · rw [fell, List.getLast?_append]
        rfl
      · simp [failure]
      · rw [fell_cancels]
        rfl
  | @failed attempt _ t err failure =>
      have last : (fell attempt t none).getLast?.bind parentEnded = none := by
        rw [fell, List.getLast?_append]
        rfl
      refine ⟨⟨by simp, ?_⟩, by simp, ?_, by simp, fun _ => ⟨rfl, by rw [fell_cancels]; rfl⟩⟩
      · rintro ⟨s, ⟨⟩, success⟩
        cases failure.symm.trans success
      · rintro other same
        obtain rfl := Option.some.inj same
        rw [last]
        exact ⟨by simp, fun _ => ⟨t, rfl, failure⟩⟩
  | @unsteady _ _ t _ failure _ unsteady =>
      exact ⟨rfl, unsteady, by rw [fell_cancels]; rfl, t, rfl, by simp [failure]⟩
  | interrupted failure _ quiet =>
      apply returned_ended
      · rw [List.getLast?_append]
        rfl
      · simp [failure]
      · rw [List.filterMap_append, List.filterMap_append, fell_cancels,
          filterMap_quiet Silent.cancels quiet]
        rfl
  | again failure _ _ _ quiet later ih =>
      apply ih.cons later.ne_nil (by simp [failure])
      rw [List.filterMap_append, fell_cancels, filterMap_quiet Silent.cancels quiet]
      rfl

/-- An execution of `Do` or `DoRetained` and the attempts it made. -/
structure Retried (p : Policy) (shouldRetry : Option (Err → Bool))
    (operation : Program T (Option α × Option Err)) (retainSuccess : Bool)
    (trace : List (Event (effects.sum T))) (exit : Exit (Done α)) (tries : List (Try T α)) :
    Prop where
  runs : ∀ t ∈ tries, operation.Runs t.events (.returned (t.value, t.err))
  invoked : trace.filterMap invokes = tries.flatMap Try.events
  few : (tries.length : Int) ≤ p.options.maxAttempts
  /-- Another attempt follows an error that may be retried only. -/
  retried : ∀ t ∈ tries.dropLast, ∃ err, t.err = some err ∧ Accepts shouldRetry err
  /-- Nothing follows once the parent is found ended. -/
  alive : ∀ event ∈ trace.dropLast, parentEnded event = none
  /-- The parent is found alive right before each attempt. -/
  checked : trace.IsChain Follows
  contexts : trace.filterMap opens = tries.map Try.context
  observed : trace.filterMap observes = (tries.zipIdx 1).map fun entry => (entry.2, entry.1.err)
  /-- Without an attempt the parent had ended at the first check. -/
  untried : tries = [] → ∃ ended captured, trace = [own .ctxErr (some ended)] ∧
    exit = .returned ⟨none, some (.ofContext ended), captured⟩
  concluded : Concluded p retainSuccess tries trace exit

section Retried

variable {p : Policy} {shouldRetry : Option (Err → Bool)}
  {operation : Program T (Option α × Option Err)} (positive : 0 < p.options.maxAttempts)
  (returns : ∀ events reason, ¬operation.Runs events (.aborted reason))
  {trace : List (Event (effects.sum T))} {exit : Exit (Done α)}
include positive returns

theorem rounds_retried {retainSuccess : Bool} {captured : Option α}
    (runs : (p.loop shouldRetry operation retainSuccess p.options.maxAttempts.toNat 1 captured).Runs
      trace exit) : ∃ tries, Retried p shouldRetry operation retainSuccess trace exit tries := by
  obtain ⟨tries, course⟩ := rounds_runs positive runs
  have few := course.length_le positive
  have positions {β : Type} (g : Try T α → List β) :
      (tries.zipIdx 1).flatMap (fun entry => g entry.1) = tries.flatMap g := by
    rw [← List.flatMap_map Prod.fst g, List.zipIdx_map_fst]
  refine ⟨tries, fun t => course.runs, ?_, by omega, fun t => course.retried,
    fun event => course.alive, course.checked, ?_, ?_, course.untried returns,
    course.concluded returns⟩
  · rw [course.filterMap_eq returns tried_invokes (fun _ => rfl) (fun _ => rfl)
      (fun _ _ => rfl) Silent.invokes]
    exact positions Try.events
  · rw [course.filterMap_eq returns tried_opens (fun _ => rfl) (fun _ => rfl)
      (fun _ _ => rfl) Silent.opens]
    exact (positions _).trans (List.map_eq_flatMap ..).symm
  · rw [course.filterMap_eq returns tried_observes (fun _ => rfl) (fun _ => rfl)
      (fun _ _ => rfl) Silent.observes]
    exact (List.map_eq_flatMap ..).symm

theorem doRetained_retried (runs : (p.DoRetained shouldRetry operation).Runs trace exit) :
    ∃ tries, Retried p shouldRetry operation true trace exit tries :=
  rounds_retried positive returns runs

theorem do_retried (runs : (p.Do shouldRetry operation).Runs trace exit) :
    ∃ tries, Retried p shouldRetry operation false trace exit tries := by
  rcases runs.bind with ⟨early, late, done, rfl, looped, ends⟩ | ⟨reason, stuck, rfl⟩
  · obtain ⟨tries, retried⟩ := rounds_retried positive returns looped
    obtain ⟨released, _⟩ := retried.concluded.released (.inl rfl)
    rw [released] at ends
    obtain ⟨rfl, rfl⟩ := Program.runs_done.mp ends
    rw [List.append_nil]
    exact ⟨tries, retried⟩
  · exact rounds_retried positive returns stuck

end Retried

end ModelGate.Retry
