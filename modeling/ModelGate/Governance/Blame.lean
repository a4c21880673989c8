import ModelGate.Governance.Attempts
import ModelGate.Governance.Tally

/-! When a call counts as a failure of the circuit.

The outcome of a call is computed from its error alone, so a deadline that has
passed before the first attempt counts against a provider that was never asked.
-/

set_option autoImplicit false

namespace ModelGate.Governance

open Semantics ModelGate.Provider

def Tried (trace : List (Event governedCalls)) : Prop := ∃ event ∈ trace, invokes event = true

/-- The permit is completed with a failure only if the inner provider was invoked. -/
def BlamesTried (trace : List (Event governedCalls)) : Prop :=
  (∃ permit, own (.done permit .failure) () ∈ trace) → Tried trace

/-- The deadline of the caller has passed at the first check of an admitted call. -/
def ExpiredFirst (trace : List (Event governedCalls)) : Prop :=
  ∃ slot permit, admitted slot permit ++ [own (.retry .ctxErr) (some .deadlineExceeded)] <+: trace

theorem refused_blames {β : Type} {trace : List (Event governedCalls)} {exit : Exit (Except Err β)}
    (refused : Refused trace exit) : BlamesTried trace ∧ ¬ExpiredFirst trace := by
  rcases refused with ⟨ended, rfl, _⟩ | ⟨slot, rfl, _⟩
  · constructor
    · rintro ⟨permit, member⟩
      simp [own] at member
    · rintro ⟨slot, permit, rest, same⟩
      simp [admitted, own] at same
  · constructor
    · rintro ⟨permit, member⟩
      simp [own] at member
    · rintro ⟨other, permit, rest, same⟩
      simp [admitted, own] at same

section Attempts

variable {policy : Retry.Policy} {α : Type} {shouldRetry : Option (Err → Bool)}
  {operation : Program upstreamCalls (Option α × Option Err)} {retainSuccess : Bool}
  {events : List (Event (Retry.effects.sum upstreamCalls))} {exit : Exit (Retry.Done α)}
  {tries : List (Retry.Try upstreamCalls α)}
  (account : Retry.Retried policy shouldRetry operation retainSuccess events exit tries)
include account

theorem tried_of_attempt
    (starts : ∀ {events exit}, operation.Runs events exit →
      ∃ event ∈ events, invokes (Event.along (.inr effects _) event) = true)
    (some' : tries ≠ []) : Tried (retried events) := by
  obtain ⟨t, member⟩ := List.exists_mem_of_ne_nil _ some'
  obtain ⟨event, inside, invoked⟩ := starts (account.runs t member)
  have known : event ∈ events.filterMap Retry.invokes := by
    rw [account.invoked]
    exact List.mem_flatMap.mpr ⟨t, member, inside⟩
  obtain ⟨outer, among, same⟩ := List.mem_filterMap.mp known
  refine ⟨Event.along (retrying upstreamCalls) outer, List.mem_map_of_mem among, ?_⟩
  obtain ⟨op, reply⟩ := outer
  cases op with
  | inl op => cases same
  | inr op =>
      obtain rfl := Option.some.inj same
      exact invoked

theorem untried_of_ended {ended : ContextError}
    (first : events.head? = some (Retry.own .ctxErr (some ended))) :
    events = [Retry.own .ctxErr (some ended)] ∧
    ∃ captured, exit = .returned ⟨none, some (.ofContext ended), captured⟩ := by
  have alone : events = [Retry.own .ctxErr (some ended)] := by
    match events, first, account.alive with
    | [_], rfl, _ => rfl
    | _ :: _ :: _, rfl, alive => cases alive _ (List.mem_cons_self ..)
  subst alone
  obtain ⟨other, captured, same, returned⟩ :=
    account.untried (List.map_eq_nil_iff.mp account.contexts.symm)
  cases (List.cons.inj same).1
  exact ⟨rfl, captured, returned⟩

theorem events_ne_nil : events ≠ [] := by
  rintro rfl
  obtain ⟨_, _, impossible, _⟩ := account.untried (List.map_eq_nil_iff.mp account.contexts.symm)
  cases impossible

variable {slot permit : Nat} {ending : List (Event governedCalls)}

theorem ended_of_expired {rest : List (Event governedCalls)} {ended : ContextError}
    {other another : Nat}
    (same : admitted other another ++ [own (.retry .ctxErr) (some ended)] ++ rest =
      admitted slot permit ++ retried events ++ ending) :
    events.head? = some (Retry.own .ctxErr (some ended)) := by
  obtain ⟨first, later, rfl⟩ := List.exists_cons_of_ne_nil (events_ne_nil account)
  obtain ⟨_, tail⟩ := List.cons.inj same
  obtain ⟨_, tail⟩ := List.cons.inj tail
  obtain ⟨here, _⟩ := List.cons.inj tail
  obtain ⟨op, reply⟩ := first
  cases op with
  | inl op =>
      cases here
      rfl
  | inr op => cases here

theorem blames_iff
    (starts : ∀ {events exit}, operation.Runs events exit →
      ∃ event ∈ events, invokes (Event.along (.inr effects _) event) = true)
    (completed : ∀ other, own (.done other .failure) () ∈ ending → ∃ done, exit = .returned done ∧
      circuitOutcome done.err = .failure)
    (completes : ∀ captured, exit = .returned ⟨none, some (.ofContext .deadlineExceeded),
        captured⟩ → own (.done permit .failure) () ∈ ending ∧
      ∀ event ∈ ending, invokes event = false) :
    BlamesTried (admitted slot permit ++ retried events ++ ending) ↔
    ¬ExpiredFirst (admitted slot permit ++ retried events ++ ending) := by
  constructor
  · rintro blames ⟨_, _, rest, same⟩
    -- The first check found the deadline passed, so there was no attempt.
    obtain ⟨rfl, captured, returned⟩ := untried_of_ended account (ended_of_expired account same)
    obtain ⟨member, unasked⟩ := completes captured returned
    obtain ⟨event, inside, invoked⟩ := blames ⟨permit, List.mem_append_right _ member⟩
    rcases List.mem_append.mp inside with before | after
    · simp only [admitted, retried, List.map_cons, List.map_nil, List.cons_append, List.nil_append,
        List.mem_cons, List.not_mem_nil, or_false] at before
      rcases before with rfl | rfl | rfl <;> cases invoked
    · rw [unasked event after] at invoked
      cases invoked
  · rintro timely ⟨other, member⟩
    -- Neither the admission nor the attempts complete a permit.
    have late : own (.done other .failure) () ∈ ending := by
      rcases List.mem_append.mp member with before | after
      · rcases List.mem_append.mp before with first | during
        · simp [admitted, own] at first
        · obtain ⟨⟨op, reply⟩, _, same⟩ := List.mem_map.mp during
          cases op <;> cases same
      · exact after
    obtain ⟨done, returned, failure⟩ := completed other late
    by_cases untried : tries = []
    · obtain ⟨ended, captured, rfl, same⟩ := account.untried untried
      obtain rfl := Exit.returned.inj (returned.symm.trans same)
      cases ended with
      | canceled => cases failure
      | deadlineExceeded => exact absurd ⟨slot, permit, ending, rfl⟩ timely
    · obtain ⟨event, inside, invoked⟩ := tried_of_attempt account starts untried
      exact ⟨event, List.mem_append_left _ (List.mem_append_right _ inside), invoked⟩

end Attempts

def completion (slot permit : Nat) (outcome : CircuitBreaker.Outcome) :
    List (Event governedCalls) :=
  [own (.done permit outcome) (), own (.release slot) ()]

theorem failure_of_completion {slot permit other : Nat} {outcome : CircuitBreaker.Outcome}
    (member : own (.done other .failure) () ∈ completion slot permit outcome) :
    outcome = .failure := by
  simp only [completion, List.mem_cons, List.not_mem_nil, or_false] at member
  rcases member with same | same
  · cases same
    rfl
  · cases same

theorem completion_unasked {slot permit : Nat} {outcome : CircuitBreaker.Outcome} :
    ∀ event ∈ completion slot permit outcome, invokes event = false := by
  intro event member
  simp only [completion, List.mem_cons, List.not_mem_nil, or_false] at member
  rcases member with rfl | rfl <;> rfl

section Calls

variable {p : Provider upstreamCalls} (asked : p.inner = upstream)
  (positive : 0 < p.retry.options.maxAttempts) {request : ChatRequest}

include asked

theorem askChat_upstream {events : List (Event upstreamCalls)}
    {exit : Exit (Option ChatResponse × Option Err)} (runs : (p.askChat request).Runs events exit) :
    (∃ event ∈ events, invokes (Event.along (.inr effects _) event) = true) ∧
    ∃ result, exit = .returned result := by
  rw [askChat_eq, asked] at runs
  obtain ⟨reply, rest, rfl, ends⟩ := Program.Runs.call runs
  obtain ⟨rfl, rfl⟩ := Program.runs_done.mp ends
  exact ⟨⟨_, List.mem_cons_self .., rfl⟩, _, rfl⟩

theorem askStream_upstream {events : List (Event upstreamCalls)}
    {exit : Exit (Option (Stream upstreamCalls) × Option Err)}
    (runs : (p.askStream request).Runs events exit) :
    (∃ event ∈ events, invokes (Event.along (.inr effects _) event) = true) ∧
    ∃ result, exit = .returned result := by
  rw [askStream_eq, asked] at runs
  obtain ⟨reply, rest, rfl, ends⟩ := Program.Runs.call runs
  obtain ⟨rfl, rfl⟩ := Program.runs_done.mp ends
  exact ⟨⟨_, List.mem_cons_self .., rfl⟩, _, rfl⟩

include positive

theorem chat_blames {trace : List (Event governedCalls)}
    {exit : Exit (Except Err (Option ChatResponse))} (runs : (p.Chat request).Runs trace exit) :
    BlamesTried trace ↔ ¬ExpiredFirst trace := by
  have returns (events : List (Event upstreamCalls)) (reason : String) :
      ¬(p.askChat request).Runs events (.aborted reason) := by
    intro runs
    obtain ⟨_, _, impossible⟩ := askChat_upstream asked runs
    cases impossible
  have starts {events : List (Event upstreamCalls)} {exit : Exit (Option ChatResponse × Option Err)}
      (runs : (p.askChat request).Runs events exit) := (askChat_upstream asked runs).1
  rcases chat_runs runs with refused |
    ⟨slot, permit, events, ⟨reason, tried, rfl, _⟩ | ⟨done, tried, rfl, _⟩⟩
  · obtain ⟨blames, timely⟩ := refused_blames refused
    exact iff_of_true blames timely
  · obtain ⟨tries, account⟩ := Retry.do_retried positive returns tried
    apply blames_iff account starts
    · intro other member
      simp [own] at member
    · intro captured impossible
      cases impossible
  · obtain ⟨tries, account⟩ := Retry.do_retried positive returns tried
    apply blames_iff account starts
    · intro other member
      exact ⟨done, rfl, failure_of_completion member⟩
    · intro captured same
      obtain rfl := Exit.returned.inj same
      exact ⟨List.mem_cons_self .., completion_unasked⟩

theorem chatStream_blames {trace : List (Event governedCalls)}
    {exit : Exit (Except Err (Option (Stream governedCalls)))}
    (runs : (p.ChatStream request).Runs trace exit) :
    (BlamesTried trace ↔ ¬ExpiredFirst trace) ∧ ∀ opened, exit = .returned (.ok opened) →
    Tried trace := by
  have returns (events : List (Event upstreamCalls)) (reason : String) :
      ¬(p.askStream request).Runs events (.aborted reason) := by
    intro runs
    obtain ⟨_, _, impossible⟩ := askStream_upstream asked runs
    cases impossible
  have starts {events : List (Event upstreamCalls)}
    {exit : Exit (Option (Stream upstreamCalls) × Option Err)}
    (runs : (p.askStream request).Runs events exit) := (askStream_upstream asked runs).1
  rcases chatStream_runs runs with refused |
    ⟨slot, permit, events, ⟨reason, tried, same, rfl⟩ | ⟨done, tried, ends⟩⟩
  · obtain ⟨blames, timely⟩ := refused_blames refused
    refine ⟨iff_of_true blames timely, fun opened returned => ?_⟩
    rcases refused with ⟨_, _, rfl⟩ | ⟨_, _, rfl⟩ <;> cases returned
  -- A panic of the retry loop: no `Done`, so nothing is blamed.
  · obtain ⟨tries, account⟩ := Retry.doRetained_retried positive returns tried
    rw [← List.append_nil (admitted slot permit ++ retried events)] at same
    subst same
    exact ⟨blames_iff account starts nofun nofun, nofun⟩
  · obtain ⟨tries, account⟩ := Retry.doRetained_retried positive returns tried
    rcases ends with ⟨err, failed, rfl, rfl⟩ | ⟨once, success, rfl, rfl⟩
    · refine ⟨blames_iff account starts ?_ ?_, nofun⟩
      · intro other member
        exact ⟨done, rfl, failed ▸ failure_of_completion member⟩
      · intro captured same
        obtain rfl := Exit.returned.inj same
        obtain rfl := Option.some.inj failed
        exact ⟨List.mem_cons_self .., completion_unasked⟩
    -- An opened stream: its permit is completed later, by the stream.
    · constructor
      · apply blames_iff account starts
        · intro other member
          cases List.mem_singleton.mp member
        · intro captured same
          obtain rfl := Exit.returned.inj same
          cases success
      · intro opened _
        obtain ⟨t, member, _⟩ := account.concluded.success.mp success
        obtain ⟨event, inside, invoked⟩ := tried_of_attempt account starts
          (List.ne_nil_of_mem (List.mem_of_mem_getLast? member))
        exact ⟨event, List.mem_append_left _ (List.mem_append_right _ inside), invoked⟩

end Calls

/-- A permit is completed with a failure only if the inner provider was invoked,
unless the deadline of the caller has passed before the first attempt. -/
theorem failure_only_when_tried {name : String} {options : Retry.Options} {policy : Retry.Policy}
    {p : Provider upstreamCalls} (accepted : Retry.New options = .ok policy)
    (built : NewProvider name upstream policy = .ok p) (request : ChatRequest) :
    (∀ {trace exit}, (p.Chat request).Runs trace exit → (BlamesTried trace ↔ ¬ExpiredFirst trace)) ∧
    ∀ {trace exit}, (p.ChatStream request).Runs trace exit →
    (BlamesTried trace ↔ ¬ExpiredFirst trace) ∧ ∀ opened, exit = .returned (.ok opened) →
    Tried trace := by
  obtain ⟨asked, rfl⟩ := newProvider_fields built
  have positive := Retry.positive_of_new accepted
  refine ⟨fun runs => ?_, fun runs => ?_⟩
  · exact chat_blames asked positive runs
  · exact chatStream_blames asked positive runs

def samplePolicy : Retry.Policy := ⟨⟨2, 1, 1, 1, false⟩⟩

def sampleProvider : Provider upstreamCalls := ⟨"upstream", upstream, samplePolicy⟩

def sampleRequest : ChatRequest := ⟨"m", [], none, none, none, false⟩

def serverError : Err := .upstream ⟨"upstream", "chat", .httpStatus, 500, false⟩ none

/-- A call that upstream answers with an error that is not retried. -/
def answered500 : List (Event governedCalls) :=
  [own .acquire (.ok 0), own .allow (some 0), own (.retry .ctxErr) none, own (.retry .withTimeout)
    (0 : Nat), ⟨.inr (.chat sampleRequest), .error serverError⟩,
    own (.retry (.onAttempt 1 (some serverError))) (), own (.retry (.cancel 0)) (),
    own (.retry .ctxErr) none, own (.done 0 .failure) (), own (.release 0) ()]

theorem failure_only_when_tried_answered :
    own (.done 0 .failure) () ∈ answered500 ∧ BlamesTried answered500 := by
  have runs : (sampleProvider.Chat sampleRequest).Runs answered500
      (.returned (.error serverError)) := by
    repeat' apply Program.Leads.step
    exact .refl _
  have accepted : Retry.New ⟨2, 1, 1, 1, false⟩ = .ok samplePolicy := rfl
  have built : NewProvider "upstream" upstream samplePolicy = .ok sampleProvider := rfl
  refine ⟨by simp [answered500],
    ((failure_only_when_tried accepted built sampleRequest).1 runs).mpr ?_⟩
  rintro ⟨slot, permit, rest, same⟩
  cases (List.cons.inj (List.cons.inj (List.cons.inj same).2).2).1

/-- A call whose deadline passes between the breaker and the first attempt. -/
def queuedTooLong : List (Event governedCalls) :=
  admitted 0 0 ++ [own (.retry .ctxErr) (some .deadlineExceeded)] ++ completion 0 0 .failure

theorem not_failure_only_when_tried : Retry.New ⟨2, 1, 1, 1, false⟩ = .ok samplePolicy ∧
    NewProvider "upstream" upstream samplePolicy = .ok sampleProvider ∧
    (sampleProvider.Chat sampleRequest).Runs queuedTooLong
      (.returned (.error (.ofContext .deadlineExceeded))) ∧ ¬BlamesTried queuedTooLong := by
  refine ⟨rfl, rfl, ?_, ?_⟩
  · repeat' apply Program.Leads.step
    exact .refl _
  · intro blames
    obtain ⟨event, member, invoked⟩ := blames ⟨0, by simp [queuedTooLong, completion]⟩
    simp only [queuedTooLong, admitted, completion, List.cons_append, List.nil_append,
      List.mem_cons, List.not_mem_nil, or_false] at member
    rcases member with rfl | rfl | rfl | rfl | rfl <;> cases invoked

end ModelGate.Governance
