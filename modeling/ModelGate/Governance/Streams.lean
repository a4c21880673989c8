import ModelGate.Governance.Attempts
import ModelGate.Provider.Upstream

/-! Executions of the calls on a managed stream, and of the call that opens one. -/

set_option autoImplicit false

namespace ModelGate.Governance

open Semantics Program ModelGate.Provider

variable {T : Signature} {α : Type} {trace : List (Event (effects.sum T))} {exit : Exit α}

def passed (events : List (Event T)) : List (Event (effects.sum T)) :=
  events.map (Event.along (.inr effects T))

namespace Managed

variable {m : Managed T} {cancel : Nat}

/-- The `once` of a managed stream either is spent or completes the permit. -/
def Finished (m : Managed T) (cancel : Nat) (outcome : CircuitBreaker.Outcome)
    (events : List (Event (effects.sum T))) : Prop :=
  events = [own (.enterOnce m.once) false] ∨
    events = [own (.enterOnce m.once) true, own (.retry (.cancel cancel)) (),
      own (.done m.circuit outcome) (), own (.release m.concurrency) (), own (.leaveOnce m.once) ()]

/-- What a received error means for the breaker. -/
def Ended (m : Managed T) (cancel : Nat) (err : Option Err)
    (events : List (Event (effects.sum T))) : Prop :=
  match receivedOutcome err with
  | none => events = []
  | some outcome => m.Finished cancel outcome events

section Calls

variable (cancels : m.cancel = some cancel)
include cancels

theorem finishing_runs {outcome : CircuitBreaker.Outcome} {exit : Exit Unit}
    (runs : (Program.ensuring (do
      m.callCancel
      effect (.done m.circuit outcome)
      effect (.release m.concurrency)) (effect (.leaveOnce m.once))).Runs trace exit) :
    trace = [own (.retry (.cancel cancel)) (), own (.done m.circuit outcome) (),
      own (.release m.concurrency) (),
      own (.leaveOnce m.once) ()] ∧ exit = .returned () := by
  rw [callCancel, cancels] at runs
  obtain ⟨inside, leaving, first, rfl, works, leaves⟩ := runs.ensuring
  obtain ⟨_, nothing, rfl, ends⟩ := Runs.call leaves
  obtain ⟨rfl, rfl⟩ := runs_exit ends
  obtain ⟨_, completes, rfl, completing⟩ := Runs.call works
  obtain ⟨_, releases, rfl, releasing⟩ := Runs.call completing
  obtain ⟨_, last, rfl, halts⟩ := runs_perform.mp releasing
  obtain ⟨rfl, rfl⟩ := runs_done.mp halts
  exact ⟨rfl, rfl⟩

theorem finish_runs {outcome : CircuitBreaker.Outcome} {next : Unit → Program (effects.sum T) α}
    (runs : (m.finish outcome >>= next).Runs trace exit) :
    ∃ finished rest, trace = finished ++ rest ∧ m.Finished cancel outcome finished ∧
    (next ()).Runs rest exit := by
  rw [finish, onceDo, bind_assoc] at runs
  obtain ⟨first, later, rfl, goes⟩ := Runs.call runs
  cases first with
  | false => exact ⟨[own (.enterOnce m.once) false], later, rfl, .inl rfl, goes⟩
  | true =>
      rcases Runs.bind goes with ⟨body, rest, _, rfl, works, left⟩ | ⟨reason, stuck, -⟩
      · obtain ⟨rfl, -⟩ := finishing_runs cancels works
        exact ⟨_, rest, rfl, .inr rfl, left⟩
      · cases (finishing_runs cancels stuck).2

theorem noteEnd_runs {err : Option Err} {next : Unit → Program (effects.sum T) α}
    (runs : (m.noteEnd err >>= next).Runs trace exit) :
    ∃ ended rest, trace = ended ++ rest ∧ m.Ended cancel err ended ∧ (next ()).Runs rest exit := by
  rw [noteEnd] at runs
  unfold Ended
  cases outcome : receivedOutcome err with
  | none =>
      rw [outcome] at runs
      exact ⟨[], trace, rfl, rfl, runs⟩
  | some outcome' =>
      rw [outcome] at runs
      exact finish_runs cancels runs

variable {inner : Stream T} (wraps : m.inner = some inner)
include wraps

theorem recv_runs (returns : ∀ events reason, ¬inner.Recv.Runs events (.aborted reason))
    {exit : Exit (Option ChatStreamChunk × Option Err)} (runs : m.stream.Recv.Runs trace exit) :
    ∃ received events ended, inner.Recv.Runs events (.returned received) ∧
    m.Ended cancel received.2 ended ∧ trace = passed events ++ ended ∧
    exit = .returned received := by
  simp only [stream, Recv, wraps] at runs
  obtain ⟨events, received, rest, heard, rfl, goes⟩ := Runs.along_bind returns runs
  obtain ⟨ended, last, rfl, settled, halts⟩ := noteEnd_runs cancels goes
  obtain ⟨rfl, rfl⟩ := runs_done.mp halts
  exact ⟨received, events, ended, heard, settled, by rw [List.append_nil]; rfl, rfl⟩

theorem close_runs (returns : ∀ events reason, ¬inner.Close.Runs events (.aborted reason))
    {exit : Exit (Option Err)} (runs : m.stream.Close.Runs trace exit) :
    ∃ failed events ended, inner.Close.Runs events (.returned failed) ∧
    m.Finished cancel (closedOutcome failed) ended ∧ trace = passed events ++ ended ∧
    exit = .returned failed := by
  simp only [stream, Close, wraps] at runs
  obtain ⟨events, failed, rest, closed, rfl, goes⟩ := Runs.along_bind returns runs
  obtain ⟨ended, last, rfl, settled, halts⟩ := finish_runs cancels goes
  obtain ⟨rfl, rfl⟩ := runs_done.mp halts
  exact ⟨failed, events, ended, closed, settled, by rw [List.append_nil]; rfl, rfl⟩

end Calls

end Managed

/-! Opening a stream upstream -/

section Opening

variable {p : Provider upstreamCalls} (asked : p.inner = upstream)
  (positive : 0 < p.retry.options.maxAttempts) {request : ChatRequest}
  {trace : List (Event (effects.sum upstreamCalls))}
include asked positive

omit positive in
theorem askStream_runs {events : List (Event upstreamCalls)}
    {exit : Exit (Option (Stream upstreamCalls) × Option Err)}
    (runs : (p.askStream request).Runs events exit) :
    ∃ answer, events = [⟨.chatStream request, answer⟩] ∧
    ∀ stream, exit = .returned (some stream, none) →
    ∃ source name, stream = upstreamStream source name := by
  unfold Provider.askStream at runs
  rw [asked] at runs
  obtain ⟨answer, rest, rfl, goes⟩ := runs_perform.mp runs
  match answer, goes with
  | .error err, goes =>
      obtain ⟨rfl, rfl⟩ := runs_done.mp goes
      exact ⟨_, rfl, nofun⟩
  | .ok none, goes =>
      obtain ⟨rfl, rfl⟩ := runs_done.mp goes
      exact ⟨_, rfl, nofun⟩
  | .ok (some (source, name)), goes =>
      obtain ⟨rfl, rfl⟩ := runs_done.mp goes
      refine ⟨_, rfl, fun stream same => ?_⟩
      cases same
      exact ⟨source, name, rfl⟩

theorem attempts_runs {events : List (Event (Retry.effects.sum upstreamCalls))}
    {exit : Exit (Retry.Done (Stream upstreamCalls))}
    (runs : (p.retry.DoRetained (some IsRetryable) (p.askStream request)).Runs events exit) :
    (∀ op reply, (⟨.inr op, reply⟩ : Event (Retry.effects.sum upstreamCalls)) ∈ events →
      op = .chatStream request) ∧ ∀ done, exit = .returned done → done.err = none →
    (∃ source name, done.captured = some (upstreamStream source name)) ∧
    ∃ cancel, done.cancel = some cancel ∧ Retry.own .withTimeout cancel ∈ events := by
  have returns (events : List (Event upstreamCalls)) (reason : String) :
      ¬(p.askStream request).Runs events (.aborted reason) := by
    intro stuck
    rw [askStream_eq, asked] at stuck
    refine asked_returns (fun events reason stuck => ?_) _ _ stuck
    obtain ⟨answer, rest, rfl, goes⟩ := Runs.call stuck
    cases (runs_done.mp goes).2
  obtain ⟨tries, retried⟩ := Retry.doRetained_retried positive returns runs
  constructor
  · intro op reply member
    have invoked : (⟨op, reply⟩ : Event upstreamCalls) ∈ tries.flatMap Retry.Try.events := by
      rw [← retried.invoked]
      exact List.mem_filterMap.mpr ⟨_, member, rfl⟩
    obtain ⟨t, inside, among⟩ := List.mem_flatMap.mp invoked
    obtain ⟨answer, single, -⟩ := askStream_runs asked (retried.runs t inside)
    rw [single] at among
    cases List.mem_singleton.mp among
    rfl
  · rintro done rfl success
    obtain ⟨t, last, succeeded, captured⟩ := retried.concluded.captured success
    have tried := retried.runs t (List.mem_of_mem_getLast? last)
    rw [succeeded] at tried
    constructor
    -- A successful attempt assigned the stream it was given.
    · have value : ∃ stream, t.value = some stream := by
        rw [askStream_eq] at tried
        rcases assigned_runs tried with ⟨_, _, impossible⟩ | ⟨answer, _, same⟩
        · cases impossible
        · obtain ⟨values, errors⟩ := Prod.mk.inj (Exit.returned.inj same)
          rw [values]
          exact assigned_value errors.symm
      obtain ⟨stream, value⟩ := value
      rw [value] at tried
      obtain ⟨_, -, streams⟩ := askStream_runs asked tried
      obtain ⟨source, name, same⟩ := streams stream rfl
      exact ⟨source, name, by rw [captured, value, same]⟩
    · obtain ⟨other, final, cancel, _⟩ := retried.concluded.retained rfl success
      have opened : other.context ∈ events.filterMap Retry.opens := by
        rw [retried.contexts]
        exact List.mem_map_of_mem (List.mem_of_mem_getLast? final)
      exact ⟨_, cancel, Retry.mem_of_opens opened⟩

end Opening

end ModelGate.Governance
