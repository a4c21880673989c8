import ModelGate.Governance.Provider
import ModelGate.Retry.Account

/-! The attempts of one call on a governed provider. -/

set_option autoImplicit false

namespace ModelGate.Governance

open Semantics ModelGate.Provider

variable {T : Signature}

def own (op : Effect) (reply : effects.Reply op) : Event (effects.sum T) := ⟨.inl op, reply⟩

/-- What the retry policy does for a governed provider. -/
def retried (events : List (Event (Retry.effects.sum T))) : List (Event (effects.sum T)) :=
  events.map (Event.along (retrying T))

theorem assigned_value {α : Type} {name operation message : String} {answer : Except Err (Option α)}
    (success : (assigned name operation message answer).2 = none) :
    ∃ value, (assigned name operation message answer).1 = some value := by
  match answer with
  | .error err => cases success
  | .ok none => cases success
  | .ok (some value) => exact ⟨value, rfl⟩

theorem of_assigned {α : Type} {name operation message : String} {answer : Except Err (Option α)}
    {value : α} (success : assigned name operation message answer = (some value, none)) :
    answer = .ok (some value) := by
  match answer with
  | .error err => cases success
  | .ok none => cases success
  | .ok (some _) =>
      cases success
      rfl

theorem assigned_runs {α : Type} {name operation message : String}
    {inner : Program T (Except Err (Option α))} {events : List (Event T)}
    {exit : Exit (Option α × Option Err)}
    (runs : (inner >>= fun answer => .done (assigned name operation message answer)).Runs
      events exit) :
    (∃ reason, inner.Runs events (.aborted reason) ∧ exit = .aborted reason) ∨
    ∃ answer, inner.Runs events (.returned answer) ∧
    exit = .returned (assigned name operation message answer) := by
  rcases runs.bind with ⟨early, late, answer, rfl, asked, ends⟩ | ⟨reason, stuck, rfl⟩
  · obtain ⟨rfl, rfl⟩ := Program.runs_done.mp ends
    rw [List.append_nil]
    exact .inr ⟨answer, asked, rfl⟩
  · exact .inl ⟨reason, stuck, rfl⟩

section Calls

variable {p : Provider T} {request : ChatRequest}

/-- What comes before the attempts: the semaphore or the breaker may refuse. -/
def admitted (slot permit : Nat) : List (Event (effects.sum T)) :=
  [own .acquire (.ok slot), own .allow (some permit)]

def Refused {β : Type} (trace : List (Event (effects.sum T))) (exit : Exit (Except Err β)) : Prop :=
  (∃ ended, trace = [own .acquire (.error ended)] ∧ exit = .returned (.error (.ofContext ended))) ∨
    ∃ slot, trace = [own .acquire (.ok slot), own .allow none, own (.release slot) ()] ∧
    exit = .returned (.error .errOpen)

theorem answered_silent {done : Retry.Done ChatResponse} {trace : List (Event (effects.sum T))}
    {exit : Exit (Except Err (Option ChatResponse))} (runs : (p.answered done).Runs trace exit) :
    trace = [] := by
  obtain ⟨_, err, captured⟩ := done
  match err, captured with
  | some _, _ => exact (Program.runs_done.mp runs).1
  | none, none => exact (Program.runs_abort.mp runs).1
  | none, some _ => exact (Program.runs_done.mp runs).1

/-- One call of `Chat`, from the semaphore to the deferred release. -/
theorem chat_runs {trace : List (Event (effects.sum T))}
    {exit : Exit (Except Err (Option ChatResponse))} (runs : (p.Chat request).Runs trace exit) :
    Refused trace exit ∨
    ∃ slot permit events, (∃ reason, (p.retry.Do (some IsRetryable) (p.askChat request)).Runs events
        (.aborted reason) ∧
      trace = admitted slot permit ++ retried events ++ [own (.release slot) ()] ∧
      exit = .aborted reason) ∨
    ∃ done, (p.retry.Do (some IsRetryable) (p.askChat request)).Runs events (.returned done) ∧
    trace = admitted slot permit ++ retried events ++
      [own (.done permit (circuitOutcome done.err)) (), own (.release slot) ()] ∧
    (p.answered done).Runs [] exit := by
  obtain ⟨acquired, rest, rfl, goes⟩ := Program.Runs.call runs
  cases acquired with
  | error ended =>
      obtain ⟨rfl, rfl⟩ := Program.runs_done.mp goes
      exact .inl (.inl ⟨ended, rfl, rfl⟩)
  | ok slot =>
      -- The release of the semaphore is deferred: whatever the body does, it comes last.
      obtain ⟨early, late, first, rfl, body, releases⟩ := goes.ensuring
      obtain ⟨_, none', rfl, ends⟩ := Program.Runs.call releases
      obtain ⟨rfl, rfl⟩ := Program.runs_exit ends
      obtain ⟨allowed, later, rfl, permitted⟩ := Program.Runs.call body
      cases allowed with
      | none =>
          obtain ⟨rfl, rfl⟩ := Program.runs_done.mp permitted
          exact .inl (.inr ⟨slot, rfl, rfl⟩)
      | some permit =>
          right
          rcases permitted.bind with ⟨attempts, after, done, rfl, inner, completes⟩ |
            ⟨reason, inner, rfl⟩
          · obtain ⟨events, rfl, tried⟩ := inner.along
            obtain ⟨_, answers, rfl, answered⟩ := Program.Runs.call completes
            obtain rfl := answered_silent answered
            refine ⟨slot, permit, events, .inr ⟨done, tried, ?_, answered⟩⟩
            simp only [admitted, retried, own, List.append_assoc, List.cons_append, List.nil_append]
          · obtain ⟨events, rfl, tried⟩ := inner.along
            exact ⟨slot, permit, events, .inl ⟨reason, tried, rfl, rfl⟩⟩

/-- One call of `ChatStream`. A panic leaves the slot and the permit behind. -/
theorem chatStream_runs {trace : List (Event (effects.sum T))}
    {exit : Exit (Except Err (Option (Stream (effects.sum T))))}
    (runs : (p.ChatStream request).Runs trace exit) :
    Refused trace exit ∨
    ∃ slot permit events,
    (∃ reason, (p.retry.DoRetained (some IsRetryable) (p.askStream request)).Runs events
        (.aborted reason) ∧
      trace = admitted slot permit ++ retried events ∧ exit = .aborted reason) ∨
    ∃ done, (p.retry.DoRetained (some IsRetryable) (p.askStream request)).Runs events
        (.returned done) ∧
      ((∃ err, done.err = some err ∧
          trace = admitted slot permit ++ retried events ++
            [own (.done permit (circuitOutcome (some err))) (), own (.release slot) ()] ∧
          exit = .returned (.error err)) ∨
        ∃ once, done.err = none ∧
          trace = admitted slot permit ++ retried events ++
            [own (.newStream permit slot done.cancel) once] ∧
          exit = .returned (.ok (some (Managed.stream
            ⟨p.name, done.captured, permit, slot, done.cancel, once⟩)))) := by
  obtain ⟨acquired, rest, rfl, goes⟩ := Program.Runs.call runs
  cases acquired with
  | error ended =>
      obtain ⟨rfl, rfl⟩ := Program.runs_done.mp goes
      exact .inl (.inl ⟨ended, rfl, rfl⟩)
  | ok slot =>
      obtain ⟨allowed, later, rfl, permitted⟩ := Program.Runs.call goes
      cases allowed with
      | none =>
          obtain ⟨_, after, rfl, ends⟩ := Program.Runs.call permitted
          obtain ⟨rfl, rfl⟩ := Program.runs_done.mp ends
          exact .inl (.inr ⟨slot, rfl, rfl⟩)
      | some permit =>
          right
          rcases permitted.bind with ⟨attempts, after, done, rfl, inner, completes⟩ |
            ⟨reason, inner, rfl⟩
          -- Nothing is deferred here: a failed opening completes and releases by hand.
          · obtain ⟨events, rfl, tried⟩ := inner.along
            obtain ⟨cancel, err, captured⟩ := done
            refine ⟨slot, permit, events, .inr ⟨_, tried, ?_⟩⟩
            cases err with
            | some err =>
                obtain ⟨_, releases, rfl, released⟩ := Program.Runs.call completes
                obtain ⟨_, returns, rfl, ends⟩ := Program.Runs.call released
                obtain ⟨rfl, rfl⟩ := Program.runs_done.mp ends
                exact .inl ⟨err, rfl, rfl, rfl⟩
            | none =>
                obtain ⟨once, returns, rfl, ends⟩ := Program.Runs.call completes
                obtain ⟨rfl, rfl⟩ := Program.runs_done.mp ends
                exact .inr ⟨once, rfl, rfl, rfl⟩
          · obtain ⟨events, rfl, tried⟩ := inner.along
            exact ⟨slot, permit, events, .inl ⟨reason, tried, rfl, rfl⟩⟩

end Calls

/-! What a call makes of its attempts -/

section Answers

variable {p : Provider T} {request : ChatRequest} (positive : 0 < p.retry.options.maxAttempts)

theorem asked_returns {α : Type} {name operation message : String}
    {inner : Program T (Except Err (Option α))}
    (returns : ∀ events reason, ¬inner.Runs events (.aborted reason)) (events : List (Event T))
    (reason : String) :
    ¬(inner >>= fun answer => .done (assigned name operation message answer)).Runs events
      (.aborted reason) := by
  intro runs
  rcases assigned_runs runs with ⟨_, stuck, _⟩ | ⟨_, _, impossible⟩
  · exact returns _ _ stuck
  · cases impossible

theorem captured_of_success {α : Type} {name operation message : String}
    {inner : Program T (Except Err (Option α))} {shouldRetry : Option (Err → Bool)}
    {retainSuccess : Bool} {events : List (Event (Retry.effects.sum T))} {done : Retry.Done α}
    {tries : List (Retry.Try T α)}
    (retried : Retry.Retried p.retry shouldRetry
      (inner >>= fun answer => .done (assigned name operation message answer)) retainSuccess events
      (.returned done) tries)
    (success : done.err = none) : ∃ value, done.captured = some value := by
  obtain ⟨t, member, succeeded, captured⟩ := retried.concluded.captured success
  rcases assigned_runs (retried.runs t (List.mem_of_mem_getLast? member)) with ⟨_, _, impossible⟩ |
    ⟨answer, _, same⟩
  · cases impossible
  · obtain ⟨values, errors⟩ := Prod.mk.inj (Exit.returned.inj same)
    rw [captured, values]
    rw [succeeded] at errors
    exact assigned_value errors.symm

def usageOf : Except Err (Option ChatResponse) → List ChatUsage
  | .error _ => []
  | .ok none => []
  | .ok (some response) => [response.usage]

def usageAt : Exit (Except Err (Option ChatResponse)) → List ChatUsage
  | .returned answer => usageOf answer
  | .aborted _ => []

theorem retried_filterMap {γ : Type} (sees : Event T → Option γ)
    (events : List (Event (Retry.effects.sum T))) :
    (retried events).filterMap (behind sees) = (events.filterMap Retry.invokes).filterMap sees := by
  rw [retried, List.filterMap_map, List.filterMap_filterMap]
  congr 1
  funext ⟨op, reply⟩
  cases op <;> rfl

section Replies

variable {sees : Event T → Option ChatUsage} {name operation message : String}
  {inner : Program T (Except Err (Option ChatResponse))}
  (replies : ∀ {events answer}, inner.Runs events (.returned answer) →
    events.filterMap sees = usageOf answer)
include replies

theorem attempt_failed {t : Retry.Try T ChatResponse}
    (runs : (inner >>= fun answer => .done (assigned name operation message answer)).Runs t.events
      (.returned (t.value, t.err))) (failed : t.err ≠ none) : t.events.filterMap sees = [] := by
  rcases assigned_runs runs with ⟨_, _, impossible⟩ | ⟨answer, asked, same⟩
  · cases impossible
  · rw [replies asked]
    match answer, same with
    | .error _, _ | .ok none, _ => rfl
    | .ok (some _), same => exact absurd (Prod.mk.inj (Exit.returned.inj same)).2 failed

theorem retried_replies {shouldRetry : Option (Err → Bool)} {retainSuccess : Bool}
    {events : List (Event (Retry.effects.sum T))} {exit : Exit (Retry.Done ChatResponse)}
    {tries : List (Retry.Try T ChatResponse)} {last : Retry.Try T ChatResponse}
    (account : Retry.Retried p.retry shouldRetry
      (inner >>= fun answer => .done (assigned name operation message answer)) retainSuccess events
      exit tries)
    (final : last ∈ tries.getLast?) :
    (retried events).filterMap (behind sees) = last.events.filterMap sees := by
  have earlier : tries.dropLast.flatMap (fun t => t.events.filterMap sees) = [] := by
    rw [List.flatMap_eq_nil_iff]
    intro t member
    obtain ⟨err, failed, -⟩ := account.retried t member
    exact attempt_failed replies (account.runs t (List.mem_of_mem_dropLast member))
      (by simp [failed])
  rw [retried_filterMap, account.invoked, List.filterMap_flatMap,
    ← List.dropLast_append_getLast? last final, List.flatMap_append, earlier]
  simp

end Replies

include positive

/-- `Chat` panics in the jitter only. -/
theorem chat_aborts
    (returns : ∀ events reason, ¬(p.inner.Chat request).Runs events (.aborted reason))
    {trace : List (Event (effects.sum T))} {reason : String}
    (runs : (p.Chat request).Runs trace (.aborted reason)) :
    reason = Retry.jitterPanic ∧ ¬p.retry.Steady := by
  rcases chat_runs runs with refused |
    ⟨slot, permit, events, ⟨_, tried, _, same⟩ | ⟨done, tried, _, answered⟩⟩
  · rcases refused with ⟨_, _, impossible⟩ | ⟨_, _, impossible⟩ <;> cases impossible
  · obtain rfl := Exit.aborted.inj same
    rw [askChat_eq] at tried
    obtain ⟨_, retried⟩ := Retry.do_retried positive (asked_returns returns) tried
    exact ⟨retried.concluded.1, retried.concluded.2.1⟩
  · rw [askChat_eq] at tried
    obtain ⟨_, retried⟩ := Retry.do_retried positive (asked_returns returns) tried
    obtain ⟨cancel, err, captured⟩ := done
    cases err with
    | some err => cases (Program.runs_done.mp answered).2
    | none =>
        obtain ⟨response, some'⟩ := captured_of_success retried rfl
        obtain rfl : captured = some response := some'
        cases (Program.runs_done.mp answered).2

/-- A call of `Chat` gets one response from the inner provider if it returns one, and none
otherwise. -/
theorem chat_replies {sees : Event T → Option ChatUsage}
    (returns : ∀ events reason, ¬(p.inner.Chat request).Runs events (.aborted reason))
    (replies : ∀ {events answer}, (p.inner.Chat request).Runs events (.returned answer) →
      events.filterMap sees = usageOf answer)
    {trace : List (Event (effects.sum T))} {exit : Exit (Except Err (Option ChatResponse))}
    (runs : (p.Chat request).Runs trace exit) : trace.filterMap (behind sees) = usageAt exit := by
  have brackets (slot permit : Nat) :
    (admitted (T := T) slot permit).filterMap (behind sees) = [] := rfl
  have unseen {op : Effect} {reply : effects.Reply op} {rest : List (Event (effects.sum T))} :
      (own op reply :: rest).filterMap (behind sees) = rest.filterMap (behind sees) := rfl
  rcases chat_runs runs with refused |
    ⟨slot, permit, events, ⟨_, tried, rfl, rfl⟩ | ⟨done, tried, rfl, answered⟩⟩
  · rcases refused with ⟨_, rfl, rfl⟩ | ⟨_, rfl, rfl⟩ <;> rfl
  · rw [askChat_eq] at tried
    obtain ⟨tries, retried⟩ := Retry.do_retried positive (asked_returns returns) tried
    obtain ⟨-, -, -, t, last, failed⟩ := retried.concluded
    rw [List.filterMap_append, List.filterMap_append, brackets,
      retried_replies replies retried last, unseen]
    rw [attempt_failed replies (retried.runs t (List.mem_of_mem_getLast? last)) failed]
    rfl
  · rw [askChat_eq] at tried
    obtain ⟨tries, retried⟩ := Retry.do_retried positive (asked_returns returns) tried
    rw [List.filterMap_append, List.filterMap_append, brackets, unseen, unseen, List.filterMap_nil,
      List.append_nil, List.nil_append]
    obtain ⟨cancel, err, captured⟩ := done
    cases err with
    | some err =>
        obtain ⟨-, rfl⟩ := Program.runs_done.mp answered
        cases final : tries.getLast? with
        | none =>
            -- No attempt was made.
            rw [retried_filterMap, retried.invoked, List.getLast?_eq_none_iff.mp final]
            rfl
        | some t =>
            have failed : t.err ≠ none :=
              fun success => by cases retried.concluded.success.mpr ⟨t, final, success⟩
            rw [retried_replies replies retried final]
            exact attempt_failed replies (retried.runs t (List.mem_of_mem_getLast? final)) failed
    | none =>
        obtain ⟨t, last, success, value⟩ := retried.concluded.captured rfl
        obtain rfl : captured = t.value := value
        rw [retried_replies replies retried last]
        rcases assigned_runs (retried.runs t (List.mem_of_mem_getLast? last)) with
          ⟨_, _, impossible⟩ | ⟨answer, asked, same⟩
        · cases impossible
        · obtain ⟨values, errors⟩ := Prod.mk.inj (Exit.returned.inj same)
          rw [success] at errors
          obtain ⟨response, assigns⟩ := assigned_value errors.symm
          obtain rfl := of_assigned (Prod.ext assigns errors.symm)
          rw [values] at answered
          obtain ⟨-, rfl⟩ := Program.runs_done.mp answered
          exact replies asked

theorem chatStream_returns
    (returns : ∀ events reason, ¬(p.inner.ChatStream request).Runs events (.aborted reason))
    {trace : List (Event (effects.sum T))} {opened : Option (Stream (effects.sum T))}
    (runs : (p.ChatStream request).Runs trace (.returned (.ok opened))) :
    ∃ m : Managed T, opened = some m.stream ∧ m.inner.isSome = true ∧ m.cancel.isSome = true := by
  rcases chatStream_runs runs with refused |
    ⟨slot, permit, events, ⟨_, _, _, impossible⟩ | ⟨done, tried, ends⟩⟩
  · rcases refused with ⟨_, _, impossible⟩ | ⟨_, _, impossible⟩ <;> cases impossible
  · cases impossible
  · rcases ends with ⟨_, _, _, impossible⟩ | ⟨once, success, _, same⟩
    · cases impossible
    · rw [askStream_eq] at tried
      obtain ⟨_, retried⟩ := Retry.doRetained_retried positive (asked_returns returns) tried
      obtain ⟨stream, captured⟩ := captured_of_success retried success
      obtain ⟨t, _, cancel, _⟩ := retried.concluded.retained rfl success
      obtain rfl := Except.ok.inj (Exit.returned.inj same)
      refine ⟨_, rfl, ?_, ?_⟩
      · exact captured ▸ rfl
      · exact cancel ▸ rfl

end Answers

/-- For every accepted policy: `Do` and `DoRetained` retry as they should, and
what `Chat` and `ChatStream` take from a success is never nil. -/
theorem retry_loop_semantics {α : Type} {options : Retry.Options} {policy : Retry.Policy}
    (accepted : Retry.New options = .ok policy) :
    (∀ (shouldRetry : Option (Err → Bool)) {operation : Program T (Option α × Option Err)},
      (∀ events reason, ¬operation.Runs events (.aborted reason)) → ∀ {trace exit},
      ((policy.Do shouldRetry operation).Runs trace exit →
        ∃ tries, Retry.Retried policy shouldRetry operation false trace exit tries) ∧
      ((policy.DoRetained shouldRetry operation).Runs trace exit →
        ∃ tries, Retry.Retried policy shouldRetry operation true trace exit tries)) ∧
    ∀ {p : Provider T}, p.retry = policy → ∀ {request : ChatRequest},
    ((∀ events reason, ¬(p.inner.Chat request).Runs events (.aborted reason)) → ∀ {trace reason},
      (p.Chat request).Runs trace (.aborted reason) → reason = Retry.jitterPanic ∧ ¬policy.Steady) ∧
    ((∀ events reason, ¬(p.inner.ChatStream request).Runs events (.aborted reason)) →
      ∀ {trace opened}, (p.ChatStream request).Runs trace (.returned (.ok opened)) →
      ∃ m : Managed T, opened = some m.stream ∧ m.inner.isSome = true ∧
      m.cancel.isSome = true) := by
  have positive := Retry.positive_of_new accepted
  refine ⟨fun shouldRetry operation returns trace exit => ?_, ?_⟩
  · exact ⟨Retry.do_retried positive returns, Retry.doRetained_retried positive returns⟩
  · rintro p rfl request
    refine ⟨fun returns trace reason runs => ?_, fun returns trace opened runs => ?_⟩
    · exact chat_aborts positive returns runs
    · exact chatStream_returns positive returns runs

/-- An operation that is answered with its results. -/
abbrev attempts : Signature := ⟨Unit, fun _ => Option Nat × Option Err⟩

def rateLimited : Err := .upstream ⟨"upstream", "chat", .httpStatus, 429, true⟩ none

def secondAttempt : List (Event (Retry.effects.sum attempts)) :=
  [⟨.inl .ctxErr, none⟩, ⟨.inl .withTimeout, (0 : Nat)⟩, ⟨.inr (), (none, some rateLimited)⟩,
    ⟨.inl (.onAttempt 1 (some rateLimited)), ()⟩, ⟨.inl (.cancel 0), ()⟩, ⟨.inl .ctxErr, none⟩,
    ⟨.inl (.int64N 2), (0 : Int)⟩, ⟨.inl .ctxErr, none⟩, ⟨.inl .withTimeout, (1 : Nat)⟩,
    ⟨.inr (), (some 7, none)⟩, ⟨.inl (.onAttempt 2 none), ()⟩]

theorem retry_loop_semantics_second : ∃ tries, Retry.Retried ⟨⟨2, 1, 1, 1, false⟩⟩
    (some IsRetryable) (.call (S := attempts) ()) true secondAttempt
    (.returned ⟨some 1, none, some 7⟩) tries := by
  have accepted : Retry.New ⟨2, 1, 1, 1, false⟩ = .ok ⟨⟨2, 1, 1, 1, false⟩⟩ := rfl
  have returns (events : List (Event attempts)) (reason : String) :
      ¬(Program.call (S := attempts) ()).Runs events (.aborted reason) := by
    intro runs
    obtain ⟨_, _, _, ends⟩ := Program.runs_perform.mp runs
    cases (Program.runs_done.mp ends).2
  refine ((retry_loop_semantics accepted).1 (some IsRetryable) returns).2 ?_
  repeat' apply Program.Leads.step
  exact .refl _

end ModelGate.Governance
