import ModelGate.Governance.Provider
import ModelGate.Retry.Rules

/-! What one call on a governed provider or on one of its streams does with
the permits it holds. -/

set_option autoImplicit false

namespace ModelGate.Governance

open Semantics ModelGate.Provider
open CircuitBreaker (Outcome)

theorem newProvider_fields {T : Signature} {name : String}
    {inner : ModelGate.Provider.ChatProvider T} {policy : Retry.Policy} {p : Provider T}
    (built : NewProvider name inner policy = .ok p) : p.inner = inner ∧ p.retry = policy := by
  unfold NewProvider at built
  split at built
  · cases built
  · obtain rfl := Except.ok.inj built
    exact ⟨rfl, rfl⟩

/-- The operations of a governed provider over a provider upstream. -/
abbrev governedCalls : Signature := effects.sum upstreamCalls

/-- The calls a client can make. `recv` and `close` name the stream. -/
inductive Task where
  | chat (request : ChatRequest)
  | chatStream (request : ChatRequest)
  | recv (m : Managed upstreamCalls)
  | close (m : Managed upstreamCalls)

inductive Answer where
  | chat (result : Except Err (Option ChatResponse))
  | stream (result : Except Err (Option (Stream governedCalls)))
  | received (received : Option ChatStreamChunk × Option Err)
  | closed (failed : Option Err)

def Task.body (p : Provider upstreamCalls) : Task → Program governedCalls Answer
  | .chat request => do
      let result ← p.Chat request
      pure (.chat result)
  | .chatStream request => do
      let result ← p.ChatStream request
      pure (.stream result)
  | .recv m => do
      let received ← m.Recv
      pure (.received received)
  | .close m => do
      let failed ← m.Close
      pure (.closed failed)

/-- How far a call is. A call waits for a slot, tries upstream with a permit,
completes the permit and leaves, or hands both to a stream. A call on a stream
that hears the end of it runs the `once` of the stream. -/
inductive Stage where
  | waiting
  | unslotted
  | admitted (slot : Nat)
  | refused (slot : Nat)
  | trying (slot permit : Nat)
  | completed (slot permit : Nat) (outcome : Outcome)
  | left (slot : Nat) (completion : Option (Nat × Outcome))
  | handed (stream : Nat)
  | listening (m : Managed upstreamCalls)
  | heard (m : Managed upstreamCalls)
  | ended (m : Managed upstreamCalls) (outcome : Outcome)
  | entered (m : Managed upstreamCalls) (outcome : Outcome)
  | canceled (m : Managed upstreamCalls) (outcome : Outcome)
  | settled (m : Managed upstreamCalls) (outcome : Outcome)
  | vacated (m : Managed upstreamCalls) (outcome : Outcome)
  | gone (m : Managed upstreamCalls) (completion : Option Outcome)

def Task.first : Task → Stage
  | .chat _ | .chatStream _ => .waiting
  | .recv m | .close m => .listening m

namespace Stage

/-- Where hearing of the end of a stream leads. -/
def hear (m : Managed upstreamCalls) : Option Outcome → Stage
  | none => .heard m
  | some outcome => .ended m outcome

def May : Stage → governedCalls.Op → Prop
  | .waiting, .inl .acquire => True
  | .admitted _, .inl .allow => True
  | .refused slot, .inl (.release permit) => permit = slot
  | .trying _ _, .inl (.retry _) => True
  | .trying _ _, .inr (.chat _) => True
  | .trying _ _, .inr (.chatStream _) => True
  | .trying _ permit, .inl (.done circuit _) => circuit = permit
  | .trying slot permit, .inl (.newStream circuit concurrency cancel) =>
      circuit = permit ∧ concurrency = slot ∧ cancel.isSome = true
  | .completed slot _ _, .inl (.release permit) => permit = slot
  | .listening _, .inr (.recv _) => True
  | .listening _, .inr (.close _) => True
  | .ended m _, .inl (.enterOnce once) => once = m.once
  | .entered m _, .inl (.retry (.cancel cancel)) => m.cancel = some cancel
  | .canceled m outcome, .inl (.done circuit told) => circuit = m.circuit ∧ told = outcome
  | .settled m _, .inl (.release permit) => permit = m.concurrency
  | .vacated m _, .inl (.leaveOnce once) => once = m.once
  | _, _ => False

def after : Stage → (op : governedCalls.Op) → governedCalls.Reply op → Stage
  | .waiting, .inl .acquire, .ok slot => .admitted slot
  | .waiting, .inl .acquire, .error _ => .unslotted
  | .admitted slot, .inl .allow, some permit => .trying slot permit
  | .admitted slot, .inl .allow, none => .refused slot
  | .refused slot, .inl (.release _), _ => .left slot none
  | .trying slot permit, .inl (.done _ outcome), _ => .completed slot permit outcome
  | .trying _ _, .inl (.newStream _ _ _), stream => .handed stream
  | .completed slot permit outcome, .inl (.release _), _ => .left slot (some (permit, outcome))
  | .listening m, .inr (.recv _), received => hear m (Managed.receivedOutcome received.2)
  | .listening m, .inr (.close _), failed => .ended m (Managed.closedOutcome failed)
  | .ended m outcome, .inl (.enterOnce _), won => if won then .entered m outcome else .gone m none
  | .entered m outcome, .inl (.retry (.cancel _)), _ => .canceled m outcome
  | .canceled m outcome, .inl (.done _ _), _ => .settled m outcome
  | .settled m outcome, .inl (.release _), _ => .vacated m outcome
  | .vacated m outcome, .inl (.leaveOnce _), _ => .gone m (some outcome)
  | stage, _, _ => stage

end Stage

def conduct : Protocol governedCalls Stage := ⟨Stage.May, fun _ _ _ => True, Stage.after⟩

def errorOf {α : Type} : Except Err α → Option Err
  | .error err => some err
  | .ok _ => none

/-- A call that gave back what it held, and completed a permit with the outcome
of its error. -/
def Stage.Gone (err : Option Err) (stage : Stage) : Prop :=
  stage = .unslotted ∨ (∃ slot, stage = .left slot none) ∨
    ∃ slot permit, stage = .left slot (some (permit, circuitOutcome err))

def Managed.Genuine (m : Managed upstreamCalls) : Prop :=
  m.cancel.isSome = true ∧ ∃ source name, m.inner = some (upstreamStream source name)

/-- How far a call is when it ends. -/
def Concluded : Exit Answer → Stage → Prop
  | .returned (.chat result), stage => stage.Gone (errorOf result)
  | .returned (.stream (.error err)), stage => stage.Gone (some err)
  | .returned (.stream (.ok stream)), stage =>
      ∃ m : Managed upstreamCalls, stream = some m.stream ∧ stage = .handed m.once ∧ m.Genuine
  | .returned (.received received), stage => ∃ m,
      (received.2 = none ∧ stage = .heard m) ∨
      (∃ outcome, Managed.receivedOutcome received.2 = some outcome ∧
        (stage = .gone m none ∨ stage = .gone m (some outcome)))
  | .returned (.closed failed), stage => ∃ m,
      stage = .gone m none ∨ stage = .gone m (some (Managed.closedOutcome failed))
  | .aborted _, _ => False

/-- What an inner provider answers, with the phase that follows. -/
def Answers {α Phase : Type} (Q : α → Prop) (E : Err → Prop) (next : Phase) :
    Exit (Except Err (Option α)) → Phase → Prop
  | .returned answer, last =>
      last = next ∧ (∀ value, answer = .ok (some value) → Q value) ∧
        ∀ err, answer = .error err → E err
  | .aborted _, _ => False

theorem assigned_obeys {T : Signature} {α Phase : Type} {P : Protocol T Phase} {Q : α → Prop}
    {E : Err → Prop} {phase next : Phase} {inner : Program T (Except Err (Option α))}
    {name operation message : String} (answers : Obeys P (Answers Q E next) inner phase)
    (missing : E (nilResult name operation message)) :
    Obeys P (Retry.Assigns Q E next)
      (inner >>= fun answer => .done (assigned name operation message answer)) phase := by
  rw [obeys_bind]
  apply answers.mono
  intro exit last ended
  cases exit with
  | aborted reason => exact ended.elim
  | returned answer =>
      obtain ⟨rfl, values, errors⟩ := ended
      apply followed_returned.mpr
      match answer with
      | .error err =>
          refine obeys_done.mpr ⟨rfl, nofun, fun other same => ?_⟩
          obtain rfl := Option.some.inj same
          exact errors err rfl
      | .ok none =>
          refine obeys_done.mpr ⟨rfl, nofun, fun other same => ?_⟩
          obtain rfl := Option.some.inj same
          exact missing
      | .ok (some value) =>
          exact obeys_done.mpr ⟨rfl, fun _ => ⟨value, rfl, values value rfl⟩, nofun⟩

section Upstream

variable {Phase : Type} {P : Protocol upstreamCalls Phase} {phase next : Phase}
  {request : ChatRequest} {E : Err → Prop}

theorem upstream_chat_answers {Q : ChatResponse → Prop} (allowed : P.may phase (.chat request))
    (leads : ∀ reply, P.after phase (.chat request) reply = next) (values : ∀ response, Q response)
    (errors : ∀ err, P.answers phase (.chat request) (.error err) → E err) :
    Obeys P (Answers Q E next) (upstream.Chat request) phase := by
  refine obeys_call.mpr
    ⟨allowed, fun reply answered => ⟨leads reply, fun response _ => values response, ?_⟩⟩
  rintro err rfl
  exact errors err answered

theorem upstream_stream_answers {Q : Stream upstreamCalls → Prop}
    (allowed : P.may phase (.chatStream request))
    (leads : ∀ reply, P.after phase (.chatStream request) reply = next)
    (values : ∀ source name, Q (upstreamStream source name))
    (errors : ∀ err, P.answers phase (.chatStream request) (.error err) → E err) :
    Obeys P (Answers Q E next) (upstream.ChatStream request) phase := by
  refine obeys_call_bind allowed fun reply answered => obeys_done.mpr ⟨leads reply, ?_, ?_⟩
  · rintro stream same
    match reply, same with
    | .ok (some (source, name)), same =>
        cases same
        exact values source name
  · rintro err same
    match reply, answered, same with
    | .error _, answered, same =>
        cases same
        exact errors err answered

end Upstream

section Obedience

variable {p : Provider upstreamCalls} (asked : p.inner = upstream) {slot permit : Nat}

theorem conduct_retry (_ : Nat) (op : Retry.Effect) :
    (conduct.along (retrying upstreamCalls)).Ignores (.trying slot permit) (.inl op) := by
  constructor
  · trivial
  · intro reply
    rfl

include asked in
theorem askChat_assigns (request : ChatRequest) (_ : Nat) :
    Obeys ((conduct.along (retrying upstreamCalls)).along (.inr Retry.effects upstreamCalls))
      (Retry.Assigns (fun _ => True) (fun _ => True) (.trying slot permit)) (p.askChat request)
      (.trying slot permit) := by
  rw [askChat_eq, asked]
  refine assigned_obeys ?_ trivial
  exact upstream_chat_answers trivial (fun _ => rfl) (fun _ => trivial) fun _ _ => trivial

include asked in
theorem askStream_assigns (request : ChatRequest) (_ : Nat) :
    Obeys ((conduct.along (retrying upstreamCalls)).along (.inr Retry.effects upstreamCalls))
      (Retry.Assigns (fun stream => ∃ source name, stream = upstreamStream source name)
        (fun _ => True) (.trying slot permit)) (p.askStream request) (.trying slot permit) := by
  rw [askStream_eq, asked]
  refine assigned_obeys ?_ trivial
  exact upstream_stream_answers trivial (fun _ => rfl) (fun source name => ⟨source, name, rfl⟩)
    fun _ _ => trivial

variable (steady : p.retry.Steady) (positive : 0 < p.retry.options.maxAttempts)

section Calls

variable {α : Type} {post : Exit α → Stage → Prop}
include asked steady positive

omit asked positive in
/-- The attempts neither panic nor touch what the call holds. -/
theorem retried_obeys {β : Type} {Q : β → Prop} {retainSuccess : Bool}
    {attempts : Program (Retry.effects.sum upstreamCalls) (Retry.Done β)}
    (ends : Obeys (conduct.along (retrying upstreamCalls))
      (Retry.Ends p.retry Q (fun _ _ => True) retainSuccess fun _ => .trying slot permit) attempts
      (.trying slot permit))
    {next : Retry.Done β → Program governedCalls α}
    (rest : ∀ done : Retry.Done β, done.Sound Q (fun _ => True) retainSuccess →
      Obeys conduct post (next done) (.trying slot permit)) :
    Obeys conduct post (attempts.along (retrying upstreamCalls) >>= next)
      (.trying slot permit) := by
  rw [obeys_bind, obeys_along]
  apply ends.mono
  intro exit last ended
  cases exit with
  | aborted reason => exact absurd steady ended.1
  | returned done =>
      obtain ⟨_, _, rfl, sound⟩ := ended
      exact followed_returned.mpr (rest done sound)

theorem retryChat_obeys (request : ChatRequest)
    {next : Retry.Done ChatResponse → Program governedCalls α}
    (rest : ∀ done : Retry.Done ChatResponse, done.Sound (fun _ => True) (fun _ => True) false →
      Obeys conduct post (next done) (.trying slot permit)) :
    Obeys conduct post ((p.retry.Do (some IsRetryable) (p.askChat request)).along
        (retrying upstreamCalls) >>= next) (.trying slot permit) := by
  apply retried_obeys steady _ rest
  exact Retry.do_obeys conduct_retry (fun _ _ _ => trivial) (fun _ _ _ => trivial) _
    (askChat_assigns asked request) positive

theorem retryStream_obeys (request : ChatRequest)
    {next : Retry.Done (Stream upstreamCalls) → Program governedCalls α}
    (rest : ∀ done : Retry.Done (Stream upstreamCalls),
      done.Sound (fun stream => ∃ source name, stream = upstreamStream source name)
      (fun _ => True) true → Obeys conduct post (next done) (.trying slot permit)) :
    Obeys conduct post ((p.retry.DoRetained (some IsRetryable) (p.askStream request)).along
        (retrying upstreamCalls) >>= next) (.trying slot permit) := by
  apply retried_obeys steady _ rest
  exact Retry.doRetained_obeys conduct_retry (fun _ _ _ => trivial) (fun _ _ _ => trivial) _
    (askStream_assigns asked request) positive

end Calls

/-- What `Chat` has done when its deferred release is due. -/
def Due (slot : Nat) : Exit (Except Err (Option ChatResponse)) → Stage → Prop
  | .returned result, stage =>
      stage = .refused slot ∨
        ∃ permit, stage = .completed slot permit (circuitOutcome (errorOf result))
  | .aborted _, _ => False

theorem answered_obeys {done : Retry.Done ChatResponse}
    (sound : done.Sound (fun _ => True) (fun _ => True) false) :
    Obeys conduct (Due slot) (p.answered done)
      (.completed slot permit (circuitOutcome done.err)) := by
  obtain ⟨cancel, err, captured⟩ := done
  cases err with
  | some err => exact obeys_done.mpr (.inr ⟨permit, rfl⟩)
  | none =>
      obtain ⟨response, rfl, _⟩ := sound.success rfl
      exact obeys_done.mpr (.inr ⟨permit, rfl⟩)

include asked steady positive in
theorem permitted_obeys (request : ChatRequest) :
    Obeys conduct (Due slot) (effect .allow >>= p.permitted request) (.admitted slot) := by
  apply obeys_perform.mpr
  refine ⟨trivial, fun reply _ => ?_⟩
  cases reply with
  | none => exact obeys_done.mpr (.inl rfl)
  | some permit =>
      apply retryChat_obeys asked steady positive request
      intro done sound
      exact obeys_perform.mpr ⟨rfl, fun _ _ => answered_obeys sound⟩

include asked steady positive in
theorem chat_concludes (request : ChatRequest) :
    Obeys conduct Concluded ((Task.chat request).body p) .waiting := by
  rw [Task.body, Provider.Chat, Program.bind_assoc]
  apply obeys_perform.mpr
  refine ⟨trivial, fun reply _ => ?_⟩
  cases reply with
  | error ended => exact obeys_done.mpr (.inl rfl)
  | ok slot =>
      have continues :
          Obeys conduct Concluded
          (p.acquired request (.ok slot) >>= fun result => pure (.chat result))
          (.admitted slot) := by
        rw [Provider.acquired, obeys_bind, obeys_ensuring]
        apply (permitted_obeys asked steady positive request).mono
        intro exit last due
        cases exit with
        | aborted reason => exact due.elim
        | returned result =>
            rcases due with rfl | ⟨permit, rfl⟩
            · exact obeys_perform.mpr
                ⟨rfl, fun _ _ => obeys_done.mpr (obeys_done.mpr (.inr (.inl ⟨slot, rfl⟩)))⟩
            · exact obeys_perform.mpr
                ⟨rfl, fun _ _ => obeys_done.mpr (obeys_done.mpr (.inr (.inr ⟨slot, permit, rfl⟩)))⟩
      exact continues

theorem opened_obeys {done : Retry.Done (Stream upstreamCalls)}
    (sound : done.Sound (fun stream => ∃ source name, stream = upstreamStream source name)
      (fun _ => True) true) :
    Obeys conduct Concluded (p.opened slot permit done >>= fun result => pure (.stream result))
      (.trying slot permit) := by
  obtain ⟨cancel, err, captured⟩ := done
  cases err with
  | some err =>
      apply obeys_perform.mpr
      refine ⟨rfl, fun _ _ => obeys_perform.mpr ⟨rfl, fun _ _ => obeys_done.mpr ?_⟩⟩
      exact .inr (.inr ⟨slot, permit, rfl⟩)
  | none =>
      obtain ⟨stream, rfl, source, name, rfl⟩ := sound.success rfl
      have retained : cancel.isSome = true := sound.retained.mpr ⟨rfl, rfl⟩
      apply obeys_perform.mpr
      refine ⟨⟨rfl, rfl, retained⟩, fun once _ => obeys_done.mpr ?_⟩
      exact ⟨⟨p.name, some (upstreamStream source name), permit, slot, cancel, once⟩, rfl, rfl,
        retained, source, name, rfl⟩

include asked steady positive in
theorem chatStream_concludes (request : ChatRequest) :
    Obeys conduct Concluded ((Task.chatStream request).body p) .waiting := by
  rw [Task.body, Provider.ChatStream, Program.bind_assoc]
  apply obeys_perform.mpr
  refine ⟨trivial, fun reply _ => ?_⟩
  cases reply with
  | error ended => exact obeys_done.mpr (.inl rfl)
  | ok slot =>
      apply obeys_perform.mpr
      refine ⟨trivial, fun reply _ => ?_⟩
      cases reply with
      | none => exact obeys_perform.mpr ⟨rfl, fun _ _ => obeys_done.mpr (.inr (.inl ⟨slot, rfl⟩))⟩
      | some permit =>
          have continues :
            Obeys conduct Concluded (p.permittedStream request slot (some permit) >>= fun result =>
              pure (.stream result)) (.trying slot permit) := by
            rw [Provider.permittedStream, Program.bind_assoc]
            apply retryStream_obeys asked steady positive request
            intro done sound
            exact opened_obeys sound
          exact continues

section Streams

variable {m : Managed upstreamCalls} (genuine : m.Genuine) {α : Type} {post : Exit α → Stage → Prop}
include genuine

theorem finish_obeys (outcome : Outcome) {next : Unit → Program governedCalls α}
    (first : Obeys conduct post (next ()) (.gone m (some outcome)))
    (late : Obeys conduct post (next ()) (.gone m none)) :
    Obeys conduct post (m.finish outcome >>= next) (.ended m outcome) := by
  obtain ⟨retained, _⟩ := genuine
  obtain ⟨cancel, known⟩ := Option.isSome_iff_exists.mp retained
  unfold Managed.finish onceDo Managed.callCancel
  rw [known, Program.bind_assoc]
  apply obeys_perform.mpr
  refine ⟨rfl, fun entered _ => ?_⟩
  cases entered with
  | false => exact late
  | true =>
      apply obeys_perform.mpr
      refine ⟨known, fun _ _ => obeys_perform.mpr ⟨⟨rfl, rfl⟩, fun _ _ => ?_⟩⟩
      exact obeys_perform.mpr ⟨rfl, fun _ _ => obeys_perform.mpr ⟨rfl, fun _ _ => first⟩⟩

theorem recv_concludes (p : Provider upstreamCalls) :
    Obeys conduct Concluded ((Task.recv m).body p) (.listening m) := by
  obtain ⟨_, source, name, inner⟩ := id genuine
  rw [Task.body, Managed.Recv, inner]
  apply obeys_perform.mpr
  refine ⟨trivial, fun received _ => ?_⟩
  have continues : Obeys conduct Concluded ((m.noteEnd received.2 >>= fun _ => pure received) >>=
        fun received => pure (.received received))
      (Stage.hear m (Managed.receivedOutcome received.2)) := by
    rw [Program.bind_assoc, Managed.noteEnd]
    cases told : Managed.receivedOutcome received.2 with
    | none =>
        apply obeys_done.mpr
        exact ⟨m, .inl ⟨Option.map_eq_none_iff.mp told, rfl⟩⟩
    | some outcome =>
        apply finish_obeys genuine outcome
        · exact obeys_done.mpr ⟨m, .inr ⟨outcome, told, .inr rfl⟩⟩
        · exact obeys_done.mpr ⟨m, .inr ⟨outcome, told, .inl rfl⟩⟩
  exact continues

theorem close_concludes (p : Provider upstreamCalls) :
    Obeys conduct Concluded ((Task.close m).body p) (.listening m) := by
  obtain ⟨_, source, name, inner⟩ := id genuine
  rw [Task.body, Managed.Close, inner]
  apply obeys_perform.mpr
  refine ⟨trivial, fun failed _ => ?_⟩
  have continues :
      Obeys conduct Concluded
      ((m.finish (Managed.closedOutcome failed) >>= fun _ => pure failed) >>= fun failed => pure
        (.closed failed)) (.ended m (Managed.closedOutcome failed)) := by
    rw [Program.bind_assoc]
    apply finish_obeys genuine
    · exact obeys_done.mpr ⟨m, .inr rfl⟩
    · exact obeys_done.mpr ⟨m, .inl rfl⟩
  exact continues

end Streams

end Obedience

end ModelGate.Governance
