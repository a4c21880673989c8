import ModelGate.Governance.Conduct
import ModelGate.Semantics.Runs

/-! How often one call on a governed provider invokes the provider upstream,
and when it answers that the breaker is open. -/

set_option autoImplicit false

namespace ModelGate.Governance

open Semantics ModelGate.Provider

def invokes : Event governedCalls → Bool
  | ⟨.inr (.chat _), _⟩ | ⟨.inr (.chatStream _), _⟩ => true
  | _ => false

def refuses : Event governedCalls → Bool
  | ⟨.inl .allow, none⟩ => true
  | _ => false

def upstreamError : Event governedCalls → Option Err
  | ⟨.inr (.chat _), .error err⟩ | ⟨.inr (.chatStream _), .error err⟩ => some err
  | _ => none

/-- Upstream does not answer with the error of the breaker. -/
def Honest (event : Event governedCalls) : Prop :=
  ∀ err, upstreamError event = some err → err.is .errOpen = false

structure Tally where
  refused : Bool
  invoked : Nat

def Tally.after (t : Tally) (op : governedCalls.Op) (reply : governedCalls.Reply op) : Tally :=
  ⟨t.refused || refuses ⟨op, reply⟩, t.invoked + (invokes ⟨op, reply⟩).toNat⟩

def tally : Protocol governedCalls Tally :=
  ⟨fun _ _ => True, fun _ op reply => Honest ⟨op, reply⟩, Tally.after⟩

theorem tally_advance (t : Tally) (trace : List (Event governedCalls)) :
    tally.advance t trace = ⟨t.refused || trace.any refuses, t.invoked + trace.countP invokes⟩ := by
  induction trace generalizing t with
  | nil => simp [Protocol.advance]
  | cons event trace ih =>
      have step : tally.advance t (event :: trace) =
        tally.advance (t.after event.op event.reply) trace := rfl
      rw [step, ih, List.any_cons, List.countP_cons, Tally.after, Bool.or_assoc, Nat.add_assoc]
      cases invokes event <;> simp [Nat.add_comm]

theorem tally_answered {t : Tally} {trace : List (Event governedCalls)}
    (honest : ∀ event ∈ trace, Honest event) : tally.Answered t trace := by
  induction trace generalizing t with
  | nil => trivial
  | cons event trace ih =>
      exact ⟨honest event (List.mem_cons_self ..), ih fun other member =>
        honest other (List.mem_cons_of_mem _ member)⟩

/-- The answer of a target whose breaker is open. -/
def isOpen {β : Type} : Except Err β → Bool
  | .error err => err.is .errOpen
  | .ok _ => false

/-- Upstream is invoked up to the number of attempts, and not at all when the
breaker refused, which is the only way to answer that it is open. -/
def Tallied {β : Type} (p : Provider upstreamCalls) : Exit (Except Err β) → Tally → Prop
  | .returned result, t => (t.invoked : Int) ≤ p.retry.options.maxAttempts ∧
      (t.refused = true → t.invoked = 0) ∧ isOpen result = t.refused
  | .aborted _, t => (t.invoked : Int) ≤ p.retry.options.maxAttempts ∧ t.refused = false

section Calls

variable {p : Provider upstreamCalls} (asked : p.inner = upstream)
  (positive : 0 < p.retry.options.maxAttempts)

theorem tally_retry (made : Nat) (op : Retry.Effect) :
    (tally.along (retrying upstreamCalls)).Ignores ⟨false, made⟩ (.inl op) :=
  ⟨trivial, fun _ => rfl⟩

theorem ofContext_not_open (ended : ContextError) : (Err.ofContext ended).is .errOpen = false := rfl

include asked in
theorem askChat_counted (request : ChatRequest) (made : Nat) :
    Obeys ((tally.along (retrying upstreamCalls)).along (.inr Retry.effects upstreamCalls))
      (Retry.Assigns (fun _ => True) (fun err => err.is .errOpen = false) ⟨false, made + 1⟩)
      (p.askChat request) ⟨false, made⟩ := by
  rw [askChat_eq, asked]
  refine assigned_obeys ?_ rfl
  exact upstream_chat_answers trivial (fun _ => rfl) (fun _ => trivial)
    fun err honest => honest err rfl

include asked in
theorem askStream_counted (request : ChatRequest) (made : Nat) :
    Obeys ((tally.along (retrying upstreamCalls)).along (.inr Retry.effects upstreamCalls))
      (Retry.Assigns (fun _ => True) (fun err => err.is .errOpen = false) ⟨false, made + 1⟩)
      (p.askStream request) ⟨false, made⟩ := by
  rw [askStream_eq, asked]
  refine assigned_obeys ?_ rfl
  exact upstream_stream_answers trivial (fun _ => rfl) (fun _ _ => trivial)
    fun err honest => honest err rfl

include asked positive in
theorem doChat_counted (request : ChatRequest) :
    Obeys (tally.along (retrying upstreamCalls))
      (Retry.Ends p.retry (fun _ => True) (fun _ err => err.is .errOpen = false) false
        fun made => ⟨false, made⟩) (p.retry.Do (some IsRetryable) (p.askChat request)) ⟨false, 0⟩ :=
  Retry.do_obeys tally_retry (fun _ ended _ => ofContext_not_open ended)
    (fun _ ended _ => ofContext_not_open ended) _ (askChat_counted asked request) positive

include asked positive in
theorem doStream_counted (request : ChatRequest) :
    Obeys (tally.along (retrying upstreamCalls))
      (Retry.Ends p.retry (fun _ => True) (fun _ err => err.is .errOpen = false) true
        fun made => ⟨false, made⟩) (p.retry.DoRetained (some IsRetryable) (p.askStream request))
      ⟨false, 0⟩ :=
  Retry.doRetained_obeys tally_retry (fun _ ended _ => ofContext_not_open ended)
    (fun _ ended _ => ofContext_not_open ended) _ (askStream_counted asked request) positive

theorem answered_tallied {done : Retry.Done ChatResponse} {made : Nat}
    (within : (made : Int) ≤ p.retry.options.maxAttempts)
    (sound : done.Sound (fun _ => True) (fun err => err.is .errOpen = false) false) :
    Obeys tally (Tallied p) (p.answered done) ⟨false, made⟩ := by
  obtain ⟨cancel, err, captured⟩ := done
  cases err with
  | some err => exact obeys_done.mpr ⟨within, nofun, sound.failure err rfl⟩
  | none =>
      obtain ⟨response, rfl, _⟩ := sound.success rfl
      exact obeys_done.mpr ⟨within, nofun, rfl⟩

include asked positive in
theorem permitted_tallied (request : ChatRequest) :
    Obeys tally (Tallied p) (effect .allow >>= p.permitted request) ⟨false, 0⟩ := by
  apply obeys_perform.mpr
  refine ⟨trivial, fun reply _ => ?_⟩
  cases reply with
  | none => exact obeys_done.mpr ⟨Int.le_of_lt positive, fun _ => rfl, rfl⟩
  | some permit =>
      have continues : Obeys tally (Tallied p) (p.permitted request (some permit)) ⟨false, 0⟩ := by
        unfold Provider.permitted
        rw [obeys_bind, obeys_along]
        apply (doChat_counted asked positive request).mono
        intro exit last ended
        cases exit with
        | aborted reason =>
            obtain ⟨_, made, within, rfl⟩ := ended
            exact ⟨within, rfl⟩
        | returned done =>
            obtain ⟨made, within, rfl, sound⟩ := ended
            apply followed_returned.mpr
            exact obeys_perform.mpr ⟨trivial, fun _ _ => answered_tallied within sound⟩
      exact continues

include asked positive in
theorem chat_tallied (request : ChatRequest) :
    Obeys tally (Tallied p) (p.Chat request) ⟨false, 0⟩ := by
  apply obeys_perform.mpr
  refine ⟨trivial, fun reply _ => ?_⟩
  cases reply with
  | error ended => exact obeys_done.mpr ⟨Int.le_of_lt positive, nofun, rfl⟩
  | ok slot =>
      have continues : Obeys tally (Tallied p) (p.acquired request (.ok slot)) ⟨false, 0⟩ := by
        rw [Provider.acquired, obeys_ensuring]
        apply (permitted_tallied asked positive request).mono
        intro exit last tallied
        -- the deferred release changes nothing
        have unchanged : last.after (.inl (.release slot)) () = last := by
          simp [Tally.after, refuses, invokes]
        rw [← unchanged] at tallied
        exact obeys_perform.mpr ⟨trivial, fun _ _ => obeys_done.mpr tallied⟩
      exact continues

theorem opened_tallied {done : Retry.Done (Stream upstreamCalls)} {slot permit made : Nat}
    (within : (made : Int) ≤ p.retry.options.maxAttempts)
    (sound : done.Sound (fun _ => True) (fun err => err.is .errOpen = false) true) :
    Obeys tally (Tallied p) (p.opened slot permit done) ⟨false, made⟩ := by
  obtain ⟨cancel, err, captured⟩ := done
  cases err with
  | some err =>
      apply obeys_perform.mpr
      refine ⟨trivial, fun _ _ => obeys_perform.mpr ⟨trivial, fun _ _ => obeys_done.mpr ?_⟩⟩
      exact ⟨within, nofun, sound.failure err rfl⟩
  | none =>
      apply obeys_perform.mpr
      exact ⟨trivial, fun _ _ => obeys_done.mpr ⟨within, nofun, rfl⟩⟩

include asked positive in
theorem chatStream_tallied (request : ChatRequest) :
    Obeys tally (Tallied p) (p.ChatStream request) ⟨false, 0⟩ := by
  apply obeys_perform.mpr
  refine ⟨trivial, fun reply _ => ?_⟩
  cases reply with
  | error ended => exact obeys_done.mpr ⟨Int.le_of_lt positive, nofun, rfl⟩
  | ok slot =>
      apply obeys_perform.mpr
      refine ⟨trivial, fun reply _ => ?_⟩
      cases reply with
      | none =>
          refine obeys_perform.mpr ⟨trivial, fun _ _ => obeys_done.mpr ?_⟩
          exact ⟨Int.le_of_lt positive, fun _ => rfl, rfl⟩
      | some permit =>
          have continues : Obeys tally (Tallied p) (p.permittedStream request slot (some permit))
              ⟨false, 0⟩ := by
            rw [Provider.permittedStream, obeys_bind, obeys_along]
            apply (doStream_counted asked positive request).mono
            intro exit last ended
            cases exit with
            | aborted reason =>
                obtain ⟨_, made, within, rfl⟩ := ended
                exact ⟨within, rfl⟩
            | returned done =>
                obtain ⟨made, within, rfl, sound⟩ := ended
                exact followed_returned.mpr (opened_tallied within sound)
          exact continues

end Calls

theorem tallied_of_runs {β : Type} {p : Provider upstreamCalls}
    {program : Program governedCalls (Except Err β)}
    (tallied : Obeys tally (Tallied p) program ⟨false, 0⟩) {trace : List (Event governedCalls)}
    {exit : Exit (Except Err β)} (runs : program.Runs trace exit)
    (honest : ∀ event ∈ trace, Honest event) :
    Tallied p exit ⟨trace.any refuses, trace.countP invokes⟩ := by
  have last := tallied.runs runs (tally_answered honest)
  rw [tally_advance, Bool.false_or, Nat.zero_add] at last
  exact last

end ModelGate.Governance
