import ModelGate.Governance.Streams
import ModelGate.Routing.Failover

/-! What a router answers a request with.

A response is the only one that a provider upstream replied. A stream is one of a
governed provider, and nothing but questions whether it is available reached that
provider before.
-/

set_option autoImplicit false

namespace ModelGate.Routing

open Semantics ModelGate.Provider
open Governance (governedCalls Managed)

variable {α β γ : Type} {members : List (Member × Int)} {r : Router fleet}

/-- An event before the call on the target at `index`: the router's own, a
question to a target, or part of a call on another target. -/
inductive Earlier (members : List (Member × Int))
    (ask : Member → Program governedCalls (Except Err (Option α))) (index : Nat) :
    Event (effects.sum fleet) → Prop where
  | own (op : Effect) (reply : effects.Reply op) : Earlier members ask index ⟨.inl op, reply⟩
  | asked (target : Nat) (available : Bool) : Earlier members ask index
      (lift target ⟨.inl .available, available⟩)
  | visited {target : Nat} {p : Member} {weight : Int} {inner : List (Event governedCalls)}
      {exit : Exit (Except Err (Option α))} {event : Event governedCalls} (other : target ≠ index)
      (located : members[target]? = some (p, weight)) (runs : (ask p).Runs inner exit)
        (member : event ∈ inner) :
      Earlier members ask index (lift target event)

theorem selection_earlier {ask : Member → Program governedCalls (Except Err (Option α))}
    {index : Nat} {cursor left : Cursor} {looks : List (Nat × Bool)} :
    ∀ event ∈ selection availability cursor looks left, Earlier members ask index event := by
  intro event member
  rcases List.mem_cons.mp member with rfl | later
  · exact .own .lock cursor
  · rcases List.mem_append.mp later with asked | last
    · obtain ⟨answer, -, rfl⟩ := List.mem_map.mp asked
      exact .asked answer.1 answer.2
    · obtain rfl := List.mem_singleton.mp last
      exact .own (.unlock left) ()

/-- A value the loop returns comes from the call on one target. -/
theorem route_answers {operation nilMessage : String}
    {call : Target fleet → Program fleet (Except Err (Option γ))} {named : String → γ → β}
    {ask : Member → Program governedCalls (Except Err (Option α))} (wrap : Nat → α → γ)
    (accepted : r.Accepted) (spans : r.Over members)
    (calls : ∀ index p {trace exit}, (call (governedTarget index p)).Runs trace exit →
      ∃ inner outcome, trace = inner.map (Event.along (.member governedCalls index)) ∧
      (ask p).Runs inner outcome ∧ exit = outcome.map fun result =>
      result.map fun value => value.map (wrap index))
    {rounds : Nat} {excluded : List String} {trace : List (Event (effects.sum fleet))} {value : β}
    (runs : (r.route operation nilMessage call named rounds excluded).Runs trace
      (.returned (.answered (.ok value)))) :
    ∃ index p weight before inner source, members[index]? = some (p, weight) ∧ p.name ∉ excluded ∧
    (ask p).Runs inner (.returned (.ok (some source))) ∧ value = named p.name (wrap index source) ∧
    (∀ event ∈ before, Earlier members ask index event) ∧
    trace = before ++ inner.map (lift index) := by
  -- The induction is on the rounds left; a target visited before is excluded by its name.
  induction rounds generalizing excluded trace with
  | zero => cases (Program.runs_abort.mp runs).2
  | succ rounds ih =>
      unfold Router.route at runs
      split at runs
      case isFalse => cases (Program.runs_done.mp runs).2
      rcases runs.bind with ⟨early, late, selected, rfl, first, rest⟩ | ⟨reason, -, impossible⟩
      case inr => cases impossible
      obtain ⟨cursor, looks, left, _, rfl, same, selects⟩ :=
        selectTarget_runs spans.asks accepted.supported first
      cases same
      cases selected with
      | error err => cases (Program.runs_done.mp rest).2
      | ok target =>
          obtain ⟨index, found, located, rfl, fresh, -⟩ := selects.of_ok
          obtain ⟨p, weight, there, rfl⟩ := spans.located located
          obtain ⟨inner, outcome, later, rfl, own, ends⟩ := called_runs calls rest
          rcases ends with ⟨-, rfl, exits⟩ | ⟨err, rfl, -, continues⟩
          · -- Any other outcome of the call contradicts the value.
            rcases outcome with (err | _ | source) | reason <;> cases exits
            exact ⟨index, p, weight, _, inner, source, there, fresh, own, rfl, selection_earlier,
              by rw [List.append_nil]⟩
          · obtain ⟨last, q, other, before, answer, source, place, outside, answers, same, earlier,
              rfl⟩ := ih continues
            rw [List.mem_insert_iff, not_or] at outside
            -- The later target was not excluded, and this one is.
            have different : index ≠ last := by
              rintro rfl
              rw [there] at place
              cases place
              exact outside.1 rfl
            refine ⟨last, q, other, selection availability cursor looks left ++
              (inner.map (lift index) ++ before), answer, source, place, outside.2, answers, same,
              ?_, by simp only [List.append_assoc]⟩
            intro event member
            rcases List.mem_append.mp member with selecting | after
            · exact selection_earlier event selecting
            · rcases List.mem_append.mp after with visiting | later
              · obtain ⟨inside, among, rfl⟩ := List.mem_map.mp visiting
                exact .visited different there own among
              · exact earlier event later

/-! The responses of a request -/

def usageReplied : Event upstreamCalls → Option ChatUsage
  | ⟨.chat _, .ok (some response)⟩ => some response.usage
  | _ => none

def replied (event : Event fleet) : Option ChatUsage :=
  behind usageReplied ⟨event.op.2, event.reply⟩

theorem selection_replied {cursor left : Cursor} {looks : List (Nat × Bool)} :
    (selection availability cursor looks left).filterMap (behind replied) = [] := by
  rw [List.filterMap_eq_nil_iff]
  intro event member
  rcases List.mem_cons.mp member with rfl | later
  · rfl
  · rcases List.mem_append.mp later with asked | last
    · obtain ⟨answer, -, rfl⟩ := List.mem_map.mp asked
      rfl
    · obtain rfl := List.mem_singleton.mp last
      rfl

theorem lift_replied (index : Nat) (inner : List (Event governedCalls)) :
    (inner.map (lift index)).filterMap (behind replied) =
      inner.filterMap (behind usageReplied) := by
  rw [List.filterMap_map]
  rfl

theorem member_replies {p : Member} (built : Built p) {request : ChatRequest}
    {inner : List (Event governedCalls)} {outcome : Exit (Except Err (Option ChatResponse))}
    (runs : (p.Chat request).Runs inner outcome) :
    inner.filterMap (behind usageReplied) = Governance.usageAt outcome := by
  obtain ⟨asked, positive⟩ := built.fields
  refine Governance.chat_replies positive (fun events reason aborts => ?_)
    (fun {_ answer} returned => ?_) runs
  · rw [asked] at aborts
    obtain ⟨_, _, _, ends⟩ := Program.runs_perform.mp aborts
    cases (Program.runs_done.mp ends).2
  · rw [asked] at returned
    obtain ⟨reply, rest, rfl, ends⟩ := Program.runs_perform.mp returned
    obtain ⟨rfl, same⟩ := Program.runs_done.mp ends
    obtain rfl := Exit.returned.inj same
    match answer with
    | .error _ | .ok none | .ok (some _) => rfl

theorem delivered_usage {operation nilMessage name : String}
    (outcome : Exit (Except Err (Option ChatResponse))) :
    Governance.usageAt
      ((delivered operation nilMessage name (fun response => { response with provider := name })
          outcome).map Routed.result) = Governance.usageAt outcome := by
  match outcome with
  | .aborted _ | .returned (.error _) | .returned (.ok none) | .returned (.ok (some _)) => rfl

theorem route_replies (accepted : r.Accepted) (spans : r.Over members)
    (built : ∀ entry ∈ members, Built entry.1)
    {request : ChatRequest} {operation nilMessage : String}
    {call : Target fleet → Program fleet (Except Err (Option ChatResponse))}
    (calls : ∀ index p {trace exit}, (call (governedTarget index p)).Runs trace exit →
      ∃ inner outcome, trace = inner.map (Event.along (.member governedCalls index)) ∧
        (p.Chat request).Runs inner outcome ∧ exit = outcome.map fun result =>
        result.map fun value => value.map id)
    {rounds : Nat} {excluded : List String} {trace : List (Event (effects.sum fleet))}
    {exit : Exit (Routed ChatResponse)}
    (runs : (r.route operation nilMessage call
        (fun name response => { response with provider := name })
      rounds excluded).Runs trace exit) :
    trace.filterMap (behind replied) = Governance.usageAt (exit.map Routed.result) := by
  induction rounds generalizing excluded trace with
  -- A round goes on only after a breaker refused, and then nothing was asked upstream.
  | zero =>
      obtain ⟨rfl, rfl⟩ := Program.runs_abort.mp runs
      rfl
  | succ rounds ih =>
      unfold Router.route at runs
      split at runs
      case isFalse =>
        obtain ⟨rfl, rfl⟩ := Program.runs_done.mp runs
        rfl
      rcases runs.bind with ⟨early, late, selected, rfl, first, rest⟩ | ⟨reason, first, rfl⟩
      case inr =>
        obtain ⟨_, _, _, _, -, same, -⟩ := selectTarget_runs spans.asks accepted.supported first
        cases same
      obtain ⟨cursor, looks, left, _, rfl, same, selects⟩ :=
        selectTarget_runs spans.asks accepted.supported first
      cases same
      rw [List.filterMap_append, selection_replied, List.nil_append]
      cases selected with
      | error err =>
          obtain ⟨rfl, rfl⟩ := Program.runs_done.mp rest
          rfl
      | ok target =>
          obtain ⟨index, found, located, rfl, -, -⟩ := selects.of_ok
          obtain ⟨p, weight, there, rfl⟩ := spans.located located
          obtain ⟨inner, outcome, later, rfl, own, ends⟩ := called_runs calls rest
          have replies := member_replies (built _ (List.mem_of_getElem? there)) own
          rw [List.filterMap_append, lift_replied, replies]
          rcases ends with ⟨-, rfl, rfl⟩ | ⟨err, rfl, -, continues⟩
          · rw [List.filterMap_nil, List.append_nil]
            exact (delivered_usage outcome).symm
          · exact ih continues

/-- A request gets one response from upstream if the router returns one, and none otherwise. -/
theorem chat_replies {quote : String → String} {strategy : Strategy}
    (made : New quote strategy (fleetOf members) = .ok r) (built : ∀ entry ∈ members, Built entry.1)
    {request : ChatRequest} {trace : List (Event (effects.sum fleet))}
    {exit : Exit (Except Err (Option ChatResponse))} (runs : (r.Chat request).Runs trace exit) :
    trace.filterMap (behind replied) = Governance.usageAt exit := by
  obtain ⟨routed, rfl, loops⟩ := routed_runs runs
  exact route_replies (new_ok made).1 (over_of_new made) built (chat_calls request) loops

def memberStream (index : Nat) (name : String) (m : Managed upstreamCalls) :
    Stream (effects.sum fleet) :=
  namedStream name ((m.stream.along (.member governedCalls index)).along (.inr effects fleet))

theorem memberStream_recv_runs {index : Nat} {name : String} {m : Managed upstreamCalls}
    {trace : List (Event (effects.sum fleet))} {exit : Exit (Option ChatStreamChunk × Option Err)}
    (runs : (memberStream index name m).Recv.Runs trace exit) :
    ∃ inner, trace = inner.map (lift index) ∧ m.stream.Recv.Runs inner exit := by
  obtain ⟨middle, rfl, within⟩ := Program.Runs.along runs
  obtain ⟨inner, rfl, own⟩ := Program.Runs.along within
  exact ⟨inner, map_along_lift index inner, own⟩

theorem memberStream_close_runs {index : Nat} {name : String} {m : Managed upstreamCalls}
    {trace : List (Event (effects.sum fleet))} {exit : Exit (Option Err)}
    (runs : (memberStream index name m).Close.Runs trace exit) :
    ∃ inner, trace = inner.map (lift index) ∧ m.stream.Close.Runs inner exit := by
  obtain ⟨middle, rfl, within⟩ := Program.Runs.along runs
  obtain ⟨inner, rfl, own⟩ := Program.Runs.along within
  exact ⟨inner, map_along_lift index inner, own⟩

section Returns

variable {index cancel source : Nat} {name : String} {label : Option String}
  {m : Managed upstreamCalls} (cancels : m.cancel = some cancel)
  (wraps : m.inner = some (upstreamStream source label))
include cancels wraps

theorem memberStream_recv_returns (events : List (Event (effects.sum fleet))) (reason : String) :
    ¬(memberStream index name m).Recv.Runs events (.aborted reason) := by
  intro aborts
  obtain ⟨inner, -, own⟩ := memberStream_recv_runs aborts
  obtain ⟨_, _, _, -, -, -, impossible⟩ :=
    Governance.Managed.recv_runs cancels wraps upstream_recv_returns own
  cases impossible

theorem memberStream_close_returns (events : List (Event (effects.sum fleet))) (reason : String) :
    ¬(memberStream index name m).Close.Runs events (.aborted reason) := by
  intro aborts
  obtain ⟨inner, -, own⟩ := memberStream_close_runs aborts
  obtain ⟨_, _, _, -, -, -, impossible⟩ :=
    Governance.Managed.close_runs cancels wraps upstream_close_returns own
  cases impossible

end Returns

/-- A stream of the router is one of a governed provider over a stream upstream. -/
theorem chatStream_opens {quote : String → String} {strategy : Strategy}
    (made : New quote strategy (fleetOf members) = .ok r) (built : ∀ entry ∈ members, Built entry.1)
    {request : ChatRequest} {trace : List (Event (effects.sum fleet))}
    {opened : Option (Stream (effects.sum fleet))}
    (runs : (r.ChatStream request).Runs trace (.returned (.ok opened))) :
    ∃ (index : Nat) (name : String) (m : Managed upstreamCalls) (source cancel : Nat)
      (label : Option String) (before : List (Event (effects.sum fleet)))
      (events : List (Event (Retry.effects.sum upstreamCalls))), opened =
      some (memberStream index name m) ∧ m.inner = some (upstreamStream source label) ∧
    m.cancel = some cancel ∧ Retry.own .withTimeout cancel ∈ events ∧
    (∀ event ∈ before, Earlier members (fun p => p.ChatStream request) index event) ∧
    (∀ op reply, (⟨.inr op, reply⟩ : Event (Retry.effects.sum upstreamCalls)) ∈ events →
      op = .chatStream request) ∧
    trace = before ++ (Governance.admitted m.concurrency m.circuit ++ Governance.retried events ++
        [Governance.own (.newStream m.circuit m.concurrency m.cancel) m.once]).map
      (lift index) := by
  obtain ⟨routed, same, loops⟩ := routed_runs runs
  match routed, same with
  | .returned (.answered (.ok value)), same =>
      cases same
      obtain ⟨index, p, weight, before, inner, source, there, -, own, rfl, earlier, rfl⟩ :=
        route_answers (fun index => Stream.along (.member governedCalls index)) (new_ok made).1
          (over_of_new made) (stream_calls request) loops
      obtain ⟨asked, positive⟩ := (built _ (List.mem_of_getElem? there)).fields
      rcases Governance.chatStream_runs own with refused |
        ⟨slot, permit, events, ⟨_, _, _, impossible⟩ | ⟨done, tried, ends⟩⟩
      · rcases refused with ⟨_, _, impossible⟩ | ⟨_, _, impossible⟩ <;> cases impossible
      · cases impossible
      · rcases ends with ⟨_, _, _, impossible⟩ | ⟨once, success, rfl, same⟩
        · cases impossible
        · cases same
          obtain ⟨only, opens⟩ := Governance.attempts_runs asked positive tried
          obtain ⟨⟨source, label, captured⟩, cancel, cancels, created⟩ := opens done rfl success
          exact ⟨index, p.name, _, source, cancel, label, before, events, rfl, captured, cancels,
            created, earlier, only, rfl⟩

end ModelGate.Routing
