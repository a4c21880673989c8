import ModelGate.Governance.Tally
import ModelGate.Routing.Selection

/-! One request of a router over governed providers. -/

set_option autoImplicit false

namespace ModelGate.Routing

open Semantics ModelGate.Provider
open Governance (governedCalls invokes isOpen)

/-- The operations of governed providers, by position. -/
abbrev fleet : Signature := governedCalls.indexed Nat

abbrev Member := Governance.Provider upstreamCalls

def governedTarget (index : Nat) (p : Member) : Target fleet :=
  ⟨p.provider.along (.member governedCalls index), p.name,
    Governance.Provider.Available.along (.member governedCalls index)⟩

def fleetOf (members : List (Member × Int)) : List (WeightedTarget fleet) :=
  members.zipIdx.map fun entry => ⟨some (governedTarget entry.2 entry.1.1), entry.1.2⟩

def availability : Embedding asks fleet := ⟨fun index => (index, .inl .available), fun _ => .refl _⟩

def lift (index : Nat) (event : Event governedCalls) : Event (effects.sum fleet) :=
  (event.along (.member governedCalls index)).along (.inr effects fleet)

structure Visit where
  index : Nat
  cursor : Cursor
  looks : List (Nat × Bool)
  left : Cursor
  call : List (Event governedCalls)

def Visit.trace (v : Visit) : List (Event (effects.sum fleet)) :=
  selection availability v.cursor v.looks v.left ++ v.call.map (lift v.index)

/-- How the loop ends: all targets are excluded, a selection finds none, or a
target answers something else than that its breaker is open. -/
inductive Tail where
  | exhausted
  | unselected (cursor : Cursor) (looks : List (Nat × Bool)) (left : Cursor)
  | answered (v : Visit)

namespace Tail

def trace : Tail → List (Event (effects.sum fleet))
  | .exhausted => []
  | .unselected cursor looks left => selection availability cursor looks left
  | .answered v => v.trace

def visit : Tail → Option Visit
  | .answered v => some v
  | _ => none

/-- The answers of the last selection. -/
def looks (opened : List Visit) : Tail → List (Nat × Bool)
  | .exhausted => (opened.getLast?.map Visit.looks).getD []
  | .unselected _ looks _ => looks
  | .answered v => v.looks

end Tail

variable {α β : Type}

/-- What the router makes of the exit of a target's call. -/
def delivered (operation nilMessage name : String) (named : α → β) :
    Exit (Except Err (Option α)) → Exit (Routed β)
  | .aborted reason => .aborted reason
  | .returned (.error err) => .returned (.answered (.error err))
  | .returned (.ok none) => .returned (.answered (.error (nilResult name operation nilMessage)))
  | .returned (.ok (some value)) => .returned (.answered (.ok (named value)))

/-- The exit of a call that is not that the breaker is open. -/
def Final : Exit (Except Err (Option α)) → Prop
  | .returned result => isOpen result = false
  | .aborted _ => True

/-- The target of a visit answered that its breaker is open, without a call
upstream. -/
def Visit.Opened (members : List (Member × Int))
    (ask : Member → Program governedCalls (Except Err (Option α))) (v : Visit) : Prop :=
  ∃ p weight err, members[v.index]? = some (p, weight) ∧
    (ask p).Runs v.call (.returned (.error err)) ∧ err.is .errOpen = true ∧
    v.call.countP invokes = 0

/-- One request: `opened` are the targets whose breaker refused it. -/
structure NoFailover (members : List (Member × Int)) (operation nilMessage : String)
    (ask : Member → Program governedCalls (Except Err (Option α))) (named : Nat → String → α → β)
    (trace : List (Event (effects.sum fleet))) (exit : Exit (Routed β)) (opened : List Visit)
    (tail : Tail) : Prop where
  whole : trace = opened.flatMap Visit.trace ++ tail.trace
  distinct : ((opened ++ tail.visit.toList).map Visit.index).Nodup
  few : (opened ++ tail.visit.toList).length ≤ members.length
  refused : ∀ v ∈ opened, v.Opened members ask
  /-- The only target whose upstream is invoked, and whose answer is returned. -/
  answered : ∀ v, tail.visit = some v → ∃ p weight outcome, members[v.index]? = some (p, weight) ∧
    (ask p).Runs v.call outcome ∧ Final outcome ∧
    (v.call.countP invokes : Int) ≤ p.retry.options.maxAttempts ∧
    exit = delivered operation nilMessage p.name (named v.index p.name) outcome
  unanswered : tail.visit = none →
    exit = .returned (.unavailable (unavailable operation .errNoHealthyProviders))
  unavailable : (∃ err, exit = .returned (.unavailable err)) ↔
    ∀ index < members.length, index ∈ opened.map Visit.index ∨ (index, false) ∈ tail.looks opened

section Loop

variable {members : List (Member × Int)} {r : Router fleet}

/-- A router over governed providers. -/
def Router.Over (r : Router fleet) (members : List (Member × Int)) : Prop :=
  r.targets = members.zipIdx.map fun entry => ⟨governedTarget entry.2 entry.1.1, entry.1.2⟩

theorem over_of_new {quote : String → String} {strategy : Strategy}
    (made : New quote strategy (fleetOf members) = .ok r) : r.Over members := by
  obtain ⟨_, _, same⟩ := new_ok made
  have unwrapped := congrArg (List.filterMap fun candidate : WeightedTarget fleet =>
    candidate.target.map fun target => (⟨target, candidate.weight⟩ : TargetState fleet)) same
  rw [fleetOf, List.filterMap_map, List.filterMap_map] at unwrapped
  rw [Router.Over]
  simpa using unwrapped.symm

namespace Router.Over

variable (spans : r.Over members)
include spans

theorem length_eq : r.targets.length = members.length := by
  rw [spans, List.length_map, List.length_zipIdx]

theorem located {index : Nat} {state : TargetState fleet} (found : r.targets[index]? = some state) :
    ∃ p weight, members[index]? = some (p, weight) ∧ state = ⟨governedTarget index p, weight⟩ := by
  rw [spans, List.getElem?_map, List.getElem?_zipIdx, Option.map_map,
    Option.map_eq_some_iff] at found
  obtain ⟨⟨p, weight⟩, there, same⟩ := found
  refine ⟨p, weight, there, ?_⟩
  simpa using same.symm

theorem located_of {index : Nat} {p : Member} {weight : Int}
    (there : members[index]? = some (p, weight)) :
    r.targets[index]? = some ⟨governedTarget index p, weight⟩ := by
  rw [spans, List.getElem?_map, List.getElem?_zipIdx, there]
  simp

theorem name_inj (accepted : r.Accepted) {first second : Nat} {p q : Member} {weight other : Int}
    (one : members[first]? = some (p, weight)) (two : members[second]? = some (q, other))
    (same : p.name = q.name) : first = second := by
  have names {index : Nat} {p : Member}
      {weight : Int} (there : members[index]? = some (p, weight)) :
      (r.targets.map fun state => state.target.name)[index]? = some p.name := by
    rw [List.getElem?_map, spans.located_of there]
    rfl
  have bound := (List.getElem?_eq_some_iff.mp (names one)).1
  exact (List.getElem?_inj bound accepted.distinct).mp (by rw [names one, names two, same])

theorem asks : r.Asks availability := by
  intro index state found
  obtain ⟨p, weight, _, rfl⟩ := spans.located found
  rfl

end Router.Over

theorem indices_subset {ask : Member → Program governedCalls (Except Err (Option α))}
    {opened : List Visit} (refused : ∀ v ∈ opened, v.Opened members ask) :
    opened.map Visit.index ⊆ List.range members.length := by
  intro index member
  obtain ⟨v, inside, rfl⟩ := List.mem_map.mp member
  obtain ⟨p, weight, err, located, _⟩ := refused v inside
  exact List.mem_range.mpr (List.getElem?_eq_some_iff.mp located).1

section Rounds

variable {operation nilMessage : String} {γ : Type}
  {call : Target fleet → Program fleet (Except Err (Option γ))} {named : String → γ → β}
  {ask : Member → Program governedCalls (Except Err (Option α))} {wrap : Nat → α → γ}
  (accepted : r.Accepted) (spans : r.Over members)
  (calls : ∀ index p {trace exit}, (call (governedTarget index p)).Runs trace exit →
    ∃ inner outcome, trace = inner.map (Event.along (.member governedCalls index)) ∧
    (ask p).Runs inner outcome ∧ exit = outcome.map fun result =>
    result.map fun value => value.map (wrap index))

/-- The state of the loop: the targets visited so far are those excluded. -/
structure Before (members : List (Member × Int))
    (ask : Member → Program governedCalls (Except Err (Option α))) (excluded : List String)
    (before : List Visit) : Prop where
  names : ∀ {index p weight}, members[index]? = some (p, weight) →
    (p.name ∈ excluded ↔ index ∈ before.map Visit.index)
  size : excluded.length = before.length
  distinct : (before.map Visit.index).Nodup
  refused : ∀ v ∈ before, v.Opened members ask

theorem Before.few {excluded : List String} {before : List Visit}
    (state : Before members ask excluded before) : before.length ≤ members.length := by
  have bound := (List.subperm_of_subset state.distinct (indices_subset state.refused)).length_le
  rwa [List.length_map, List.length_range] at bound

theorem Before.all {excluded : List String} {before : List Visit}
    (state : Before members ask excluded before) (full : members.length ≤ before.length)
    {index : Nat} (inside : index < members.length) : index ∈ before.map Visit.index := by
  have same := (List.subperm_of_subset state.distinct
    (indices_subset state.refused)).perm_of_length_le (by simpa using full)
  exact same.mem_iff.mpr (List.mem_range.mpr inside)

include accepted spans in
theorem Before.visited {excluded : List String} {before : List Visit}
    (state : Before members ask excluded before) {v : Visit} {p : Member} {weight : Int}
    (located : members[v.index]? = some (p, weight)) (fresh : p.name ∉ excluded)
    (opened : v.Opened members ask) :
    Before members ask (excluded.insert p.name) (before ++ [v]) := by
  have outside : v.index ∉ before.map Visit.index :=
    fun member => fresh ((state.names located).mpr member)
  refine ⟨?_, ?_, ?_, ?_⟩
  · intro index q other there
    rw [List.mem_insert_iff, state.names there, List.map_append, List.mem_append, or_comm]
    apply or_congr_right
    rw [List.map_cons, List.map_nil, List.mem_singleton]
    constructor
    · exact fun same => spans.name_inj accepted there located same
    · rintro rfl
      rw [located] at there
      obtain ⟨rfl, _⟩ := Prod.mk.inj (Option.some.inj there)
      rfl
  · rw [List.length_insert_of_not_mem fresh, state.size, List.length_append, List.length_singleton]
  · rw [List.map_append]
    exact List.nodup_append.mpr ⟨state.distinct, List.nodup_singleton _,
      fun _ member _ other same => by
      obtain rfl := List.mem_singleton.mp other
      exact outside (same ▸ member)⟩
  · intro other member
    rcases List.mem_append.mp member with old | new
    · exact state.refused other old
    · obtain rfl := List.mem_singleton.mp new
      exact opened

theorem map_along_lift (index : Nat) (inner : List (Event governedCalls)) :
    (inner.map (Event.along (.member governedCalls index))).map (Event.along (.inr effects fleet)) =
      inner.map (lift index) :=
  List.map_map

theorem Before.settled {excluded : List String} {before : List Visit}
    (state : Before members ask excluded before) {v : Visit} {p : Member} {weight : Int}
    (located : members[v.index]? = some (p, weight)) (fresh : p.name ∉ excluded)
    (available : (v.index, true) ∈ v.looks) (once : (v.looks.map Prod.fst).Nodup)
    {outcome : Exit (Except Err (Option α))} (runs : (ask p).Runs v.call outcome)
    (final : Final outcome) (attempts : (v.call.countP invokes : Int) ≤ p.retry.options.maxAttempts)
    {named : Nat → String → α → β} :
    NoFailover members operation nilMessage ask named (before.flatMap Visit.trace ++ v.trace)
      (delivered operation nilMessage p.name (named v.index p.name) outcome) before
      (.answered v) := by
  have outside : v.index ∉ before.map Visit.index :=
    fun member => fresh ((state.names located).mpr member)
  have inside := (List.getElem?_eq_some_iff.mp located).1
  have distinct : ((before ++ [v]).map Visit.index).Nodup := by
    rw [List.map_append]
    refine List.nodup_append.mpr ⟨state.distinct, List.nodup_singleton _,
      fun _ member _ other same => ?_⟩
    obtain rfl := List.mem_singleton.mp other
    exact outside (same ▸ member)
  refine ⟨rfl, distinct, ?_, state.refused, ?_, nofun, ?_⟩
  · have subset : (before ++ [v]).map Visit.index ⊆ List.range members.length := by
      rw [List.map_append]
      exact List.append_subset.mpr ⟨indices_subset state.refused, by simpa using inside⟩
    have bound := (List.subperm_of_subset distinct subset).length_le
    rwa [List.length_map, List.length_range] at bound
  · intro other same
    obtain rfl := Option.some.inj same
    exact ⟨p, weight, outcome, located, runs, final, attempts, rfl⟩
  · -- the target that answered was available, and is none of those whose breaker was open
    refine iff_of_false ?_ fun all => ?_
    · rintro ⟨err, impossible⟩
      match outcome, impossible with
      | .returned (.error err), impossible => cases impossible
      | .returned (.ok none), impossible => cases impossible
      | .returned (.ok (some value)), impossible => cases impossible
    · rcases all v.index inside with old | denied
      · exact outside old
      · have both := List.inj_on_of_nodup_map once available denied rfl
        cases both

theorem heard_runs {name : String} {named : String → γ → β}
    {again : Program (effects.sum fleet) (Routed β)} {result : Except Err (Option α)} {wrap : α → γ}
    {trace : List (Event (effects.sum fleet))} {exit : Exit (Routed β)}
    (runs : (Router.heard operation nilMessage name named again
        (result.map fun value => value.map wrap)).Runs trace exit) :
    (isOpen result = false ∧ trace = [] ∧
      exit = delivered operation nilMessage name (fun value => named name (wrap value))
        (.returned result)) ∨ ∃ err, result = .error err ∧ err.is .errOpen = true ∧
    again.Runs trace exit := by
  match result with
  | .error err =>
      simp only [Except.map, Router.heard] at runs
      split at runs
      · rename_i refused
        exact .inr ⟨err, rfl, refused, runs⟩
      · rename_i other
        obtain ⟨rfl, rfl⟩ := Program.runs_done.mp runs
        refine .inl ⟨?_, rfl, rfl⟩
        exact (Bool.not_eq_true _).mp other
  | .ok none =>
      obtain ⟨rfl, rfl⟩ := Program.runs_done.mp runs
      exact .inl ⟨rfl, rfl, rfl⟩
  | .ok (some value) =>
      obtain ⟨rfl, rfl⟩ := Program.runs_done.mp runs
      exact .inl ⟨rfl, rfl, rfl⟩

include calls in
theorem called_runs {index : Nat} {p : Member} {again : Program (effects.sum fleet) (Routed β)}
    {trace : List (Event (effects.sum fleet))} {exit : Exit (Routed β)}
    (runs : ((call (governedTarget index p)).along (.inr effects fleet) >>= fun answer =>
        Router.heard operation nilMessage p.name named again answer).Runs trace exit) :
    ∃ inner outcome later, trace = inner.map (lift index) ++ later ∧ (ask p).Runs inner outcome ∧
    ((Final outcome ∧ later = [] ∧
        exit = delivered operation nilMessage p.name (fun value => named p.name (wrap index value))
          outcome) ∨ ∃ err, outcome = .returned (.error err) ∧ err.is .errOpen = true ∧
      again.Runs later exit) := by
  rcases runs.bind with ⟨during, later, answer, rfl, called, ends⟩ | ⟨reason, panicked, rfl⟩
  · obtain ⟨middle, rfl, within⟩ := called.along
    obtain ⟨inner, outcome, rfl, own, exits⟩ := calls index p within
    refine ⟨inner, outcome, later, by rw [map_along_lift], own, ?_⟩
    cases outcome with
    | aborted reason => cases exits
    | returned result =>
        obtain rfl := Exit.returned.inj exits
        rcases heard_runs ends with ⟨closed, rfl, rfl⟩ | ⟨err, rfl, refused, continues⟩
        · exact .inl ⟨closed, rfl, rfl⟩
        · exact .inr ⟨err, rfl, refused, continues⟩
  · obtain ⟨middle, rfl, within⟩ := panicked.along
    obtain ⟨inner, outcome, rfl, own, exits⟩ := calls index p within
    refine ⟨inner, outcome, [], by rw [map_along_lift, List.append_nil], own, .inl ?_⟩
    cases outcome with
    | returned result => cases exits
    | aborted other =>
        obtain rfl := Exit.aborted.inj exits
        exact ⟨trivial, rfl, rfl⟩

theorem Before.unselected (supported : r.Supported) (spans : r.Over members)
    {excluded : List String} {before : List Visit} (state : Before members ask excluded before)
    {cursor left : Cursor} {looks : List (Nat × Bool)} {err : Err}
    (selects : r.Selects excluded cursor looks left (.error err)) {named : Nat → String → α → β} :
    NoFailover members operation nilMessage ask named
      (before.flatMap Visit.trace ++ selection availability cursor looks left)
      (.returned (.unavailable (Routing.unavailable operation err))) before
      (.unselected cursor looks left) := by
  obtain ⟨rfl, others⟩ := selects.of_error supported
  refine ⟨rfl, ?_, ?_, state.refused, nofun, fun _ => rfl, iff_of_true ⟨_, rfl⟩
    fun index inside => ?_⟩
  · simpa [Tail.visit] using state.distinct
  · simpa [Tail.visit] using state.few
  · have there := List.getElem?_eq_getElem inside
    apply (others index _ (spans.located_of there)).imp_left
    exact (state.names there).mp

theorem Before.exhausted {excluded : List String} {before : List Visit}
    (state : Before members ask excluded before) (full : members.length ≤ before.length)
    {named : Nat → String → α → β} :
    NoFailover members operation nilMessage ask named (before.flatMap Visit.trace ++ [])
      (.returned (.unavailable (Routing.unavailable operation .errNoHealthyProviders))) before
      .exhausted := by
  refine ⟨rfl, ?_, ?_, state.refused, nofun, fun _ => rfl, iff_of_true ⟨_, rfl⟩
    fun index inside => ?_⟩
  · simpa [Tail.visit] using state.distinct
  · simpa [Tail.visit] using state.few
  · exact .inl (state.all full inside)

/-- The loop goes on only with one more target excluded. -/
theorem route_runs (wrap : Nat → α → γ) (accepted : r.Accepted) (spans : r.Over members)
    (calls : ∀ index p {trace exit}, (call (governedTarget index p)).Runs trace exit →
      ∃ inner outcome, trace = inner.map (Event.along (.member governedCalls index)) ∧
      (ask p).Runs inner outcome ∧ exit = outcome.map fun result =>
      result.map fun value => value.map (wrap index))
    (tallied : ∀ entry ∈ members, Obeys Governance.tally (Governance.Tallied entry.1) (ask entry.1)
      ⟨false, 0⟩)
    (rounds : Nat) {excluded : List String} {before : List Visit}
    (state : Before members ask excluded before) (enough : members.length < before.length + rounds)
    {trace : List (Event (effects.sum fleet))} {exit : Exit (Routed β)}
    (honest : ∀ index event, lift index event ∈ trace → Governance.Honest event)
    (runs : (r.route operation nilMessage call named rounds excluded).Runs trace exit) :
    ∃ opened tail, NoFailover members operation nilMessage ask
      (fun index name value => named name (wrap index value)) (before.flatMap Visit.trace ++ trace)
      exit opened tail := by
  -- A round excludes one more target, so the rounds suffice for all of them.
  induction rounds generalizing excluded before trace with
  | zero => exact absurd state.few (by omega)
  | succ rounds ih =>
      unfold Router.route at runs
      split at runs
      case isFalse full =>
        obtain ⟨rfl, rfl⟩ := Program.runs_done.mp runs
        rw [spans.length_eq, state.size] at full
        exact ⟨before, .exhausted, state.exhausted (Nat.le_of_not_lt full)⟩
      rcases runs.bind with ⟨early, late, selected, rfl, first, rest⟩ | ⟨reason, stuck, _⟩
      case inr =>
        obtain ⟨_, _, _, _, _, impossible, _⟩ :=
          selectTarget_runs spans.asks accepted.supported stuck
        cases impossible
      obtain ⟨cursor, looks, left, _, rfl, same, selects⟩ :=
        selectTarget_runs spans.asks accepted.supported first
      cases same
      cases selected with
      | error err =>
          obtain ⟨rfl, rfl⟩ := Program.runs_done.mp rest
          rw [List.append_nil]
          exact ⟨before, _, state.unselected accepted.supported spans selects⟩
      | ok target =>
          obtain ⟨index, found, located, rfl, fresh, available⟩ := selects.of_ok
          obtain ⟨p, weight, there, rfl⟩ := spans.located located
          obtain ⟨inner, outcome, later, rfl, own, ends⟩ := called_runs calls rest
          have counted := Governance.tallied_of_runs (tallied _ (List.mem_of_getElem? there)) own
            fun event inside =>
            honest index event
              (List.mem_append_right _ (List.mem_append_left _ (List.mem_map_of_mem inside)))
          let v : Visit := ⟨index, cursor, looks, left, inner⟩
          -- Only `ErrOpen` goes on, and the breaker returns it before the upstream is asked.
          rcases ends with ⟨final, rfl, rfl⟩ | ⟨err, rfl, refused, continues⟩
          · have attempts : (inner.countP invokes : Int) ≤ p.retry.options.maxAttempts := by
              cases outcome with
              | returned result => exact counted.1
              | aborted reason => exact counted.1
            rw [List.append_nil]
            exact ⟨before, .answered v,
              state.settled (v := v) there fresh available selects.once own final attempts⟩
          · obtain ⟨_, unasked, open'⟩ := counted
            have opened : v.Opened members ask :=
              ⟨p, weight, err, there, own, refused, unasked (open' ▸ refused)⟩
            have visited := ih (state.visited accepted spans there fresh opened)
              (by rw [List.length_append, List.length_singleton]; omega)
              (fun index event inside => honest index event
                (List.mem_append_right _ (List.mem_append_right _ inside))) continues
            simpa only [List.flatMap_append, List.flatMap_cons, List.flatMap_nil, List.append_nil,
              List.append_assoc, Visit.trace] using visited

end Rounds

theorem chat_calls (request : ChatRequest) (index : Nat) (p : Member) {trace : List (Event fleet)}
    {exit : Exit (Except Err (Option ChatResponse))}
    (runs : ((governedTarget index p).provider.Chat request).Runs trace exit) :
    ∃ inner outcome, trace = inner.map (Event.along (.member governedCalls index)) ∧
    (p.Chat request).Runs inner outcome ∧ exit = outcome.map fun result =>
    result.map fun value => value.map id := by
  obtain ⟨inner, rfl, own⟩ := runs.along
  refine ⟨inner, exit, rfl, own, ?_⟩
  match exit with
  | .aborted reason => rfl
  | .returned (.error err) => rfl
  | .returned (.ok none) => rfl
  | .returned (.ok (some value)) => rfl

theorem stream_calls (request : ChatRequest) (index : Nat) (p : Member) {trace : List (Event fleet)}
    {exit : Exit (Except Err (Option (Stream fleet)))}
    (runs : ((governedTarget index p).provider.ChatStream request).Runs trace exit) :
    ∃ inner outcome, trace = inner.map (Event.along (.member governedCalls index)) ∧
    (p.ChatStream request).Runs inner outcome ∧ exit = outcome.map fun result =>
    result.map fun value => value.map (Stream.along (.member governedCalls index)) := by
  rcases runs.bind with ⟨early, late, result, rfl, first, rest⟩ | ⟨reason, stuck, rfl⟩
  · obtain ⟨rfl, rfl⟩ := Program.runs_done.mp rest
    obtain ⟨inner, rfl, own⟩ := first.along
    exact ⟨inner, .returned result, List.append_nil _, own, rfl⟩
  · obtain ⟨inner, rfl, own⟩ := stuck.along
    exact ⟨inner, .aborted reason, rfl, own, rfl⟩

theorem before_none {ask : Member → Program governedCalls (Except Err (Option α))} :
    Before members ask [] [] :=
  ⟨fun _ => by simp, rfl, List.nodup_nil, nofun⟩

end Loop

theorem routed_runs {program : Program (effects.sum fleet) (Routed β)}
    {trace : List (Event (effects.sum fleet))} {exit : Exit (Except Err (Option β))}
    (runs : (program >>= fun routed => pure routed.result).Runs trace exit) :
    ∃ routed : Exit (Routed β), exit = routed.map Routed.result ∧ program.Runs trace routed := by
  rcases runs.bind with ⟨early, late, routed, rfl, first, rest⟩ | ⟨reason, stuck, rfl⟩
  · obtain ⟨rfl, rfl⟩ := Program.runs_done.mp rest
    exact ⟨.returned routed, rfl, by rwa [List.append_nil]⟩
  · exact ⟨.aborted reason, rfl, stuck⟩

/-- A governed provider from its constructors. -/
def Built (p : Member) : Prop :=
  ∃ name policy options, Governance.NewProvider name upstream policy = .ok p ∧
    Retry.New options = .ok policy

theorem Built.fields {p : Member} (built : Built p) :
    p.inner = upstream ∧ 0 < p.retry.options.maxAttempts := by
  obtain ⟨name, policy, options, made, accepted⟩ := built
  obtain ⟨asked, rfl⟩ := Governance.newProvider_fields made
  exact ⟨asked, Retry.positive_of_new accepted⟩

/-- A router goes on to another target only after a breaker refused, before any
call upstream, and returns what the last target answered. -/
theorem router_never_fails_over {quote : String → String} {strategy : Strategy}
    {members : List (Member × Int)} {r : Router fleet}
    (made : New quote strategy (fleetOf members) = .ok r) (built : ∀ entry ∈ members, Built entry.1)
    (request : ChatRequest) :
    (∀ {trace exit}, (r.Chat request).Runs trace exit →
      (∀ index event, lift index event ∈ trace → Governance.Honest event) →
      ∃ routed opened tail, exit = routed.map Routed.result ∧
      NoFailover members "chat" "provider returned a nil response" (fun p => p.Chat request)
        (fun _ name response => { response with provider := name }) trace routed opened tail) ∧
    ∀ {trace exit}, (r.ChatStream request).Runs trace exit →
    (∀ index event, lift index event ∈ trace → Governance.Honest event) →
    ∃ routed opened tail, exit = routed.map Routed.result ∧
    NoFailover members "chat stream" "provider returned a nil stream"
      (fun p => p.ChatStream request)
      (fun index name stream => namedStream name
        ((stream.along (.member governedCalls index)).along (.inr effects fleet))) trace routed
      opened tail := by
  have accepted := (new_ok made).1
  have spans := over_of_new made
  -- Every round excludes a target, so the loop ends before its rounds do.
  have enough : members.length < 0 + (r.targets.length + 1) := by
    rw [spans.length_eq]
    omega
  constructor
  · intro trace exit runs honest
    obtain ⟨routed, same, loops⟩ := routed_runs runs
    have tallied (entry : Member × Int) (member : entry ∈ members) :=
      Governance.chat_tallied (built entry member).fields.1 (built entry member).fields.2 request
    obtain ⟨opened, tail, settled⟩ := route_runs (fun _ => id) accepted spans
      (chat_calls request) tallied _ before_none enough honest loops
    exact ⟨routed, opened, tail, same, settled⟩
  · intro trace exit runs honest
    obtain ⟨routed, same, loops⟩ := routed_runs runs
    have tallied (entry : Member × Int) (member : entry ∈ members) :=
      Governance.chatStream_tallied (built entry member).fields.1
        (built entry member).fields.2 request
    obtain ⟨opened, tail, settled⟩ := route_runs
      (fun index => Stream.along (.member governedCalls index)) accepted spans
      (stream_calls request) tallied _ before_none enough honest loops
    exact ⟨routed, opened, tail, same, settled⟩

/-! Two targets, the breaker of the first being open -/

def sampleMembers : List (Member × Int) :=
  [(⟨"first", upstream, ⟨⟨2, 1, 1, 1, false⟩⟩⟩, 1),
    (⟨"second", upstream, ⟨⟨2, 1, 1, 1, false⟩⟩⟩, 1)]

def sampleRouter : Router fleet :=
  ⟨.roundRobin, sampleMembers.zipIdx.map fun entry => ⟨governedTarget entry.2 entry.1.1, entry.1.2⟩⟩

def sampleAnswer : ChatResponse := ⟨"", "r", "chat.completion", 1, "m", [], ⟨1, 1, 2⟩⟩

def sampleReplies : (op : (effects.sum fleet).Op) → (effects.sum fleet).Reply op
  | .inl .lock => ⟨0, [0, 0]⟩
  | .inl (.unlock _) => ()
  | .inr (_, .inl .acquire) => .ok 0
  | .inr (_, .inl (.release _)) => ()
  | .inr (0, .inl .allow) => none
  | .inr (_ + 1, .inl .allow) => some 0
  | .inr (_, .inl (.done _ _)) => ()
  | .inr (_, .inl .available) => true
  | .inr (_, .inl (.newStream _ _ _)) => (0 : Nat)
  | .inr (_, .inl (.enterOnce _)) => true
  | .inr (_, .inl (.leaveOnce _)) => ()
  | .inr (_, .inl (.retry .ctxErr)) => none
  | .inr (_, .inl (.retry .withTimeout)) => (0 : Nat)
  | .inr (_, .inl (.retry (.cancel _))) => ()
  | .inr (_, .inl (.retry (.onAttempt _ _))) => ()
  | .inr (_, .inl (.retry (.jitter _))) => (0 : Int)
  | .inr (_, .inl (.retry (.int64N _))) => (0 : Int)
  | .inr (_, .inl (.retry (.wait _))) => none
  | .inr (_, .inr (.chat _)) => .ok (some sampleAnswer)
  | .inr (_, .inr (.chatStream _)) => .ok none
  | .inr (_, .inr (.recv _)) => (none, some .eof)
  | .inr (_, .inr (.close _)) => none

theorem sampleReplies_honest
    {program : Program (effects.sum fleet) (Except Err (Option ChatResponse))} (index : Nat)
    (event : Event governedCalls) (member : lift index event ∈ (program.run sampleReplies).1) :
    Governance.Honest event := by
  have replied := Program.run_replies sampleReplies program _ member
  obtain ⟨op, reply⟩ := event
  intro err failed
  match op with
  | .inl _ => cases failed
  | .inr (.chat req) =>
      obtain rfl : reply = .ok (some sampleAnswer) := replied
      cases failed
  | .inr (.chatStream req) =>
      obtain rfl : reply = .ok none := replied
      cases failed
  | .inr (.recv stream) => cases failed
  | .inr (.close stream) => cases failed

theorem router_never_fails_over_sample :
    ((sampleRouter.Chat ⟨"m", [], none, none, none, false⟩).run sampleReplies).2 =
      .returned (.ok (some { sampleAnswer with provider := "second" })) ∧
    ∃ routed opened tail,
    ((sampleRouter.Chat ⟨"m", [], none, none, none, false⟩).run sampleReplies).2 =
      routed.map Routed.result ∧ NoFailover sampleMembers "chat" "provider returned a nil response"
      (fun p => p.Chat ⟨"m", [], none, none, none, false⟩)
      (fun _ name response => { response with provider := name })
      ((sampleRouter.Chat ⟨"m", [], none, none, none, false⟩).run sampleReplies).1 routed opened
      tail := by
  have made : New id .roundRobin (fleetOf sampleMembers) = .ok sampleRouter := rfl
  have built (entry : Member × Int) (member : entry ∈ sampleMembers) : Built entry.1 := by
    rcases List.mem_cons.mp member with rfl | other
    · exact ⟨"first", _, ⟨2, 1, 1, 1, false⟩, rfl, rfl⟩
    · obtain rfl := List.mem_singleton.mp other
      exact ⟨"second", _, ⟨2, 1, 1, 1, false⟩, rfl, rfl⟩
  refine ⟨rfl, ?_⟩
  exact (router_never_fails_over made built ⟨"m", [], none, none, none, false⟩).1
    (Program.run_runs _ _) sampleReplies_honest

end ModelGate.Routing
