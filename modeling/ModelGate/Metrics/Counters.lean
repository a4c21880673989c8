import Mathlib.Logic.Function.Basic
import ModelGate.Service.Metering

/-! The token counters of `internal/metrics` as the observer of a gateway.

A counter of `prometheus` panics when it is asked to decrease. The other
metrics only ever count up, and nothing reads them.
-/

set_option autoImplicit false

namespace ModelGate.Metrics

open Semantics Provider Service.GatewayService

inductive TokenKind where | input | output | total
  deriving DecidableEq

/-- The field `tokens` of a `Metrics`, without the rounding of its sums. -/
structure Counters where
  tokens : String → TokenKind → Int

namespace Counters

/-- `Counter.Add`. A panic leaves the counters behind as they were. -/
def add (m : Counters) (providerName : String) (kind : TokenKind) (amount : Int) :
    Except Counters Counters :=
  if amount < 0 then .error m
  else .ok ⟨Function.update m.tokens providerName
    (Function.update (m.tokens providerName) kind (m.tokens providerName kind + amount))⟩

def ObserveTokens (m : Counters) (providerName : String) (usage : ChatUsage) :
    Except Counters Counters := do
  let providerName := if providerName = "" then "unknown" else providerName
  let m ← m.add providerName .input usage.promptTokens
  let m ← m.add providerName .output usage.completionTokens
  m.add providerName .total usage.totalTokens

end Counters

def decreasePanic : String := "counter cannot decrease in value"

def panicked : Except Counters Counters → Option String
  | .ok _ => none
  | .error _ => some decreasePanic

def NonNegative (usage : ChatUsage) : Prop :=
  0 ≤ usage.promptTokens ∧ 0 ≤ usage.completionTokens ∧ 0 ≤ usage.totalTokens

instance (usage : ChatUsage) : Decidable (NonNegative usage) := inferInstanceAs (Decidable (_ ∧ _))

theorem add_error {m : Counters} {providerName : String} {kind : TokenKind} {amount : Int}
    (negative : amount < 0) : m.add providerName kind amount = .error m :=
  if_pos negative

theorem add_ok (m : Counters) (providerName : String) (kind : TokenKind) {amount : Int}
    (counts : 0 ≤ amount) : ∃ next, m.add providerName kind amount = .ok next :=
  ⟨_, if_neg (Int.not_lt.mpr counts)⟩

/-- `ObserveTokens` returns when no count is negative and panics otherwise. -/
theorem observeTokens_ok_iff {m : Counters} {providerName : String} {usage : ChatUsage} :
    (∃ next, m.ObserveTokens providerName usage = .ok next) ↔ NonNegative usage := by
  unfold Counters.ObserveTokens NonNegative
  generalize (if providerName = "" then "unknown" else providerName) = label
  by_cases prompt : 0 ≤ usage.promptTokens
  · obtain ⟨first, added⟩ := add_ok m label .input prompt
    by_cases completion : 0 ≤ usage.completionTokens
    · obtain ⟨second, added'⟩ := add_ok first label .output completion
      by_cases total : 0 ≤ usage.totalTokens
      · obtain ⟨last, added''⟩ := add_ok second label .total total
        simp [added, added', added'', bind, Except.bind, prompt, completion, total]
      · simp [added, added', add_error (Int.not_le.mp total), bind, Except.bind, total]
    · simp [added, add_error (Int.not_le.mp completion), bind, Except.bind, completion]
  · simp [add_error (Int.not_le.mp prompt), bind, Except.bind, prompt]

theorem panicked_observeTokens (m : Counters) (providerName : String) (usage : ChatUsage) :
    panicked (m.ObserveTokens providerName usage) = if NonNegative usage then none
    else some decreasePanic := by
  split
  · have returns : ∃ next, m.ObserveTokens providerName usage = .ok next :=
      observeTokens_ok_iff.mpr ‹_›
    obtain ⟨next, returns⟩ := returns
    rw [returns]
    rfl
  · cases found : m.ObserveTokens providerName usage with
    | ok next => exact absurd (observeTokens_ok_iff.mp ⟨next, found⟩) ‹_›
    | error left => rfl

/-! The counters behind a gateway -/

section Observer

variable {T : Signature} {α : Type} {trace : List (Event (Service.effects.sum T))}

def observedOf : Event (Service.effects.sum T) → Option ChatUsage
  | ⟨.inl (.observeTokens _ usage), _⟩ => some usage
  | _ => none

/-- The usages an execution hands to `ObserveTokens`. -/
def observed (trace : List (Event (Service.effects.sum T))) : List ChatUsage :=
  trace.filterMap observedOf

/-- The observer is a `Metrics`: it panics where one of its counters does. -/
def Observes (trace : List (Event (Service.effects.sum T))) : Prop :=
  ∀ providerName usage reply, own (.observeTokens providerName usage) reply ∈ trace →
    ∃ m : Counters, reply = panicked (m.ObserveTokens providerName usage)

theorem mem_observed {usage : ChatUsage} :
    usage ∈ observed trace ↔
    ∃ providerName reply, own (.observeTokens providerName usage) reply ∈ trace := by
  constructor
  · intro member
    obtain ⟨event, among, same⟩ := List.mem_filterMap.mp member
    unfold observedOf at same
    split at same
    · cases same
      exact ⟨_, _, among⟩
    · cases same
  · rintro ⟨providerName, reply, among⟩
    exact List.mem_filterMap.mpr ⟨_, among, rfl⟩

theorem panicIn_observes (observes : Observes trace) :
    panicIn trace = if ∀ usage ∈ observed trace, NonNegative usage then none
    else some decreasePanic := by
  have replies {providerName : String} {usage : ChatUsage} {reply : Option String}
      (among : own (.observeTokens providerName usage) reply ∈ trace) :
      reply = if NonNegative usage then none else some decreasePanic := by
    obtain ⟨m, rfl⟩ := observes _ _ _ among
    exact panicked_observeTokens m providerName usage
  cases met : panicIn trace with
  | none =>
      rw [if_pos]
      intro usage member
      obtain ⟨providerName, reply, among⟩ := mem_observed.mp member
      by_contra negative
      have calm : panicOf (own (T := T) (.observeTokens providerName usage) reply) = none :=
        List.findSome?_eq_none_iff.mp met _ among
      have panics := replies among
      rw [if_neg negative] at panics
      rw [panics] at calm
      cases calm
  | some reason =>
      obtain ⟨⟨op, reply⟩, among, panics⟩ := List.exists_of_findSome?_eq_some met
      unfold panicOf at panics
      split at panics
      · rename_i providerName usage reply same
        cases same
        have found := replies among
        rw [panics] at found
        split at found
        · cases found
        · rename_i negative
          rw [if_neg fun counts => negative (counts usage (mem_observed.mpr ⟨_, _, among⟩)), found]
      · cases panics

end Observer

end ModelGate.Metrics
