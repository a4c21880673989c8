import ModelGate.Routing.Failover

/-! Selections of one router, one after the other under its mutex. -/

set_option autoImplicit false

namespace ModelGate.Routing

open Data Semantics

variable {T : Signature}

/-- A call of `selectTarget`, the answers of the targets and its result. -/
structure Round (T : Signature) where
  excluded : List String
  available : Nat → Bool
  result : Except Err (Target T)

/-- One call of `selectTarget` that finds `cursor` and leaves `left`. -/
def Turn (r : Router T) (e : Embedding asks T) (cursor : Cursor) (round : Round T) (left : Cursor) :
    Prop :=
  ∃ trace, (r.selectTarget round.excluded).Runs trace (.returned round.result) ∧
    trace.head? = some ⟨.inl .lock, cursor⟩ ∧ trace.getLast? = some ⟨.inl (.unlock left), ()⟩ ∧
    ∀ index answer, look e (index, answer) ∈ trace → answer = round.available index

inductive Turns (r : Router T) (e : Embedding asks T) :
    Cursor → List (Round T) → Cursor → Prop where
  | none (cursor : Cursor) : Turns r e cursor [] cursor
  | next {cursor left last : Cursor} {round : Round T} {rounds : List (Round T)}
      (turn : Turn r e cursor round left)
      (turns : Turns r e left rounds last) : Turns r e cursor (round :: rounds) last

def Reachable (r : Router T) (e : Embedding asks T) (cursor : Cursor) : Prop :=
  ∃ rounds, Turns r e r.cursor rounds cursor

def Round.eligible (r : Router T) (round : Round T) : Nat → Bool :=
  r.eligible round.excluded round.available

section Turns

variable {r : Router T} {e : Embedding asks T} (asked : r.Asks e) (supported : r.Supported)
include asked supported

theorem Turn.pick {cursor left : Cursor} {round : Round T} (turn : Turn r e cursor round left) :
    (r.pick (round.eligible r) cursor).2 = left ∧
      round.result = verdict ((r.pick (round.eligible r) cursor).1.bind r.targetAt) := by
  obtain ⟨trace, runs, found, leaves, answers⟩ := turn
  obtain ⟨start, looks, last, result, rfl, returned, selects⟩ :=
    selectTarget_runs asked supported runs
  obtain rfl := Exit.returned.inj returned
  have same : start = cursor := by
    have event := Option.some.inj found
    cases event
    rfl
  have ending : last = left := by
    rw [selection, ← List.cons_append, List.getLast?_append] at leaves
    cases Option.some.inj leaves
    rfl
  subst same ending
  apply selects.picks
  intro answer member
  apply answers answer.1 answer.2
  exact List.mem_cons_of_mem _ (List.mem_append_left _ (List.mem_map_of_mem member))

omit asked supported in
/-- What every turn keeps, any number of turns keep. -/
theorem Turns.invariant {Inv : Cursor → Prop}
    (kept : ∀ {cursor round left}, Turn r e cursor round left → Inv cursor → Inv left)
    {cursor last : Cursor} {rounds : List (Round T)} (turns : Turns r e cursor rounds last)
    (holds : Inv cursor) : Inv last := by
  induction turns with
  | none cursor => exact holds
  | next turn _ ih => exact ih (kept turn holds)

end Turns

/-! Turns of a router over governed providers -/

def turnReplies (cursor : Cursor) (available : Nat → Bool) :
    (op : (effects.sum fleet).Op) → (effects.sum fleet).Reply op
  | .inl .lock => cursor
  | .inr (index, .inl .available) => available index
  | op => sampleReplies op

theorem fleet_turn {r : Router fleet} {cursor left : Cursor} {excluded : List String}
    {available : Nat → Bool} {result : Except Err (Target fleet)}
    (returned : ((r.selectTarget excluded).run (turnReplies cursor available)).2 = .returned result)
    (leaves : ((r.selectTarget excluded).run (turnReplies cursor available)).1.getLast? =
      some ⟨.inl (.unlock left), ()⟩) :
    Turn r availability cursor ⟨excluded, available, result⟩ left := by
  refine ⟨_, returned ▸ Program.run_runs (turnReplies cursor available) _, rfl, leaves,
    fun index answer member => ?_⟩
  exact Program.run_replies (turnReplies cursor available) _ _ member

end ModelGate.Routing
