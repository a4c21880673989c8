import ModelGate.Routing.Turns

/-! The round robin is even over the eligible targets. -/

set_option autoImplicit false

namespace ModelGate.Routing

open Data Semantics

variable {T : Signature} {r : Router T} {e : Embedding asks T}

theorem pick_roundRobin (round : r.strategy = .roundRobin) (eligible : Nat → Bool)
    (cursor : Cursor) :
    r.pick eligible cursor =
      ((rotate r.targets.length eligible r.targets.length cursor.next).1, { cursor with
        next := (rotate r.targets.length eligible r.targets.length cursor.next).2 }) := by
  simp only [Router.pick, round]

/-- The eligible targets in the cyclic order of the configuration, from the cursor on. -/
def Router.order (r : Router T) (eligible : Nat → Bool) (cursor : Cursor) : List Nat :=
  ((List.range r.targets.length).rotate cursor.next).filter eligible

/-- Consecutive selections take the eligible targets in turn. -/
structure Even (r : Router T) (eligible : Nat → Bool) (cursor : Cursor)
    (results : List (Except Err (Target T))) (indices : List Nat) : Prop where
  results_eq : results = indices.map fun index => verdict (r.targetAt index)
  cyclic : indices = inTurn (r.order eligible cursor) results.length
  /-- As many selections as there are eligible targets return each of them once. -/
  each : ∀ start, start + (r.order eligible cursor).length ≤ results.length →
    ((indices.drop start).take (r.order eligible cursor).length).Perm
      ((List.range r.targets.length).filter eligible)
  counts : ∀ first second, first < r.targets.length → second < r.targets.length →
    eligible first = true → eligible second = true → indices.count first ≤ indices.count second + 1

section Even

variable (asked : r.Asks e) (round : r.strategy = .roundRobin)
include asked round

theorem turn_next {cursor left : Cursor} {turn : Round T} (goes : Turn r e cursor turn left) :
    left.next = (rotate r.targets.length (turn.eligible r) r.targets.length cursor.next).2 := by
  obtain ⟨leaves, _⟩ := goes.pick asked (.inl round)
  rw [← leaves, pick_roundRobin round]

theorem next_lt (occupied : r.targets ≠ []) {cursor : Cursor} (reachable : Reachable r e cursor) :
    cursor.next < r.targets.length := by
  have positive : 0 < r.targets.length := List.length_pos_of_ne_nil occupied
  have kept {cursor left : Cursor} {turn : Round T} (goes : Turn r e cursor turn left)
      (inside : cursor.next < r.targets.length) : left.next < r.targets.length := by
    rw [turn_next asked round goes]
    exact rotate_lt inside
  obtain ⟨rounds, turns⟩ := reachable
  exact turns.invariant kept positive

theorem turns_none {cursor last : Cursor} {rounds : List (Round T)}
    (turns : Turns r e cursor rounds last) (inside : cursor.next < r.targets.length)
    {eligible : Nat → Bool} (same : ∀ turn ∈ rounds, turn.eligible r = eligible)
    (nothing : ∀ index < r.targets.length, eligible index = false) :
    last.next = cursor.next ∧ ∀ turn ∈ rounds, turn.result = .error .errNoHealthyProviders := by
  induction turns with
  | none cursor => exact ⟨rfl, nofun⟩
  | @next cursor left last turn rounds goes _ ih =>
      have here := same turn (List.mem_cons_self ..)
      have found : rotate r.targets.length eligible r.targets.length cursor.next =
          (none, cursor.next) := by
        rw [rotate_of_none (fun step _ => nothing _ (Nat.mod_lt _ (by omega))) inside,
          Nat.add_mod_right, Nat.mod_eq_of_lt inside]
      have stays : left.next = cursor.next := by rw [turn_next asked round goes, here, found]
      obtain ⟨later, results⟩ :=
        ih (stays ▸ inside) fun other member => same other (List.mem_cons_of_mem _ member)
      refine ⟨later.trans stays, fun other member => ?_⟩
      rcases List.mem_cons.mp member with rfl | behind
      · obtain ⟨_, result⟩ := goes.pick asked (.inl round)
        rw [result, here, pick_roundRobin round, found]
        rfl
      · exact results other behind

theorem turns_inTurn {cursor last : Cursor} {rounds : List (Round T)}
    (turns : Turns r e cursor rounds last) {eligible : Nat → Bool}
    (same : ∀ turn ∈ rounds, turn.eligible r = eligible)
    (some' : ∃ index < r.targets.length, eligible index = true) :
    rounds.map Round.result = (inTurn (r.order eligible cursor) rounds.length).map fun index =>
    verdict (r.targetAt index) := by
  unfold Router.order
  rw [← inOrder_eq]
  induction turns with
  | none cursor => rfl
  | @next cursor left last turn rounds goes _ ih =>
      have here := same turn (List.mem_cons_self ..)
      obtain ⟨place, rest, before, found, after⟩ := rotate_inOrder cursor.next some'
      obtain ⟨_, result⟩ := goes.pick asked (.inl round)
      rw [here, pick_roundRobin round, found] at result
      have continues := ih fun other member => same other (List.mem_cons_of_mem _ member)
      rw [turn_next asked round goes, here, after] at continues
      rw [List.map_cons, continues, before, List.length_cons, inTurn_cons, List.map_cons, result]
      rfl

end Even

/-- From any state, selections with the same eligible targets are even over
them, and leave the cursor where it is when there are none. -/
theorem round_robin_even {quote : String → String} {targets : List (WeightedTarget T)}
    (made : New quote .roundRobin targets = .ok r) (asked : r.Asks e) {cursor last : Cursor}
    (reachable : Reachable r e cursor) {rounds : List (Round T)}
    (turns : Turns r e cursor rounds last) {eligible : Nat → Bool}
    (same : ∀ turn ∈ rounds, turn.eligible r = eligible) :
    cursor.next < r.targets.length ∧
    ((∃ index < r.targets.length, eligible index = true) →
      ∃ indices, Even r eligible cursor (rounds.map Round.result) indices) ∧
    ((∀ index < r.targets.length, eligible index = false) → last.next = cursor.next ∧
      ∀ turn ∈ rounds, turn.result = .error .errNoHealthyProviders) := by
  obtain ⟨accepted, round, _⟩ := new_ok made
  have inside := next_lt asked round accepted.occupied reachable
  refine ⟨inside, fun some' => ?_, turns_none asked round turns inside same⟩
  have order : r.order eligible cursor = inOrder r.targets.length eligible cursor.next :=
    (inOrder_eq _).symm
  have member {index : Nat} (bound : index < r.targets.length) (passes : eligible index = true) :
      index ∈ r.order eligible cursor := by
    rw [order, (inOrder_perm cursor.next).mem_iff]
    exact List.mem_filter.mpr ⟨List.mem_range.mpr bound, passes⟩
  refine ⟨_, turns_inTurn asked round turns same some', by rw [List.length_map], ?_, ?_⟩
  · intro start within
    rw [List.length_map] at within
    apply (inTurn_window within).trans
    rw [order]
    exact inOrder_perm cursor.next
  · intro first second one two passes other
    apply count_inTurn_le _ _ (member one passes) (member two other)
    rw [order]
    exact nodup_inOrder cursor.next

def sampleTarget (index : Nat) : Except Err (Target fleet) := verdict (sampleRouter.targetAt index)

def sampleRounds : List (Round fleet) :=
  [⟨[], fun _ => true, sampleTarget 0⟩, ⟨[], fun _ => true, sampleTarget 1⟩,
    ⟨[], fun _ => true, sampleTarget 0⟩]

theorem sample_turns : Turns sampleRouter availability sampleRouter.cursor sampleRounds
    ⟨1, [0, 0]⟩ := by
  have first : Turn sampleRouter availability ⟨0, [0, 0]⟩ ⟨[], fun _ => true, sampleTarget 0⟩
      ⟨1, [0, 0]⟩ :=
    fleet_turn rfl rfl
  have second : Turn sampleRouter availability ⟨1, [0, 0]⟩ ⟨[], fun _ => true, sampleTarget 1⟩
      ⟨0, [0, 0]⟩ :=
    fleet_turn rfl rfl
  exact .next first (.next second (.next first (.none _)))

theorem round_robin_even_sample :
    ∃ indices, Even sampleRouter (fun index => decide (index < 2)) sampleRouter.cursor
      [sampleTarget 0, sampleTarget 1, sampleTarget 0] indices := by
  have made : New id .roundRobin (fleetOf sampleMembers) = .ok sampleRouter := rfl
  have same (turn : Round fleet) (member : turn ∈ sampleRounds) :
      turn.eligible sampleRouter = fun index => decide (index < 2) := by
    funext index
    have always : turn.excluded = [] ∧ turn.available = fun _ => true := by
      simp only [sampleRounds, List.mem_cons, List.not_mem_nil, or_false] at member
      rcases member with rfl | rfl | rfl <;> exact ⟨rfl, rfl⟩
    rw [Round.eligible, always.1, always.2]
    match index with
    | 0 => rfl
    | 1 => rfl
    | index + 2 => rfl
  exact (round_robin_even made (over_of_new made).asks ⟨[], .none _⟩ sample_turns same).2.1
    ⟨0, by decide, rfl⟩

end ModelGate.Routing
