import Mathlib.Data.Rat.Cast.Order
import Mathlib.Tactic.FieldSimp
import ModelGate.Routing.Weighted

/-! The weighted round robin over whole runs.

With the same targets eligible the selections are proportional to the weights.
Whatever is eligible, the current weights stay within bounds.
-/

set_option autoImplicit false

namespace ModelGate.Routing

open Data Numeric Semantics ModelGate.Provider

variable {T : Signature} {r : Router T} {e : Embedding asks T}

def Router.total (r : Router T) (eligible : Nat → Bool) : Int :=
  ∑ index ∈ among eligible r.targets.length, r.weightAt index

theorem weightAt_pos (accepted : r.Accepted) {index : Nat} (inside : index < r.targets.length) :
    0 < r.weightAt index := by
  rw [Router.weightAt, List.getElem?_eq_getElem inside]
  exact accepted.weights _ (List.getElem_mem inside)

theorem fits_of_spread {all : Finset Nat} {eligible : Nat → Bool} {current : Nat → Int}
    (positive : ∀ index ∈ all, 0 < r.weightAt index)
    (within : among eligible r.targets.length ⊆ all)
    (small : all.card * ∑ index ∈ all, r.weightAt index < 2 ^ 63)
    (spread : Spread all r.weightAt current) : r.Fits eligible current := by
  have part {some' : Finset Nat} (inside : some' ⊆ all) : 0 ≤ ∑ index ∈ some', r.weightAt index ∧
      ∑ index ∈ some', r.weightAt index ≤ ∑ index ∈ all, r.weightAt index :=
    ⟨Finset.sum_nonneg fun index member => (positive index (inside member)).le,
      Finset.sum_le_sum_of_subset_of_nonneg inside fun index member _ => (positive index member).le⟩
  have single {index : Nat} (member : index ∈ all) : r.weightAt index ≤
      ∑ other ∈ all, r.weightAt other :=
    Finset.single_le_sum (fun other known => (positive other known).le) member
  -- No current weight leaves (n - 1) * W, so there is room for one more W on either side.
  have room {index : Nat} (member : index ∈ all) :
      -(2 ^ 63 - ∑ other ∈ all, r.weightAt other) < current index ∧
        current index < 2 ^ 63 - ∑ other ∈ all, r.weightAt other := by
    have bound := abs_le.mp (spread.abs_current_le member)
    rw [sub_mul, one_mul] at bound
    omega
  constructor
  · intro index member
    have inside := within member
    have := room inside
    have := single inside
    have := positive index inside
    omega
  · intro seen le
    obtain ⟨low, high⟩ := part ((among_subset eligible le).trans within)
    refine ⟨low, ?_⟩
    rcases all.eq_empty_or_nonempty with rfl | ⟨index, member⟩
    · rw [Finset.sum_empty] at high
      omega
    · have := room member
      omega
  · intro index member
    have inside := within member
    have := room inside
    have := positive index inside
    have := (part within).2
    omega

/-- Current weights that leave a selection room. -/
structure Settled (r : Router T) (all : Finset Nat) (cursor : Cursor) : Prop where
  length : cursor.currentWeights.length = r.targets.length
  spread : Spread all r.weightAt cursor.weightAt

theorem cursor_weightAt (index : Nat) : r.cursor.weightAt index = 0 := by
  simp only [Cursor.weightAt, Router.cursor, List.getD_eq_getElem?_getD, List.getElem?_map]
  cases r.targets[index]? <;> rfl

theorem settled_cursor {all : Finset Nat} (positive : ∀ index ∈ all, 0 < r.weightAt index) :
    Settled r all r.cursor :=
  ⟨List.length_map _, spread_zero positive fun index _ => cursor_weightAt index⟩

section Runs

variable (asked : r.Asks e) (weighted : r.strategy = .weightedRoundRobin)
include asked weighted

theorem turn_weighted {cursor left : Cursor} {round : Round T} (turn : Turn r e cursor round left)
    (length : cursor.currentWeights.length = r.targets.length)
    (fits : r.Fits (round.eligible r) cursor.weightAt) :
    left.currentWeights.length = r.targets.length ∧ left.next = cursor.next ∧
    ((among (round.eligible r) r.targets.length = ∅ ∧ left = cursor) ∨
      ∃ index, round.result = verdict (r.targetAt index) ∧
      Draw r.weightAt cursor.weightAt (among (round.eligible r) r.targets.length) index
        left.weightAt) := by
  obtain ⟨leaves, result⟩ := turn.pick asked (.inr weighted)
  rcases pick_weighted weighted length fits with ⟨nothing, picked⟩ |
    ⟨index, last, picked, draw, kept, next⟩
  · rw [picked] at leaves
    subst leaves
    exact ⟨length, rfl, .inl ⟨nothing, rfl⟩⟩
  · rw [picked] at leaves result
    subst leaves
    exact ⟨kept, next, .inr ⟨index, result, draw⟩⟩

variable {all : Finset Nat} (positive : ∀ index ∈ all, 0 < r.weightAt index)
  (small : all.card * ∑ index ∈ all, r.weightAt index < 2 ^ 63)
include positive small

theorem Settled.turn {cursor left : Cursor} {round : Round T} (turn : Turn r e cursor round left)
    (within : among (round.eligible r) r.targets.length ⊆ all) (settled : Settled r all cursor) :
    Settled r all left := by
  have fits := fits_of_spread positive within small settled.spread
  obtain ⟨length, _, ⟨_, rfl⟩ | ⟨index, _, draw⟩⟩ :=
    turn_weighted asked weighted turn settled.length fits
  · exact settled
  · exact ⟨length, draw.spread positive within settled.spread⟩

theorem turns_draws {cursor last : Cursor} {rounds : List (Round T)}
    (turns : Turns r e cursor rounds last) (settled : Settled r all cursor) {eligible : Nat → Bool}
    (same : ∀ turn ∈ rounds, turn.eligible r = eligible)
    (within : among eligible r.targets.length ⊆ all)
    (occupied : (among eligible r.targets.length).Nonempty) :
    Settled r all last ∧ last.next = cursor.next ∧
    ∃ indices, rounds.map Round.result = indices.map (fun index => verdict (r.targetAt index)) ∧
    Draws r.weightAt (among eligible r.targets.length) cursor.weightAt indices last.weightAt := by
  induction turns with
  | none cursor => exact ⟨settled, rfl, [], rfl, .none _⟩
  | @next cursor left last round rounds turn _ ih =>
      obtain rfl := same round (List.mem_cons_self ..)
      have fits := fits_of_spread positive within small settled.spread
      obtain ⟨_, stays, ⟨nothing, _⟩ | ⟨index, result, draw⟩⟩ :=
        turn_weighted asked weighted turn settled.length fits
      · exact absurd nothing occupied.ne_empty
      · obtain ⟨ends, next, indices, results, draws⟩ := ih
          (settled.turn asked weighted positive small turn within) fun other member =>
          same other (List.mem_cons_of_mem _ member)
        refine ⟨ends, next.trans stays, index :: indices, ?_, .next draw draws⟩
        rw [List.map_cons, List.map_cons, result, results]

end Runs

/-! Runs from one cursor with the same eligible targets agree -/

theorem Turns.append {cursor last : Cursor} {first second : List (Round T)}
    (turns : Turns r e cursor (first ++ second) last) :
    ∃ middle, Turns r e cursor first middle ∧ Turns r e middle second last := by
  induction first generalizing cursor with
  | nil => exact ⟨cursor, .none cursor, turns⟩
  | cons round first ih =>
      cases turns with
      | next turn later =>
          obtain ⟨middle, early, late⟩ := ih later
          exact ⟨middle, .next turn early, late⟩

theorem turns_agree (asked : r.Asks e) (supported : r.Supported) {cursor last end' : Cursor}
    {first second : List (Round T)} (one : Turns r e cursor first last)
    (two : Turns r e cursor second end') {eligible : Nat → Bool}
    (same : ∀ turn ∈ first, turn.eligible r = eligible)
    (alike : ∀ turn ∈ second, turn.eligible r = eligible) {place : Nat}
    (short : place < first.length) (long : place < second.length) :
    (first.map Round.result)[place]? = (second.map Round.result)[place]? := by
  -- Equal cursors and equal eligible targets give equal picks and equal cursors again.
  induction one generalizing second place with
  | none cursor => cases short
  | @next cursor left last round rounds turn _ ih =>
      cases two with
      | none => cases long
      | @next _ other _ second rest turn' later =>
          obtain ⟨leaves, result⟩ := turn.pick asked supported
          obtain ⟨leaves', result'⟩ := turn'.pick asked supported
          rw [same round (List.mem_cons_self ..)] at leaves result
          rw [alike second (List.mem_cons_self ..)] at leaves' result'
          cases place with
          | zero =>
              rw [List.map_cons, List.map_cons, List.getElem?_cons_zero, List.getElem?_cons_zero,
                result, result']
          | succ place =>
              obtain rfl := leaves.symm.trans leaves'
              exact ih later (fun round member => same round (List.mem_cons_of_mem _ member))
                (fun round member => alike round (List.mem_cons_of_mem _ member))
                (Nat.lt_of_succ_lt_succ short) (Nat.lt_of_succ_lt_succ long)

/-! Selections in proportion to the weights -/

/-- The selections of a run from a fresh router follow the weights of the
eligible targets. -/
structure Proportional (r : Router T) (eligible : Nat → Bool)
    (results : List (Except Err (Target T))) (last : Cursor) (indices : List Nat) : Prop where
  results_eq : results = indices.map fun index => verdict (r.targetAt index)
  inside : ∀ index ∈ indices, index ∈ among eligible r.targets.length
  cycles : ∀ cycles : Nat, (results.length : Int) = cycles * r.total eligible →
    (∀ index ∈ among eligible r.targets.length, (indices.count index : Int) = cycles *
      r.weightAt index) ∧ ∀ current ∈ last.currentWeights, current = 0
  periodic : ∀ place period : Nat, (period : Int) = r.total eligible →
    place + period < results.length → results[place + period]? = results[place]?
  ahead : ∀ index ∈ among eligible r.targets.length,
    indices.count index * r.total eligible < results.length * r.weightAt index + r.total eligible

theorem weights_zero {cursor : Cursor} (zero : ∀ index, cursor.weightAt index = 0) :
    ∀ current ∈ cursor.currentWeights, current = 0 := by
  intro current member
  obtain ⟨index, bound, rfl⟩ := List.mem_iff_getElem.mp member
  have read := zero index
  rw [Cursor.weightAt, List.getD_eq_getElem _ _ bound] at read
  exact read

theorem cursor_eq {cursor : Cursor} (length : cursor.currentWeights.length = r.targets.length)
    (next : cursor.next = 0) (zero : ∀ current ∈ cursor.currentWeights, current = 0) :
    cursor = r.cursor := by
  obtain ⟨_, weights⟩ := cursor
  subst next
  have same : weights = r.targets.map fun _ => 0 := by
    rw [List.map_const', List.eq_replicate_iff]
    exact ⟨length, zero⟩
  rw [Router.cursor, ← same]

theorem length_indices {rounds : List (Round T)} {indices : List Nat}
    (results : rounds.map Round.result = indices.map fun index => verdict (r.targetAt index)) :
    indices.length = rounds.length := by
  have lengths := congrArg List.length results
  rw [List.length_map, List.length_map] at lengths
  exact lengths.symm

section Proportional

variable {quote : String → String} {targets : List (WeightedTarget T)}
  (made : New quote .weightedRoundRobin targets = .ok r) (asked : r.Asks e) {last : Cursor}
  {rounds : List (Round T)} (turns : Turns r e r.cursor rounds last) {eligible : Nat → Bool}
  (same : ∀ turn ∈ rounds, turn.eligible r = eligible)
  (occupied : (among eligible r.targets.length).Nonempty)
  (small : (among eligible r.targets.length).card * r.total eligible < 2 ^ 63)
include made asked turns same occupied small

theorem fresh_draws : last.currentWeights.length = r.targets.length ∧ last.next = 0 ∧ ∃ indices,
    rounds.map Round.result = indices.map (fun index => verdict (r.targetAt index)) ∧
    Draws r.weightAt (among eligible r.targets.length) r.cursor.weightAt indices last.weightAt := by
  obtain ⟨accepted, weighted, _⟩ := new_ok made
  have positive (index : Nat) (member : index ∈ among eligible r.targets.length) :
      0 < r.weightAt index :=
    weightAt_pos accepted (mem_among.mp member).1
  obtain ⟨settled, next, drawn⟩ := turns_draws asked weighted positive small turns
    (settled_cursor positive) same (Finset.Subset.refl _) occupied
  exact ⟨settled.length, next, drawn⟩

theorem last_weightAt {cycles : Nat} (whole : (rounds.length : Int) = cycles * r.total eligible)
    (index : Nat) : last.weightAt index = 0 := by
  obtain ⟨accepted, _, _⟩ := new_ok made
  obtain ⟨_, _, indices, results, draws⟩ := fresh_draws made asked turns same occupied small
  by_cases member : index ∈ among eligible r.targets.length
  · rw [← length_indices results] at whole
    exact draws.last_zero (fun index member => weightAt_pos accepted (mem_among.mp member).1)
      (fun index _ => cursor_weightAt index) occupied whole member
  · rw [draws.last_of_notMem member, cursor_weightAt]

omit occupied small in
theorem results_periodic {period : Nat} (within : period ≤ rounds.length)
    (back : ∀ {middle}, Turns r e r.cursor (rounds.take period) middle → middle = r.cursor)
    {place : Nat} (bound : place + period < rounds.length) :
    (rounds.map Round.result)[place + period]? = (rounds.map Round.result)[place]? := by
  obtain ⟨accepted, weighted, _⟩ := new_ok made
  have split' : Turns r e r.cursor (rounds.take period ++ rounds.drop period) last := by
    rw [List.take_append_drop]
    exact turns
  obtain ⟨middle, early, late⟩ := split'.append
  obtain rfl := back early
  rw [Nat.add_comm, ← List.getElem?_drop, ← List.map_drop]
  exact turns_agree asked (.inr weighted) late turns
    (fun turn member => same turn (List.mem_of_mem_drop member)) same
    (by rw [List.length_drop]; omega) (by omega)

/-- From a fresh router the selections are in proportion to the weights of the
eligible targets, exactly so after every multiple of their sum. -/
theorem weighted_round_robin_proportional :
    ∃ indices, Proportional r eligible (rounds.map Round.result) last indices := by
  obtain ⟨accepted, _, _⟩ := new_ok made
  obtain ⟨_, _, indices, results, draws⟩ := fresh_draws made asked turns same occupied small
  have positive (index : Nat) (member : index ∈ among eligible r.targets.length) :
      0 < r.weightAt index :=
    weightAt_pos accepted (mem_among.mp member).1
  have zero (index : Nat) (_ : index ∈ among eligible r.targets.length) :=
    cursor_weightAt (r := r) index
  have length := length_indices results
  refine ⟨indices, results, draws.mem, ?_, ?_, ?_⟩
  · intro cycles whole
    rw [List.length_map] at whole
    constructor
    · intro index member
      rw [← length] at whole
      exact draws.count_eq positive zero whole member
    · exact weights_zero (last_weightAt made asked turns same occupied small whole)
  · intro place period whole bound
    rw [List.length_map] at bound
    -- After one period all current weights are zero again, as in a fresh router.
    apply results_periodic made asked turns same (by omega) _ bound
    intro middle early
    have taken (turn : Round T) (member : turn ∈ rounds.take period) :=
      same turn (List.mem_of_mem_take member)
    obtain ⟨kept, next, _⟩ := fresh_draws made asked early taken occupied small
    have once : ((rounds.take period).length : Int) = (1 : Nat) * r.total eligible := by
      rw [List.length_take_of_le (by omega), Nat.cast_one, one_mul, whole]
    have back := weights_zero (last_weightAt made asked early taken occupied small once)
    exact cursor_eq kept next back
  · intro index member
    rw [List.length_map, ← length]
    exact draws.count_lt positive zero member

end Proportional

/-! Routers of up to three governed providers -/

def ratedMembers (weights : List Int) : List (Member × Int) :=
  (["first", "second", "third"].zip weights).map fun entry =>
    (⟨entry.1, upstream, ⟨⟨2, 1, 1, 1, false⟩⟩⟩, entry.2)

def ratedRouter (weights : List Int) : Router fleet :=
  ⟨.weightedRoundRobin, (ratedMembers weights).zipIdx.map fun entry =>
    ⟨governedTarget entry.2 entry.1.1, entry.1.2⟩⟩

/-- A selection with every target available. -/
def ratedRound (weights : List Int) (index : Nat) : Round fleet :=
  ⟨[], fun _ => true, verdict ((ratedRouter weights).targetAt index)⟩

theorem ratedRound_eligible (weights : List Int) (chosen : Nat) :
    (ratedRound weights chosen).eligible (ratedRouter weights) =
      fun index => decide (index < (ratedRouter weights).targets.length) := by
  funext index
  rw [Round.eligible, Router.eligible]
  by_cases inside : index < (ratedRouter weights).targets.length
  · rw [List.getElem?_eq_getElem inside, decide_eq_true inside]
    rfl
  · rw [List.getElem?_eq_none (Nat.not_lt.mp inside), decide_eq_false inside]
    rfl

theorem rated_turns : Turns (ratedRouter [2, 1]) availability (ratedRouter [2, 1]).cursor
    [ratedRound [2, 1] 0, ratedRound [2, 1] 1, ratedRound [2, 1] 0] ⟨0, [0, 0]⟩ := by
  have first : Turn (ratedRouter [2, 1]) availability ⟨0, [0, 0]⟩ (ratedRound [2, 1] 0)
      ⟨0, [-1, 1]⟩ :=
    fleet_turn rfl rfl
  have second : Turn (ratedRouter [2, 1]) availability ⟨0, [-1, 1]⟩ (ratedRound [2, 1] 1)
      ⟨0, [1, -1]⟩ :=
    fleet_turn rfl rfl
  have third : Turn (ratedRouter [2, 1]) availability ⟨0, [1, -1]⟩ (ratedRound [2, 1] 0)
      ⟨0, [0, 0]⟩ :=
    fleet_turn rfl rfl
  exact .next first (.next second (.next third (.none _)))

theorem weighted_round_robin_proportional_rated : ∃ indices, Proportional (ratedRouter [2, 1])
    (fun index => decide (index < 2))
    ([ratedRound [2, 1] 0, ratedRound [2, 1] 1, ratedRound [2, 1] 0].map Round.result)
    ⟨0, [0, 0]⟩ indices := by
  have made : New id .weightedRoundRobin (fleetOf (ratedMembers [2, 1])) =
    .ok (ratedRouter [2, 1]) := rfl
  apply weighted_round_robin_proportional made (over_of_new made).asks rated_turns
  · intro turn member
    simp only [List.mem_cons, List.not_mem_nil, or_false] at member
    rcases member with rfl | rfl | rfl <;> exact ratedRound_eligible [2, 1] _
  · exact ⟨0, by decide⟩
  · decide

/-- Three weights whose sum is no `int64`. -/
def heavy : List Int := [2 ^ 62, 2 ^ 62, 2 ^ 62]

theorem heavy_turns : Turns (ratedRouter heavy) availability (ratedRouter heavy).cursor
    [ratedRound heavy 0, ratedRound heavy 0] ⟨0, [0, -2 ^ 63, -2 ^ 63]⟩ := by
  have first : Turn (ratedRouter heavy) availability ⟨0, [0, 0, 0]⟩ (ratedRound heavy 0)
      ⟨0, [-2 ^ 63, 2 ^ 62, 2 ^ 62]⟩ :=
    fleet_turn rfl rfl
  have second : Turn (ratedRouter heavy) availability ⟨0, [-2 ^ 63, 2 ^ 62, 2 ^ 62]⟩
      (ratedRound heavy 0) ⟨0, [0, -2 ^ 63, -2 ^ 63]⟩ :=
    fleet_turn rfl rfl
  exact .next first (.next second (.none _))

theorem heavy_chosen {index : Nat} (inside : index < 3)
    (same : verdict ((ratedRouter heavy).targetAt 0) =
      verdict ((ratedRouter heavy).targetAt index)) : index = 0 := by
  have names := congrArg (fun result => result.toOption.map Target.name) same
  match index, inside, names with
  | 0, _, _ => rfl
  | 1, _, names => exact absurd names (by decide)
  | 2, _, names => exact absurd names (by decide)

theorem not_weighted_round_robin_proportional : New id .weightedRoundRobin
      (fleetOf (ratedMembers heavy)) = .ok (ratedRouter heavy) ∧
    (ratedRouter heavy).Asks availability ∧
    ∃ rounds last, Turns (ratedRouter heavy) availability (ratedRouter heavy).cursor rounds last ∧
    (∀ turn ∈ rounds, turn.eligible (ratedRouter heavy) = fun index => decide (index < 3)) ∧
    ¬∃ indices, Proportional (ratedRouter heavy) (fun index => decide (index < 3))
      (rounds.map Round.result) last indices := by
  have made : New id .weightedRoundRobin (fleetOf (ratedMembers heavy)) = .ok (ratedRouter heavy) :=
    rfl
  refine ⟨made, (over_of_new made).asks, _, _, heavy_turns, ?_, ?_⟩
  · intro turn member
    simp only [List.mem_cons, List.not_mem_nil, or_false, or_self] at member
    exact member ▸ ratedRound_eligible heavy 0
  · rintro ⟨indices, proportional⟩
    have length := length_indices proportional.results_eq
    match indices with
    | [first, second] =>
        obtain ⟨one, rest⟩ := List.cons.inj proportional.results_eq
        obtain ⟨two, _⟩ := List.cons.inj rest
        obtain rfl := heavy_chosen (mem_among.mp (proportional.inside first (by simp))).1 one
        obtain rfl := heavy_chosen (mem_among.mp (proportional.inside second (by simp))).1 two
        have ahead := proportional.ahead 0 (by decide)
        revert ahead
        decide

/-! Bounds whatever is eligible -/

theorem sum_eq_range (values : List Int) :
    values.sum = ∑ index ∈ Finset.range values.length, values.getD index 0 := by
  induction values with
  | nil => rfl
  | cons value rest ih =>
      rw [List.sum_cons, ih, List.length_cons, Finset.sum_range_succ', add_comm]
      rfl

def Router.weight (r : Router T) : Int := (r.targets.map TargetState.weight).sum

theorem weight_eq : r.weight = ∑ index ∈ Finset.range r.targets.length, r.weightAt index := by
  rw [Router.weight, sum_eq_range, List.length_map]
  apply Finset.sum_congr rfl
  intro index _
  rw [List.getD_eq_getElem?_getD, List.getElem?_map]
  rfl

/-- The current weights of a router, and the selections that can follow. -/
structure Bounded (r : Router T) (e : Embedding asks T) (cursor : Cursor) : Prop where
  sum_eq : cursor.currentWeights.sum = 0
  bound : ∀ current ∈ cursor.currentWeights, |current| ≤ (r.targets.length - 1) * r.weight
  fits : ∀ excluded available, r.Fits (r.eligible excluded available) cursor.weightAt
  share : ∀ {rounds last eligible}, Turns r e cursor rounds last →
    (∀ turn ∈ rounds, turn.eligible r = eligible) →
    (among eligible r.targets.length).Nonempty → ∃ indices : List Nat,
      rounds.map Round.result = indices.map (fun index => verdict (r.targetAt index)) ∧
      ∀ index ∈ among eligible r.targets.length,
        |(indices.count index : ℚ) - rounds.length * r.weightAt index / r.total eligible| ≤
          2 * (r.targets.length - 1) * r.weight / r.total eligible

/-- The weights are far from the limits of an `int64`, as all that can be
configured are. -/
def Router.Modest (r : Router T) : Prop :=
  r.targets.length * r.weight < 2 ^ 63 ∨
    (r.targets.length < 2 ^ 28 ∧ ∀ state ∈ r.targets, state.weight ≤ 100)

theorem weights_positive (accepted : r.Accepted) :
    ∀ index ∈ Finset.range r.targets.length, 0 < r.weightAt index :=
  fun _ member => weightAt_pos accepted (Finset.mem_range.mp member)

theorem modest (modest : r.Modest) :
    (Finset.range r.targets.length).card * ∑ index ∈ Finset.range r.targets.length,
    r.weightAt index < 2 ^ 63 := by
  rw [Finset.card_range, ← weight_eq]
  rcases modest with small | ⟨few, configured⟩
  · exact small
  · have weight : r.weight ≤ r.targets.length * 100 := by
      have bound := List.sum_le_card_nsmul (r.targets.map TargetState.weight) 100
        (by simpa using configured)
      rw [List.length_map, nsmul_eq_mul] at bound
      exact bound
    have count : (r.targets.length : Int) < 2 ^ 28 := by exact_mod_cast few
    calc (r.targets.length : Int) * r.weight
        ≤ r.targets.length * (r.targets.length * 100) :=
          mul_le_mul_of_nonneg_left weight (Int.natCast_nonneg _)
      _ ≤ 2 ^ 28 * (2 ^ 28 * 100) := by gcongr
      _ < 2 ^ 63 := by norm_num

theorem abs_share_le {count length weight total first last bound : ℤ} (positive : 0 < total)
    (draws : last = first + length * weight - count * total) (one : |first| ≤ bound)
    (two : |last| ≤ bound) :
    |(count : ℚ) - length * weight / total| ≤ 2 * bound / total := by
  have gap : |count * total - length * weight| ≤ 2 * bound := by
    rw [abs_le] at one two ⊢
    constructor <;> linarith
  have scale : (0 : ℚ) < total := by exact_mod_cast positive
  have same : (count : ℚ) - length * weight / total =
      (count * total - length * weight) / total := by
    field_simp
  rw [same, abs_div, abs_of_pos scale]
  gcongr
  exact_mod_cast gap

section Bounded

variable {quote : String → String} {targets : List (WeightedTarget T)}
  (made : New quote .weightedRoundRobin targets = .ok r) (asked : r.Asks e) (small : r.Modest)
include made asked small

theorem settled_of_reachable {cursor : Cursor} (reachable : Reachable r e cursor) :
    Settled r (Finset.range r.targets.length) cursor := by
  obtain ⟨accepted, weighted, _⟩ := new_ok made
  have positive := weights_positive accepted
  obtain ⟨rounds, turns⟩ := reachable
  apply turns.invariant _ (settled_cursor positive)
  intro cursor round left turn settled
  exact settled.turn asked weighted positive (modest small) turn (Finset.filter_subset _ _)

/-- Whatever was excluded or unavailable before, the current weights cancel out
and stay bounded, and no target gets ahead or falls behind without bound. -/
theorem weighted_round_robin_bounded {cursor : Cursor} (reachable : Reachable r e cursor) :
    Bounded r e cursor := by
  obtain ⟨accepted, weighted, _⟩ := new_ok made
  have positive := weights_positive accepted
  have within (eligible : Nat → Bool) : among eligible r.targets.length ⊆
      Finset.range r.targets.length :=
    Finset.filter_subset _ _
  have settled := settled_of_reachable made asked small reachable
  have bound {cursor : Cursor} (settled : Settled r (Finset.range r.targets.length) cursor)
      {index : Nat} (inside : index < r.targets.length) : |cursor.weightAt index| ≤
      (r.targets.length - 1) * r.weight := by
    have bound := settled.spread.abs_current_le (Finset.mem_range.mpr inside)
    rw [Finset.card_range, ← weight_eq] at bound
    exact bound
  refine ⟨?_, ?_, fun excluded available => fits_of_spread positive (within _)
    (modest small) settled.spread, ?_⟩
  · rw [sum_eq_range, settled.length]
    exact settled.spread.sum_eq
  · intro current member
    obtain ⟨index, inside, rfl⟩ := List.mem_iff_getElem.mp member
    have read := bound settled (settled.length ▸ inside)
    rw [Cursor.weightAt, List.getD_eq_getElem _ _ inside] at read
    exact read
  · intro rounds last eligible turns same occupied
    obtain ⟨ends, _, indices, results, draws⟩ :=
      turns_draws asked weighted positive (modest small) turns settled same (within _) occupied
    refine ⟨indices, results, fun index member => ?_⟩
    have inside := (mem_among.mp member).1
    have total : 0 < r.total eligible :=
      Finset.sum_pos (fun index member => positive index (within _ member)) occupied
    have share := abs_share_le total (draws.last_eq member) (bound settled inside)
      (bound ends inside)
    rw [length_indices results] at share
    push_cast at share
    rw [mul_assoc]
    exact share

end Bounded

/-- The second target drops out after a selection and keeps the weight it has gained. -/
theorem outage_turns : Turns (ratedRouter [2, 1, 1]) availability (ratedRouter [2, 1, 1]).cursor
    [ratedRound [2, 1, 1] 0,
      ⟨[], fun index => decide (index ≠ 1), verdict ((ratedRouter [2, 1, 1]).targetAt 2)⟩]
    ⟨0, [0, 1, -1]⟩ := by
  have first : Turn (ratedRouter [2, 1, 1]) availability ⟨0, [0, 0, 0]⟩ (ratedRound [2, 1, 1] 0)
      ⟨0, [-2, 1, 1]⟩ :=
    fleet_turn rfl rfl
  have second : Turn (ratedRouter [2, 1, 1]) availability ⟨0, [-2, 1, 1]⟩
      ⟨[], fun index => decide (index ≠ 1), verdict ((ratedRouter [2, 1, 1]).targetAt 2)⟩
      ⟨0, [0, 1, -1]⟩ :=
    fleet_turn rfl rfl
  exact .next first (.next second (.none _))

theorem weighted_round_robin_bounded_outage :
    Bounded (ratedRouter [2, 1, 1]) availability ⟨0, [0, 1, -1]⟩ := by
  have made : New id .weightedRoundRobin (fleetOf (ratedMembers [2, 1, 1])) =
    .ok (ratedRouter [2, 1, 1]) := rfl
  exact weighted_round_robin_bounded made (over_of_new made).asks (.inl (by decide))
    ⟨_, outage_turns⟩

theorem not_weighted_round_robin_bounded : New id .weightedRoundRobin
      (fleetOf (ratedMembers heavy)) = .ok (ratedRouter heavy) ∧
    (ratedRouter heavy).Asks availability ∧
    ∃ cursor, Reachable (ratedRouter heavy) availability cursor ∧
    ¬Bounded (ratedRouter heavy) availability cursor := by
  have made : New id .weightedRoundRobin (fleetOf (ratedMembers heavy)) = .ok (ratedRouter heavy) :=
    rfl
  refine ⟨made, (over_of_new made).asks, _, ⟨_, heavy_turns⟩, fun bounded => ?_⟩
  exact absurd bounded.sum_eq (by decide)

end ModelGate.Routing
