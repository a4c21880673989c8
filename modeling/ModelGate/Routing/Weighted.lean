import Mathlib.Data.List.GetD
import ModelGate.Data.SmoothWeights
import ModelGate.Routing.Turns

/-! The weighted loop is a smooth weighted selection.

`int64` arithmetic is exact as long as every sum the loop computes fits.
-/

set_option autoImplicit false

namespace ModelGate.Routing

open Data Numeric Semantics

variable {T : Signature}

def Router.weightAt (r : Router T) (index : Nat) : Int :=
  (r.targets[index]?.map TargetState.weight).getD 0

def Cursor.weightAt (cursor : Cursor) (index : Nat) : Int := cursor.currentWeights.getD index 0

def among (eligible : Nat → Bool) (seen : Nat) : Finset Nat :=
  {index ∈ Finset.range seen | eligible index = true}

theorem mem_among {eligible : Nat → Bool} {seen index : Nat} :
    index ∈ among eligible seen ↔ index < seen ∧ eligible index = true := by
  simp [among]

theorem among_subset (eligible : Nat → Bool) {seen more : Nat} (le : seen ≤ more) :
    among eligible seen ⊆ among eligible more := by
  intro index member
  obtain ⟨bound, passes⟩ := mem_among.mp member
  exact mem_among.mpr ⟨bound.trans_le le, passes⟩

theorem among_succ_of_eligible {eligible : Nat → Bool}
    {seen : Nat} (passes : eligible seen = true) :
    among eligible (seen + 1) = insert seen (among eligible seen) := by
  rw [among, Finset.range_add_one, Finset.filter_insert, if_pos passes]
  rfl

theorem among_succ_of_not {eligible : Nat → Bool} {seen : Nat} (fails : ¬eligible seen = true) :
    among eligible (seen + 1) = among eligible seen := by
  rw [among, Finset.range_add_one, Finset.filter_insert, if_neg fails]
  rfl

/-- Every sum of a selection is an `int64`. -/
structure Router.Fits (r : Router T) (eligible : Nat → Bool) (current : Nat → Int) : Prop where
  raised : ∀ index ∈ among eligible r.targets.length,
    -2 ^ 63 ≤ current index + r.weightAt index ∧ current index + r.weightAt index < 2 ^ 63
  totals : ∀ seen ≤ r.targets.length, 0 ≤ ∑ index ∈ among eligible seen, r.weightAt index ∧
    ∑ index ∈ among eligible seen, r.weightAt index < 2 ^ 63
  lowered : ∀ index ∈ among eligible r.targets.length, -2 ^ 63 ≤
    current index + r.weightAt index - ∑ other ∈ among eligible r.targets.length, r.weightAt other

/-- The variables of the weighted loop after the first targets. -/
structure Weighed (r : Router T) (eligible : Nat → Bool) (current : Nat → Int) (seen : Nat)
    (w : Weighing) : Prop where
  length : w.currentWeights.length = r.targets.length
  weights : ∀ index, w.currentWeights.getD index 0 =
    current index + if index ∈ among eligible seen then r.weightAt index else 0
  total : w.total = ∑ index ∈ among eligible seen, r.weightAt index
  none' : w.selected = none → among eligible seen = ∅
  some' : ∀ index, w.selected = some index → index ∈ among eligible seen ∧
    ∀ other ∈ among eligible seen, current other + r.weightAt other ≤
      current index + r.weightAt index

section Weighed

variable {r : Router T} {eligible : Nat → Bool} {current : Nat → Int} {seen : Nat} {w : Weighing}

theorem Weighed.add (weighed : Weighed r eligible current seen w) (inside : seen < r.targets.length)
    (passes : eligible seen = true) (fits : r.Fits eligible current) :
    Weighed r eligible current (seen + 1) (w.add seen (r.weightAt seen)) := by
  have fresh : seen ∉ among eligible seen :=
    fun member => absurd (mem_among.mp member).1 (Nat.lt_irrefl seen)
  have grown := among_succ_of_eligible passes
  have raised : int64 (w.currentWeights.getD seen 0 + r.weightAt seen) =
      current seen + r.weightAt seen := by
    obtain ⟨low, high⟩ := fits.raised seen (mem_among.mpr ⟨inside, passes⟩)
    rw [weighed.weights, if_neg fresh, add_zero, int64_of_bounds low high]
  have total : ∑ index ∈ among eligible (seen + 1), r.weightAt index =
      w.total + r.weightAt seen := by
    rw [grown, Finset.sum_insert fresh, weighed.total, add_comm]
  have weights (index : Nat) : (w.currentWeights.set seen (current seen + r.weightAt seen)).getD
      index 0 = current index + if index ∈ among eligible (seen + 1) then r.weightAt index
      else 0 := by
    rw [grown]
    by_cases same : index = seen
    · subst same
      rw [if_pos (Finset.mem_insert_self ..), List.getD_eq_getElem?_getD,
        List.getElem?_set_self (weighed.length ▸ inside), Option.getD_some]
    · rw [List.getD_eq_getElem?_getD, List.getElem?_set_ne (Ne.symm same),
        ← List.getD_eq_getElem?_getD, weighed.weights]
      simp only [Finset.mem_insert, same, false_or]
  have here : seen ∈ among eligible (seen + 1) := grown ▸ Finset.mem_insert_self ..
  obtain ⟨low, high⟩ := fits.totals (seen + 1) inside
  -- The sums of the source are `int64`; `fits` says that none of them wraps.
  unfold Weighing.add
  dsimp only
  rw [raised]
  refine ⟨by rw [List.length_set, weighed.length], weights, ?_, ?_, ?_⟩
  · rw [total] at low high ⊢
    exact int64_of_bounds (by omega) high
  · intro nothing
    split at nothing
    · cases nothing
    · rename_i behind
      rw [nothing] at behind
      exact absurd rfl behind
  · intro index selected
    split at selected
    -- A later target replaces the selected one only if it is strictly ahead.
    · rename_i ahead
      obtain rfl := Option.some.inj selected
      refine ⟨here, fun other member => ?_⟩
      rw [grown] at member
      rcases Finset.mem_insert.mp member with rfl | earlier
      · exact le_refl _
      · cases best : w.selected with
        | none => simp [weighed.none' best] at earlier
        | some leader =>
            obtain ⟨known, leads⟩ := weighed.some' leader best
            rw [best, Option.all_some, decide_eq_true_eq, weights, grown,
              if_pos (Finset.mem_insert_of_mem known)] at ahead
            exact (leads other earlier).trans (le_of_lt ahead)
    · rename_i behind
      obtain ⟨known, leads⟩ := weighed.some' index selected
      rw [selected, Option.all_some, decide_eq_true_eq, weights, grown,
        if_pos (Finset.mem_insert_of_mem known)] at behind
      rw [grown]
      refine ⟨Finset.mem_insert_of_mem known, fun other member => ?_⟩
      rcases Finset.mem_insert.mp member with rfl | earlier
      · exact not_lt.mp behind
      · exact leads other earlier

theorem weighs_weighed (fits : r.Fits eligible current) {rest : List (TargetState T × Nat)}
    (within : seen ≤ r.targets.length) (tail : r.targets.zipIdx.drop seen = rest)
    (weighed : Weighed r eligible current seen w) :
    Weighed r eligible current r.targets.length (Router.weighs eligible rest w) := by
  induction rest generalizing seen w with
  | nil =>
      rw [List.drop_eq_nil_iff, List.length_zipIdx] at tail
      exact Nat.le_antisymm within tail ▸ weighed
  | cons entry rest ih =>
      have inside : seen < r.targets.zipIdx.length := by
        by_contra past
        rw [List.drop_eq_nil_of_le (not_lt.mp past)] at tail
        cases tail
      rw [List.drop_eq_getElem_cons inside, List.getElem_zipIdx, zero_add] at tail
      rw [List.length_zipIdx] at inside
      obtain ⟨rfl, later⟩ := List.cons.inj tail
      have weight : r.weightAt seen = r.targets[seen].weight := by simp [Router.weightAt, inside]
      apply ih inside later
      split
      · rename_i passes
        exact weight ▸ weighed.add inside passes fits
      · rename_i fails
        have same := among_succ_of_not fails
        exact ⟨weighed.length, same ▸ weighed.weights, same ▸ weighed.total, same ▸ weighed.none',
          same ▸ weighed.some'⟩

end Weighed

/-- A selection that finds room is a draw from the eligible targets. -/
theorem pick_weighted {r : Router T} (weighted : r.strategy = .weightedRoundRobin)
    {eligible : Nat → Bool} {cursor : Cursor}
    (length : cursor.currentWeights.length = r.targets.length)
    (fits : r.Fits eligible cursor.weightAt) :
    (among eligible r.targets.length = ∅ ∧ r.pick eligible cursor = (none, cursor)) ∨
    ∃ index left, r.pick eligible cursor = (some index, left) ∧
    Draw r.weightAt cursor.weightAt (among eligible r.targets.length) index left.weightAt ∧
    left.currentWeights.length = r.targets.length ∧ left.next = cursor.next := by
  have start : Weighed r eligible cursor.weightAt 0 ⟨none, 0, cursor.currentWeights⟩ :=
    ⟨length, fun index => by simp [Cursor.weightAt, among], by simp [among],
      fun _ => by simp [among], nofun⟩
  have weighed := weighs_weighed fits (Nat.zero_le _) List.drop_zero start
  simp only [Router.pick, weighted]
  generalize Router.weighs eligible r.targets.zipIdx ⟨none, 0, cursor.currentWeights⟩ = w at weighed
  unfold Router.settle
  cases selected : w.selected with
  | none =>
      left
      have nothing := weighed.none' selected
      refine ⟨nothing, ?_⟩
      -- Without an eligible target the loop has changed no weight.
      have same : w.currentWeights = cursor.currentWeights := by
        apply List.ext_getElem (weighed.length.trans length.symm)
        intro index one two
        have read := weighed.weights index
        rw [nothing, if_neg (Finset.notMem_empty _), add_zero, Cursor.weightAt,
          List.getD_eq_getElem _ _ one, List.getD_eq_getElem _ _ two] at read
        exact read
      simp only [same]
  | some index =>
      right
      obtain ⟨member, ahead⟩ := weighed.some' index selected
      obtain ⟨_, high⟩ := fits.raised index member
      obtain ⟨added, _⟩ := fits.totals _ (le_refl _)
      have inside : index < w.currentWeights.length := weighed.length ▸ (mem_among.mp member).1
      have lowered : int64 (w.currentWeights.getD index 0 - w.total) =
          cursor.weightAt index + r.weightAt index - ∑ other ∈ among eligible r.targets.length,
          r.weightAt other := by
        rw [weighed.weights, if_pos member, weighed.total]
        exact int64_of_bounds (fits.lowered index member) (by omega)
      refine ⟨index, _, rfl,
        ⟨member, ahead, fun other => ?_⟩, by rw [List.length_set, weighed.length], rfl⟩
      by_cases same : other = index
      · subst same
        rw [if_pos member, if_pos rfl, Cursor.weightAt, List.getD_eq_getElem?_getD,
          List.getElem?_set_self inside, Option.getD_some, lowered]
      · rw [if_neg same, sub_zero, Cursor.weightAt, List.getD_eq_getElem?_getD,
          List.getElem?_set_ne (Ne.symm same), ← List.getD_eq_getElem?_getD, weighed.weights]

end ModelGate.Routing
