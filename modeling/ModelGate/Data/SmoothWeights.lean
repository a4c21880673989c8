import Mathlib.Algebra.BigOperators.Ring.Finset
import Mathlib.Algebra.Order.BigOperators.Group.Finset
import Mathlib.Tactic.Linarith
import Mathlib.Tactic.Ring

/-! Smooth weighted selection from a finite set.

Each member has a weight and a current weight. A draw raises the available
members by their weights, takes one that is then highest and lowers it by what
was added in all. The available members may change from draw to draw.
-/

set_option autoImplicit false

namespace ModelGate.Data

variable {ι : Type} [DecidableEq ι] {weight current left : ι → ℤ} {all available : Finset ι}
  {chosen : ι}

structure Draw (weight current : ι → ℤ) (available : Finset ι) (chosen : ι) (left : ι → ℤ) :
    Prop where
  mem : chosen ∈ available
  ahead : ∀ other ∈ available, current other + weight other ≤ current chosen + weight chosen
  left_eq : ∀ index, left index = current index + (if index ∈ available then weight index else 0) -
    if index = chosen then ∑ other ∈ available, weight other else 0

theorem Draw.sum_eq (draw : Draw weight current available chosen left) (part : Finset ι) :
    ∑ index ∈ part, left index = ∑ index ∈ part, current index + ∑ index ∈ part ∩ available,
    weight index -
      if chosen ∈ part then ∑ index ∈ available, weight index else 0 := by
  rw [Finset.sum_congr rfl fun index _ => draw.left_eq index, Finset.sum_sub_distrib,
    Finset.sum_add_distrib, Finset.sum_ite_mem, Finset.sum_ite_eq' part chosen
    fun _ => ∑ index ∈ available, weight index]

/-! Bounds that hold whatever is available -/

/-- The current weights cancel out, and no `k` of `n` members are together
lower than the total weight times `k (n - k)`. -/
structure Spread (all : Finset ι) (weight current : ι → ℤ) : Prop where
  sum_eq : ∑ index ∈ all, current index = 0
  low : ∀ part ⊆ all, -((∑ index ∈ all, weight index) * (part.card * (all.card - part.card))) ≤
    ∑ index ∈ part, current index

omit [DecidableEq ι] in
theorem spread_zero (positive : ∀ index ∈ all, 0 < weight index)
    (zero : ∀ index ∈ all, current index = 0) : Spread all weight current := by
  constructor
  · exact Finset.sum_eq_zero zero
  · intro part inside
    rw [Finset.sum_eq_zero fun index member => zero index (inside member), neg_nonpos]
    have fewer : (part.card : ℤ) ≤ all.card := Int.ofNat_le.mpr (Finset.card_le_card inside)
    have total : 0 ≤ ∑ index ∈ all, weight index :=
      Finset.sum_nonneg fun index member => (positive index member).le
    exact mul_nonneg total (mul_nonneg (Int.natCast_nonneg _) (by linarith))

/-- A part that the choice leaves one available member out of is above its
bound by enough to pay for the draw. -/
theorem Spread.low_of_ahead (spread : Spread all weight current) {part : Finset ι}
    (inside : part ⊆ all) {other : ι} (held : chosen ∈ part) (out : other ∉ part)
    (known : other ∈ all) (ahead : current other + weight other ≤ current chosen + weight chosen) :
    2 * (-((∑ index ∈ all, weight index) * (part.card * (all.card - part.card))) + ∑ index ∈ all,
      weight index) ≤ 2 * ∑ index ∈ part, current index + (weight chosen - weight other) := by
  have more := spread.low (insert other part) (Finset.insert_subset known inside)
  have less := spread.low (part.erase chosen) ((Finset.erase_subset _ _).trans inside)
  rw [Finset.sum_insert out, Finset.card_insert_of_notMem out, Nat.cast_succ] at more
  rw [Finset.card_erase_of_mem held, Nat.cast_sub (Finset.card_pos.mpr ⟨chosen, held⟩)] at less
  have removed := Finset.add_sum_erase part current held
  -- The bound is concave in the size, so its two neighbours add up to less than twice it.
  have concave : (∑ index ∈ all, weight index) * ((part.card + 1) * (all.card - (part.card + 1))) +
      (∑ index ∈ all, weight index) * ((part.card - (1 : ℕ)) * (all.card - (part.card - (1 : ℕ)))) =
      2 * ((∑ index ∈ all, weight index) * (part.card * (all.card - part.card))) - 2 *
      ∑ index ∈ all, weight index := by
    push_cast
    ring
  linarith

theorem Draw.spread (positive : ∀ index ∈ all, 0 < weight index) (within : available ⊆ all)
    (draw : Draw weight current available chosen left) (spread : Spread all weight current) :
    Spread all weight left := by
  constructor
  · rw [draw.sum_eq, spread.sum_eq, Finset.inter_eq_right.mpr within, if_pos (within draw.mem)]
    omega
  · intro part inside
    have gained (small : Finset ι) (below : small ⊆ all) : 0 ≤ ∑ index ∈ small, weight index :=
      Finset.sum_nonneg fun index member => (positive index (below member)).le
    rw [draw.sum_eq]
    by_cases held : chosen ∈ part
    · rw [if_pos held]
      by_cases covered : available ⊆ part
      · rw [Finset.inter_eq_right.mpr covered]
        linarith [spread.low part inside]
      · obtain ⟨other, member, out⟩ := Finset.not_subset.mp covered
        have room := spread.low_of_ahead inside held out (within member) (draw.ahead other member)
        have own : weight chosen ≤ ∑ index ∈ part ∩ available, weight index := by
          apply Finset.single_le_sum
            (fun index inter => (positive index (within (Finset.mem_inter.mp inter).2)).le)
          exact Finset.mem_inter.mpr ⟨held, draw.mem⟩
        have some' : ∑ index ∈ available, weight index ≤ ∑ index ∈ all, weight index :=
          Finset.sum_le_sum_of_subset_of_nonneg within
            fun index member _ => (positive index member).le
        linarith [positive other (within member), positive chosen (within draw.mem)]
    · rw [if_neg held]
      linarith [spread.low part inside, gained (part ∩ available)
        (Finset.inter_subset_left.trans inside)]

theorem Spread.abs_current_le (spread : Spread all weight current) {index : ι}
    (member : index ∈ all) :
    |current index| ≤ (all.card - 1) * ∑ other ∈ all, weight other := by
  have alone := spread.low {index} (Finset.singleton_subset_iff.mpr member)
  have others := spread.low (all.erase index) (Finset.erase_subset _ _)
  have whole := Finset.add_sum_erase all current member
  rw [Finset.sum_singleton, Finset.card_singleton] at alone
  rw [Finset.card_erase_of_mem member, Nat.cast_sub (Finset.card_pos.mpr ⟨index, member⟩)] at others
  rw [spread.sum_eq] at whole
  push_cast at alone others
  rw [abs_le]
  constructor <;> linarith

/-! Draws with the same members available -/

inductive Draws (weight : ι → ℤ) (available : Finset ι) : (ι → ℤ) → List ι → (ι → ℤ) → Prop where
  | none (current : ι → ℤ) : Draws weight available current [] current
  | next {current left last : ι → ℤ} {chosen : ι}
      {rest : List ι} (draw : Draw weight current available chosen left)
      (draws : Draws weight available left rest last) : Draws weight available current
        (chosen :: rest) last

namespace Draws

variable {last : ι → ℤ} {drawn : List ι}

theorem mem (draws : Draws weight available current drawn last) :
    ∀ index ∈ drawn, index ∈ available := by
  induction draws with
  | none current => exact nofun
  | next draw _ ih => exact List.forall_mem_cons.mpr ⟨draw.mem, ih⟩

/-- Each draw raises a member by its weight, and its own lower it by the total. -/
theorem last_eq (draws : Draws weight available current drawn last) {index : ι}
    (member : index ∈ available) :
    last index = current index + drawn.length * weight index - drawn.count index *
      ∑ other ∈ available, weight other := by
  induction draws with
  | none current => simp
  | @next current left last chosen rest draw _ ih =>
      rw [ih, draw.left_eq, if_pos member, List.length_cons, List.count_cons]
      simp only [beq_iff_eq, eq_comm (a := index)]
      split <;> push_cast <;> ring

theorem last_of_notMem (draws : Draws weight available current drawn last) {index : ι}
    (out : index ∉ available) : last index = current index := by
  induction draws with
  | none current => rfl
  | @next current left last chosen rest draw _ ih =>
      have other : index ≠ chosen := fun same => out (same ▸ draw.mem)
      rw [ih, draw.left_eq, if_neg out, if_neg other, add_zero, sub_zero]

end Draws

/-! Draws that start at par -/

/-- The available members cancel out, and none is a whole draw behind. -/
structure Par (weight : ι → ℤ) (available : Finset ι) (current : ι → ℤ) : Prop where
  sum_eq : ∑ index ∈ available, current index = 0
  above : ∀ index ∈ available, -∑ other ∈ available, weight other < current index

section Par

variable (positive : ∀ index ∈ available, 0 < weight index)
include positive

omit [DecidableEq ι] in
theorem par_zero (occupied : available.Nonempty) (zero : ∀ index ∈ available, current index = 0) :
    Par weight available current := by
  refine ⟨Finset.sum_eq_zero zero, fun index member => ?_⟩
  rw [zero index member, neg_lt_zero]
  exact Finset.sum_pos positive occupied

theorem Draw.par (draw : Draw weight current available chosen left)
    (par : Par weight available current) : Par weight available left := by
  constructor
  · rw [draw.sum_eq, par.sum_eq, Finset.inter_self, if_pos draw.mem]
    omega
  · intro index member
    rw [draw.left_eq, if_pos member]
    split
    · rename_i same
      -- Otherwise nothing would be above zero, though the total is.
      have high : 0 < current chosen + weight chosen := by
        by_contra low
        have none' : ∑ other ∈ available, (current other + weight other) ≤ 0 :=
          Finset.sum_nonpos fun other known => (draw.ahead other known).trans (not_lt.mp low)
        rw [Finset.sum_add_distrib, par.sum_eq, zero_add] at none'
        exact absurd (Finset.sum_pos positive ⟨chosen, draw.mem⟩) (not_lt.mpr none')
      rw [same]
      linarith
    · linarith [par.above index member, positive index member]

theorem Draws.par {last : ι → ℤ} {drawn : List ι}
    (draws : Draws weight available current drawn last) (par : Par weight available current) :
    Par weight available last := by
  induction draws with
  | none current => exact par
  | next draw _ ih => exact ih (draw.par positive par)

end Par

section Even

variable {last : ι → ℤ} {drawn : List ι} (draws : Draws weight available current drawn last)
  (positive : ∀ index ∈ available, 0 < weight index) (zero : ∀ index ∈ available, current index = 0)
include draws positive zero

/-- No member is ever a whole draw ahead of its share. -/
theorem Draws.count_lt {index : ι} (member : index ∈ available) :
    drawn.count index * ∑ other ∈ available, weight other <
      drawn.length * weight index + ∑ other ∈ available, weight other := by
  have par := draws.par positive (par_zero positive ⟨index, member⟩ zero)
  have above := par.above index member
  rw [draws.last_eq member, zero index member] at above
  linarith

/-- After a multiple of the total every current weight is back at zero. -/
theorem Draws.last_zero (occupied : available.Nonempty) {cycles : ℕ}
    (whole : (drawn.length : ℤ) = cycles * ∑ other ∈ available, weight other) {index : ι}
    (member : index ∈ available) : last index = 0 := by
  have par := draws.par positive (par_zero positive occupied zero)
  have total : 0 < ∑ other ∈ available, weight other := Finset.sum_pos positive occupied
  have nonneg (other : ι) (known : other ∈ available) : 0 ≤ last other := by
    have above := par.above other known
    have multiple : last other = (∑ other ∈ available, weight other) *
        (cycles * weight other - drawn.count other) := by
      rw [draws.last_eq known, zero other known, whole]
      ring
    rw [multiple] at above ⊢
    apply mul_nonneg total.le
    by_contra behind
    have gap : cycles * weight other - drawn.count other ≤ -1 := by omega
    linarith [mul_le_mul_of_nonneg_left gap total.le]
  exact (Finset.sum_eq_zero_iff_of_nonneg nonneg).mp par.sum_eq index member

/-- After a multiple of the total every member has its share exactly. -/
theorem Draws.count_eq {cycles : ℕ}
    (whole : (drawn.length : ℤ) = cycles * ∑ other ∈ available, weight other) {index : ι}
    (member : index ∈ available) : (drawn.count index : ℤ) = cycles * weight index := by
  have total : 0 < ∑ other ∈ available, weight other := Finset.sum_pos positive ⟨index, member⟩
  have back := draws.last_zero positive zero ⟨index, member⟩ whole member
  rw [draws.last_eq member, zero index member, whole] at back
  apply mul_right_cancel₀ total.ne'
  linarith

end Even

end ModelGate.Data
