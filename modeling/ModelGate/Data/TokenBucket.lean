import Mathlib.Algebra.Order.Field.Basic
import Mathlib.Data.List.Chain
import Mathlib.Tactic.Linarith
import Mathlib.Tactic.Ring

/-! Token buckets in exact arithmetic.

A bucket refills at a fixed rate up to its capacity; a draw that finds enough
tokens takes its cost and is granted, any other leaves what has refilled. Times
and tokens are in one ordered field.
-/

set_option autoImplicit false

namespace ModelGate.Data.TokenBucket

variable {K : Type} [Field K] [LinearOrder K]

structure Rule (K : Type) [Field K] [LinearOrder K] where
  capacity : K
  rate : K
  capacity_nonneg : 0 ≤ capacity
  rate_pos : 0 < rate

structure Level (K : Type) where
  tokens : K
  since : K

/-- The tokens at a time, counted from the last update. -/
def refill (rule : Rule K) (now : K) (level : Level K) : K :=
  min rule.capacity (level.tokens + max 0 (now - level.since) * rule.rate)

def draw (rule : Rule K) (cost now : K) (level : Level K) : Bool × Level K :=
  if cost ≤ refill rule now level then (true, ⟨refill rule now level - cost, now⟩)
  else (false, ⟨refill rule now level, now⟩)

/-- Every draw of a run, with the time it came at and whether it was granted. -/
def draws (rule : Rule K) (cost : K) : Level K → List K → List (K × Bool)
  | _, [] => []
  | level, now :: times =>
      (now, (draw rule cost now level).1) :: draws rule cost (draw rule cost now level).2 times

def Level.Within (rule : Rule K) (level : Level K) : Prop :=
  0 ≤ level.tokens ∧ level.tokens ≤ rule.capacity

theorem refill_le_capacity (rule : Rule K) (now : K) (level : Level K) :
    refill rule now level ≤ rule.capacity :=
  min_le_left _ _

theorem draw_since (rule : Rule K) (cost now : K) (level : Level K) :
    (draw rule cost now level).2.since = now := by
  unfold draw
  split <;> rfl

/-- A grant takes its cost out of what had refilled. -/
theorem draw_conserves (rule : Rule K) (cost now : K) (level : Level K) :
    (draw rule cost now level).2.tokens + (if (draw rule cost now level).1 then cost else 0) =
      refill rule now level := by
  unfold draw
  split <;> simp

def grantsUntil (finish : K) (served : List (K × Bool)) : Nat :=
  served.countP fun draw => draw.2 && decide (draw.1 ≤ finish)

def grantsIn (start finish : K) (served : List (K × Bool)) : Nat :=
  served.countP fun draw => draw.2 && decide (start ≤ draw.1) && decide (draw.1 ≤ finish)

omit [Field K] in
theorem grantsIn_le_grantsUntil (start finish : K) (served : List (K × Bool)) :
    grantsIn start finish served ≤ grantsUntil finish served := by
  refine List.countP_mono_left fun draw _ inside => ?_
  simp only [Bool.and_eq_true] at inside ⊢
  exact ⟨inside.1.1, inside.2⟩

theorem refill_settled (rule : Rule K) (now : K) (level : Level K) :
    refill rule now ⟨refill rule now level, now⟩ = refill rule now level := by
  simp only [refill, sub_self, max_self, zero_mul, add_zero]
  rw [← min_assoc, min_self]

theorem grantsUntil_of_past (rule : Rule K) (cost : K) {finish : K} (times : List K) {now : K}
    (past : finish < now) (clock : List.IsChain (· ≤ ·) (now :: times)) (level : Level K) :
    grantsUntil finish (draws rule cost level times) = 0 := by
  induction times generalizing now level with
  | nil => rfl
  | cons time times ih =>
      obtain ⟨step, rest⟩ := List.isChain_cons_cons.mp clock
      have later : finish < time := lt_of_lt_of_le past step
      have none := ih later rest (draw rule cost time level).2
      simp only [draws, grantsUntil, List.countP_cons, not_le.mpr later, decide_false,
        Bool.and_false] at none ⊢
      simpa using none

variable [IsStrictOrderedRing K]

theorem refill_nonneg (rule : Rule K) (now : K) {level : Level K} (nonneg : 0 ≤ level.tokens) :
    0 ≤ refill rule now level :=
  le_min rule.capacity_nonneg (add_nonneg nonneg (mul_nonneg (le_max_left _ _) rule.rate_pos.le))

theorem draw_within (rule : Rule K) {cost : K} (positive : 0 ≤ cost) (now : K) {level : Level K}
    (nonneg : 0 ≤ level.tokens) : (draw rule cost now level).2.Within rule := by
  have above := refill_nonneg rule now nonneg
  have below := refill_le_capacity rule now level
  unfold draw Level.Within
  split
  · next enough => exact ⟨sub_nonneg.mpr enough, by simp only; linarith⟩
  · exact ⟨above, below⟩

/-- After the time the whole capacity takes to refill, nothing of the past is left. -/
theorem refill_of_elapsed (rule : Rule K) {now : K} {level : Level K} (nonneg : 0 ≤ level.tokens)
    (elapsed : rule.capacity / rule.rate ≤ now - level.since) :
    refill rule now level = rule.capacity := by
  have full : rule.capacity ≤ (now - level.since) * rule.rate :=
    (div_le_iff₀ rule.rate_pos).mp elapsed
  have more : (now - level.since) * rule.rate ≤ max 0 (now - level.since) * rule.rate :=
    mul_le_mul_of_nonneg_right (le_max_right _ _) rule.rate_pos.le
  exact min_eq_left (by linarith)

theorem refill_refill (rule : Rule K) {now later : K} {level : Level K} (since : level.since ≤ now)
    (ordered : now ≤ later) :
    refill rule later ⟨refill rule now level, now⟩ = refill rule later level := by
  have gained : 0 ≤ (later - now) * rule.rate :=
    mul_nonneg (sub_nonneg.mpr ordered) rule.rate_pos.le
  simp only [refill]
  rw [max_eq_right (sub_nonneg.mpr since), max_eq_right (sub_nonneg.mpr ordered),
    max_eq_right (sub_nonneg.mpr (since.trans ordered)), ← min_add_add_right, ← min_assoc,
    min_eq_left (le_add_of_nonneg_right gained)]
  congr 1
  ring

theorem grantsUntil_le (rule : Rule K) {cost : K} (positive : 0 ≤ cost) (finish : K)
    (times : List K) {level : Level K} (within : level.Within rule)
    (clock : List.IsChain (· ≤ ·) (level.since :: times)) (later : level.since ≤ finish) :
    cost * grantsUntil finish (draws rule cost level times) ≤
      level.tokens + (finish - level.since) * rule.rate := by
  have budget : 0 ≤ (finish - level.since) * rule.rate :=
    mul_nonneg (sub_nonneg.mpr later) rule.rate_pos.le
  induction times generalizing level with
  | nil =>
      have tokens := within.1
      simp only [draws, grantsUntil, List.countP_nil, Nat.cast_zero, mul_zero]
      linarith
  | cons now times ih =>
      obtain ⟨step, rest⟩ := List.isChain_cons_cons.mp clock
      have next := draw_within rule positive now within.1
      have since := draw_since rule cost now level
      have conserved := draw_conserves rule cost now level
      by_cases inside : now ≤ finish
      · have tail := ih next (by rw [since]; exact rest) (by rw [since]; exact inside)
          (by rw [since]; exact mul_nonneg (sub_nonneg.mpr inside) rule.rate_pos.le)
        have refilled : refill rule now level ≤ level.tokens + (now - level.since) * rule.rate := by
          refine (min_le_right _ _).trans ?_
          rw [max_eq_right (sub_nonneg.mpr step)]
        rw [since] at tail
        have split : (finish - level.since) * rule.rate =
            (finish - now) * rule.rate + (now - level.since) * rule.rate := by ring
        -- A grant takes its cost out of the level, so the sum of both never grows by a draw.
        have counted : cost * (grantsUntil finish (draws rule cost level (now :: times)) : K) =
            cost * grantsUntil finish (draws rule cost (draw rule cost now level).2 times) +
              (if (draw rule cost now level).1 then cost else 0) := by
          simp only [draws, grantsUntil, List.countP_cons, inside, decide_true, Bool.and_true]
          split <;> simp [mul_add]
        rw [counted, split]
        linarith
      · have late := grantsUntil_of_past rule cost times (not_le.mp inside) rest
          (draw rule cost now level).2
        have none : grantsUntil finish (draws rule cost level (now :: times)) = 0 := by
          simp only [draws, grantsUntil, List.countP_cons, inside, decide_false,
            Bool.and_false] at late ⊢
          simpa using late
        have tokens := within.1
        rw [none, Nat.cast_zero, mul_zero]
        linarith

/-- What a clock adds up to in its steps forward. -/
def gained : K → List K → K
  | _, [] => 0
  | since, now :: times => max 0 (now - since) + gained now times

/-- Whatever the clock does, the grants are paid for by its steps forward. -/
theorem grants_le (rule : Rule K) {cost : K} (positive : 0 ≤ cost) (times : List K)
    {level : Level K} (nonneg : 0 ≤ level.tokens) :
    cost * (draws rule cost level times).countP Prod.snd ≤ level.tokens + gained level.since times *
      rule.rate := by
  -- Steps of the clock back gain nothing and take nothing away.
  induction times generalizing level with
  | nil =>
      simp only [draws, List.countP_nil, Nat.cast_zero, mul_zero, gained, zero_mul, add_zero]
      exact nonneg
  | cons now times ih =>
      have tail := ih (draw_within rule positive now nonneg).1
      have conserved := draw_conserves rule cost now level
      have refilled : refill rule now level ≤ level.tokens + max 0 (now - level.since) *
        rule.rate := min_le_right _ _
      have counted : cost * ((draws rule cost level (now :: times)).countP Prod.snd : K) =
          cost * ((draws rule cost (draw rule cost now level).2 times).countP Prod.snd) +
            (if (draw rule cost now level).1 then cost else 0) := by
        simp only [draws, List.countP_cons]
        split <;> simp [mul_add]
      rw [draw_since] at tail
      rw [counted, gained, add_mul]
      linarith

/-- In every interval the grants cost at most a full bucket and what refills. -/
theorem grantsIn_le (rule : Rule K) {cost : K} (positive : 0 ≤ cost) {start finish : K}
    (ordered : start ≤ finish) (times : List K) {level : Level K} (nonneg : 0 ≤ level.tokens)
    (clock : List.IsChain (· ≤ ·) times) :
    cost * grantsIn start finish (draws rule cost level times) ≤ rule.capacity + (finish - start) *
      rule.rate := by
  have budget : 0 ≤ (finish - start) * rule.rate :=
    mul_nonneg (sub_nonneg.mpr ordered) rule.rate_pos.le
  induction times generalizing level with
  | nil =>
      simp only [draws, grantsIn, List.countP_nil, Nat.cast_zero, mul_zero]
      exact add_nonneg rule.capacity_nonneg budget
  | cons now times ih =>
      have rest := clock.tail
      have next := draw_within rule positive now nonneg
      by_cases before : now < start
      · have tail := ih next.1 rest
        simp only [draws, grantsIn, List.countP_cons, not_le.mpr before, decide_false,
          Bool.and_false, Bool.false_and, Bool.false_eq_true, if_false, Nat.add_zero] at tail ⊢
        exact tail
      · -- The first draw inside finds at most a full bucket; the rest is paid from there.
        have inside : grantsIn start finish (draws rule cost level (now :: times)) ≤
            grantsUntil finish (draws rule cost level (now :: times)) :=
          grantsIn_le_grantsUntil start finish _
        have restart : draws rule cost level (now :: times) =
            draws rule cost ⟨refill rule now level, now⟩ (now :: times) := by
          simp only [draws, draw, refill_settled]
        by_cases past : finish < now
        · have none := grantsUntil_of_past rule cost (now :: times) past
            (List.isChain_cons_cons.mpr ⟨le_refl now, clock⟩) level
          rw [none, Nat.le_zero] at inside
          rw [inside, Nat.cast_zero, mul_zero]
          exact add_nonneg rule.capacity_nonneg budget
        · have settled : (⟨refill rule now level, now⟩ : Level K).Within rule :=
            ⟨refill_nonneg rule now nonneg, refill_le_capacity rule now level⟩
          have paid := grantsUntil_le rule positive finish (now :: times) settled
            (List.isChain_cons_cons.mpr ⟨le_refl now, clock⟩) (not_lt.mp past)
          rw [← restart] at paid
          have full := refill_le_capacity rule now level
          have window : (finish - now) * rule.rate ≤ (finish - start) * rule.rate :=
            mul_le_mul_of_nonneg_right (by linarith [not_lt.mp before]) rule.rate_pos.le
          calc cost * (grantsIn start finish (draws rule cost level (now :: times)) : K)
              ≤ cost * grantsUntil finish (draws rule cost level (now :: times)) :=
                mul_le_mul_of_nonneg_left (by exact_mod_cast inside) positive
            _ ≤ refill rule now level + (finish - now) * rule.rate := paid
            _ ≤ rule.capacity + (finish - start) * rule.rate := add_le_add full window

end ModelGate.Data.TokenBucket
