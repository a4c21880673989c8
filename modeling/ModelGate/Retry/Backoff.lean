import Mathlib.Order.Monotone.Basic
import Mathlib.Tactic.Ring
import ModelGate.Retry.Policy

/-! The delays between attempts in unbounded integers. -/

set_option autoImplicit false

namespace ModelGate.Retry

open Numeric

/-- Positive durations of 64 bits, the base not above the maximum. -/
structure Options.Durations (options : Options) : Prop where
  positive : 0 < options.baseBackoff
  ordered : options.baseBackoff ≤ options.maxBackoff
  fits : options.maxBackoff ≤ 2 ^ 63 - 1

theorem durations_of_new {options : Options} {p : Policy} (accepted : New options = .ok p)
    (fits : options.maxBackoff ≤ 2 ^ 63 - 1) : p.options = options ∧ options.Durations := by
  obtain ⟨-, -, positive, ordered, rfl⟩ := new_ok_iff.mp accepted
  exact ⟨rfl, positive, ordered, fits⟩

/-- The loop of `backoff` with the products it computes, before they are kept in 64 bits. -/
def tracedDouble (maxBackoff : Int) : Nat → Int → List Int × Int
  | 0, delay => ([], if delay > maxBackoff then maxBackoff else delay)
  | steps + 1, delay =>
      if delay ≥ maxBackoff.tdiv 2 then ([], maxBackoff)
      else
        let rest := tracedDouble maxBackoff steps (int64 (delay * 2))
        (delay * 2 :: rest.1, rest.2)

theorem tracedDouble_result (maxBackoff : Int) (steps : Nat) (delay : Int) :
    (tracedDouble maxBackoff steps delay).2 = double maxBackoff steps delay := by
  induction steps generalizing delay with
  | zero => rfl
  | succ steps ih =>
      unfold tracedDouble double
      split
      · rfl
      · exact ih _

/-- What the unbounded doubling is cut to: the step that would end one below the
maximum is already taken for one that passes it. -/
def saturated (maxBackoff delay : Int) (steps : Nat) : Int :=
  if 1 ≤ steps ∧ delay * 2 ^ steps = maxBackoff - 1 then maxBackoff
  else min (delay * 2 ^ steps) maxBackoff

section Doubling

variable {maxBackoff delay : Int} (positive : 0 < delay) (within : delay ≤ maxBackoff)
  (fits : maxBackoff ≤ 2 ^ 63 - 1)
include positive

theorem le_doubled (steps : Nat) : delay ≤ delay * 2 ^ steps := by
  have power : (1 : Int) ≤ 2 ^ steps := one_le_pow₀ (by norm_num)
  exact le_mul_of_one_le_right positive.le power

theorem saturated_mono {fewer more : Nat} (order : fewer ≤ more) :
    saturated maxBackoff delay fewer ≤ saturated maxBackoff delay more := by
  refine monotone_nat_of_le_succ (fun steps => ?_) order
  have least : 1 ≤ delay * 2 ^ steps := Int.mul_pos positive (by positivity)
  have power : delay * 2 ^ (steps + 1) = delay * 2 ^ steps * 2 := by ring
  unfold saturated
  rw [power]
  -- A product one below the maximum passes it with the next step.
  split <;> split <;> omega

include within

theorem saturated_bounds (steps : Nat) :
    delay ≤ saturated maxBackoff delay steps ∧ saturated maxBackoff delay steps ≤ maxBackoff := by
  have grown := le_doubled positive steps
  unfold saturated
  split <;> omega

/-- The test of the loop stops every doubling that could pass the maximum. -/
theorem doubled_le (goes : ¬delay ≥ maxBackoff.tdiv 2) : delay * 2 + 2 ≤ maxBackoff := by
  rw [Int.tdiv_eq_ediv_of_nonneg (by omega)] at goes
  omega

/-- It stops one more: the half of an odd maximum is rounded down. -/
theorem pred_le_doubled (stops : delay ≥ maxBackoff.tdiv 2) : maxBackoff - 1 ≤ delay * 2 := by
  rw [Int.tdiv_eq_ediv_of_nonneg (by omega)] at stops
  omega

include fits

theorem int64_doubled (goes : ¬delay ≥ maxBackoff.tdiv 2) : int64 (delay * 2) = delay * 2 := by
  have low := doubled_le positive within goes
  exact int64_of_bounds (by omega) (by omega)

theorem tracedDouble_le (steps : Nat) :
    ∀ product ∈ (tracedDouble maxBackoff steps delay).1, product ≤ maxBackoff ∧
    int64 product = product := by
  induction steps generalizing delay with
  | zero => exact fun _ member => absurd member List.not_mem_nil
  | succ steps ih =>
      unfold tracedDouble
      split
      · exact fun _ member => absurd member List.not_mem_nil
      · rename_i goes
        have low := doubled_le positive within goes
        have exact' := int64_doubled positive within fits goes
        rw [exact']
        refine List.forall_mem_cons.mpr ⟨⟨by omega, exact'⟩, ?_⟩
        exact ih (by omega) (by omega)

theorem double_eq_saturated (steps : Nat) :
    double maxBackoff steps delay = saturated maxBackoff delay steps := by
  induction steps generalizing delay with
  | zero =>
      have least : min delay maxBackoff = delay := min_eq_left within
      simp [double, saturated, least, Int.not_lt.mpr within]
  | succ steps ih =>
      have grown : delay * 2 ≤ delay * 2 * 2 ^ steps := le_doubled (by omega) steps
      have power : delay * 2 ^ (steps + 1) = delay * 2 * 2 ^ steps := by ring
      unfold double saturated
      rw [power]
      split
      · -- Stopped: the product is at the maximum, past it or just below.
        rename_i stops
        have high := pred_le_doubled positive within stops
        split <;> omega
      · rename_i goes
        have low := doubled_le positive within goes
        rw [int64_doubled positive within fits goes, ih (by omega) (by omega), saturated]
        cases steps with
        | zero =>
            -- With no step left the product is two below the maximum at least.
            have apart : delay * 2 * 2 ^ 0 ≠ maxBackoff - 1 := by omega
            rw [if_neg (fun reached => apart reached.2), if_neg (fun reached => apart reached.2)]
        | succ steps => simp only [Nat.le_add_left, true_and]

end Doubling

namespace Policy

variable (p : Policy)

def tracedBackoff (failedAttempt : Nat) : List Int × Int :=
  tracedDouble p.options.maxBackoff (failedAttempt - 1) p.options.baseBackoff

variable {p} (durations : p.options.Durations)
include durations

theorem backoff_eq_saturated (failedAttempt : Nat) :
    p.backoff failedAttempt =
      saturated p.options.maxBackoff p.options.baseBackoff (failedAttempt - 1) :=
  double_eq_saturated durations.positive durations.ordered durations.fits _

theorem backoff_mono {earlier later : Nat} (order : earlier ≤ later) :
    p.backoff earlier ≤ p.backoff later := by
  rw [backoff_eq_saturated durations, backoff_eq_saturated durations]
  exact saturated_mono durations.positive (Nat.sub_le_sub_right order 1)

theorem backoff_bounds (failedAttempt : Nat) :
    p.options.baseBackoff ≤ p.backoff failedAttempt ∧
    p.backoff failedAttempt ≤ p.options.maxBackoff := by
  rw [backoff_eq_saturated durations]
  exact saturated_bounds durations.positive durations.ordered _

theorem backoff_pos (failedAttempt : Nat) : 0 < p.backoff failedAttempt :=
  durations.positive.trans_le (backoff_bounds durations failedAttempt).1

end Policy

/-- The delay is the base doubled once for each attempt after the first, cut at
the maximum, and no product on the way passes that. -/
theorem backoff_capped_doubling {p : Policy} (durations : p.options.Durations)
    (failedAttempt : Nat) :
    (p.tracedBackoff failedAttempt).2 = p.backoff failedAttempt ∧
      (∀ product ∈ (p.tracedBackoff failedAttempt).1, product ≤ p.options.maxBackoff ∧
        int64 product = product) ∧
      p.options.baseBackoff ≤ p.backoff failedAttempt ∧
      p.backoff failedAttempt ≤ p.options.maxBackoff ∧
      (∀ later, failedAttempt ≤ later → p.backoff failedAttempt ≤ p.backoff later) ∧
      p.backoff failedAttempt =
        if 2 ≤ failedAttempt ∧
        p.options.baseBackoff * 2 ^ (failedAttempt - 1) = p.options.maxBackoff - 1 then
          p.options.maxBackoff
        else min (p.options.baseBackoff * 2 ^ (failedAttempt - 1)) p.options.maxBackoff := by
  obtain ⟨low, high⟩ := Policy.backoff_bounds durations failedAttempt
  refine ⟨tracedDouble_result _ _ _, ?_, low, high, fun later order =>
    Policy.backoff_mono durations order, ?_⟩
  · exact tracedDouble_le durations.positive durations.ordered durations.fits _
  · have steps : 1 ≤ failedAttempt - 1 ↔ 2 ≤ failedAttempt := by omega
    rw [Policy.backoff_eq_saturated durations, saturated]
    simp only [steps]

/-- An odd maximum near the top, which two doublings would end one below. -/
def topmost : Policy := ⟨⟨4, 1, 2 ^ 61 - 1, 2 ^ 63 - 3, false⟩⟩

theorem backoff_capped_doubling_topmost :
    topmost.options.baseBackoff * 2 ^ (3 - 1) = topmost.options.maxBackoff - 1 ∧
      (topmost.tracedBackoff 3).1 = [2 ^ 62 - 2] ∧ int64 (2 ^ 62 - 2) = 2 ^ 62 - 2 ∧
      topmost.backoff 3 = topmost.options.maxBackoff := by
  have durations : topmost.options.Durations := ⟨by decide, by decide, by decide⟩
  have below : topmost.options.baseBackoff * 2 ^ (3 - 1) = topmost.options.maxBackoff - 1 := by
    decide
  have products : (topmost.tracedBackoff 3).1 = [2 ^ 62 - 2] := by decide
  obtain ⟨-, exact', -, -, -, third⟩ := backoff_capped_doubling durations 3
  rw [if_pos ⟨by decide, below⟩] at third
  exact ⟨below, products, (exact' _ (products ▸ List.mem_cons_self)).2, third⟩

end ModelGate.Retry
