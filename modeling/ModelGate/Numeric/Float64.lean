import Mathlib.Data.Rat.Defs
import Mathlib.Data.NNRat.Defs
import Mathlib.Algebra.Order.Ring.Rat

/-! IEEE comparison semantics over exact magnitudes.

A value is NaN, a signed infinity or a signed exact magnitude; the two zeros
are distinct values that compare equal. Rounding is not modelled: every finite
value is the rational it denotes. Each comparison with NaN is false.
-/

set_option autoImplicit false

namespace ModelGate.Numeric

inductive Float64 where
  | nan
  | infinite (negative : Bool)
  | finite (negative : Bool) (magnitude : ℚ≥0)
  deriving DecidableEq

namespace Float64

/-- The rational a finite value denotes; NaN and the infinities denote none. -/
def toRat? : Float64 → Option ℚ
  | .nan => none
  | .infinite _ => none
  | .finite negative magnitude => some (if negative then -(magnitude : ℚ) else (magnitude : ℚ))

def ofRat (value : ℚ) : Float64 := .finite (decide (value < 0)) ⟨|value|, abs_nonneg value⟩

/-- `left < right` under IEEE rules. -/
def lt : Float64 → Float64 → Bool
  | .nan, _ => false
  | _, .nan => false
  | .infinite negative, .infinite other => negative && !other
  | .infinite negative, .finite _ _ => negative
  | .finite _ _, .infinite negative => !negative
  | left@(.finite _ _), right@(.finite _ _) =>
      match left.toRat?, right.toRat? with
      | some a, some b => decide (a < b)
      | _, _ => false

/-- `left == right` under IEEE rules: NaN differs from itself, the zeros agree. -/
def eq : Float64 → Float64 → Bool
  | .nan, _ => false
  | _, .nan => false
  | .infinite negative, .infinite other => negative == other
  | .infinite _, .finite _ _ => false
  | .finite _ _, .infinite _ => false
  | left@(.finite _ _), right@(.finite _ _) => left.toRat? == right.toRat?

def le (left right : Float64) : Bool := left.lt right || left.eq right

theorem lt_of_toRat {left right : Float64} {a b : ℚ} (denotes : left.toRat? = some a)
    (other : right.toRat? = some b) : left.lt right = decide (a < b) := by
  cases left with
  | nan => cases denotes
  | infinite => cases denotes
  | finite sign magnitude =>
      cases right with
      | nan => cases other
      | infinite => cases other
      | finite => simp only [lt, denotes, other]

theorem eq_of_toRat {left right : Float64} {a b : ℚ} (denotes : left.toRat? = some a)
    (other : right.toRat? = some b) : left.eq right = decide (a = b) := by
  cases left with
  | nan => cases denotes
  | infinite => cases denotes
  | finite sign magnitude =>
      cases right with
      | nan => cases other
      | infinite => cases other
      | finite =>
          simp only [eq, denotes, other]
          by_cases same : a = b <;> simp [same]

theorem le_of_toRat {left right : Float64} {a b : ℚ} (denotes : left.toRat? = some a)
    (other : right.toRat? = some b) : left.le right = decide (a ≤ b) := by
  rw [le, lt_of_toRat denotes other, eq_of_toRat denotes other]
  by_cases ordered : a ≤ b
  · rcases lt_or_eq_of_le ordered with strict | same
    · simp [strict, ordered]
    · simp [same]
  · simp [ordered, not_lt.mpr (le_of_lt (not_le.mp ordered)), ne_of_gt (not_le.mp ordered)]

theorem toRat_ofRat (value : ℚ) : (ofRat value).toRat? = some value := by
  simp only [ofRat, toRat?, decide_eq_true_eq, NNRat.coe_mk]
  split
  · next negative => rw [abs_of_neg negative, neg_neg]
  · next positive => rw [abs_of_nonneg (not_lt.mp positive)]

end Float64

end ModelGate.Numeric
