import Mathlib.Algebra.Order.Ring.Int
import Mathlib.Tactic.NormNum.Basic

/-! Two's complement arithmetic of 64 bits. -/

set_option autoImplicit false

namespace ModelGate.Numeric

/-- The value an `int64` keeps of a result. -/
def int64 (value : Int) : Int := value.bmod (2 ^ 64)

theorem int64_of_bounds {value : Int} (low : -2 ^ 63 ≤ value) (high : value < 2 ^ 63) :
    int64 value = value := by
  apply Int.bmod_eq_of_le <;> norm_num <;> omega

end ModelGate.Numeric
