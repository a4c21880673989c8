import ModelGate.Data.Lines
import ModelGate.Numeric.Float64

/-! The checked values of `internal/config`.

The environment holds byte strings. What `strconv` and `time` make of a text
is a parameter: a loader only compares the numbers it gets.
-/

set_option autoImplicit false

namespace ModelGate.Config

open Data Numeric

/-- The environment of the process and the numbers its texts denote. -/
structure Source where
  Getenv : String → Bytes
  ParseFloat : Bytes → Option Float64
  FormatFloat : Float64 → Bytes
  ParseDuration : Bytes → Option Int

def envOrDefault (source : Source) (name : String) (fallback : Bytes) : Bytes :=
  let value := trimSpaceBytes (source.Getenv name)
  if value ≠ [] then value else fallback

/-- Durations count nanoseconds. -/
def positiveDuration (source : Source) (name : String) (fallback : Bytes) : Except String Int :=
  match source.ParseDuration (envOrDefault source name fallback) with
  | none => .error (name ++ " must be a positive Go duration")
  | some value =>
      if value ≤ 0 then .error (name ++ " must be a positive Go duration") else .ok value

def positiveRatio (source : Source) (name : String) (fallback : Float64) : Except String Float64 :=
  match source.ParseFloat (envOrDefault source name (source.FormatFloat fallback)) with
  | none => .error (name ++ " must be a number in (0, 1]")
  | some value =>
      if value.le (.ofRat 0) ∨ (Float64.ofRat 1).lt value then
        .error (name ++ " must be a number in (0, 1]")
      else .ok value

theorem positiveDuration_ok {source : Source} {name : String} {fallback : Bytes} {value : Int}
    (loaded : positiveDuration source name fallback = .ok value) :
    0 < value ∧ ∃ text, source.ParseDuration text = some value := by
  unfold positiveDuration at loaded
  split at loaded
  · cases loaded
  · rename_i parsed
    split at loaded
    · cases loaded
    · rename_i positive
      cases loaded
      exact ⟨Int.not_le.mp positive, _, parsed⟩

theorem positiveRatio_ok {source : Source} {name : String} {fallback value : Float64}
    (loaded : positiveRatio source name fallback = .ok value) :
    value.le (.ofRat 0) = false ∧ (Float64.ofRat 1).lt value = false := by
  unfold positiveRatio at loaded
  split at loaded
  · cases loaded
  · split at loaded
    · cases loaded
    · rename_i inside
      cases loaded
      simpa only [not_or, Bool.not_eq_true] using inside

/-- Both comparisons are false of NaN. Of everything else they leave the numbers in `(0, 1]`. -/
theorem ratio_of_accepted {value : Float64} (positive : value.le (.ofRat 0) = false)
    (small : (Float64.ofRat 1).lt value = false) (number : value ≠ .nan) :
    ∃ ratio, value.toRat? = some ratio ∧ 0 < ratio ∧ ratio ≤ 1 := by
  cases value with
  | nan => exact absurd rfl number
  | infinite negative =>
      -- The positive one is above one, the negative one below zero.
      cases negative
      · cases small
      · cases positive
  | finite negative magnitude =>
      refine ⟨_, rfl, ?_, ?_⟩
      · rw [Float64.le_of_toRat rfl (Float64.toRat_ofRat 0), decide_eq_false_iff_not,
          not_le] at positive
        exact positive
      · rw [Float64.lt_of_toRat (Float64.toRat_ofRat 1) rfl, decide_eq_false_iff_not,
          not_lt] at small
        exact small

/-! Two numbers as `strconv` reads and writes them -/

def ratioTexts : List (Bytes × Float64) := [(utf8 "0.5", .ofRat (1 / 2)), (utf8 "NaN", .nan)]

def ratioValue (text : Bytes) : Option Float64 := ratioTexts.lookup text

def ratioText (value : Float64) : Bytes :=
  ((ratioTexts.find? fun entry => entry.2 = value).map Prod.fst).getD []

end ModelGate.Config
