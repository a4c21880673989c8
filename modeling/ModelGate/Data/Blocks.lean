import Mathlib.Algebra.GroupWithZero.Nat
import Mathlib.Data.List.Basic

/-! Lines read in blocks that blank lines separate.

A reader that goes line by line keeps what the open block has yielded so far
and how much of its allowance is used. Both are read off the blocks as a whole.
-/

set_option autoImplicit false

namespace ModelGate.Data

variable {α β : Type} (blank : α → Bool)

/-- What the blocks yield that yield anything, with `held` from the part of the
first one that is already read. -/
def gather (yields : α → Option β) : List β → List α → List (List β)
  | held, [] => if held.isEmpty then [] else [held]
  | held, line :: rest =>
      if blank line then
        if held.isEmpty then gather yields [] rest else held :: gather yields [] rest
      else gather yields (held ++ (yields line).toList) rest

/-- No line takes the block it belongs to or ends over a limit, when `used` of
it is already taken. -/
def Within (limit : Nat) (weight : α → Nat) : Nat → List α → Prop
  | _, [] => True
  | used, line :: rest =>
      used + weight line ≤ limit ∧
        Within limit weight (if blank line then 0 else used + weight line) rest

def weigh (weight : α → Nat) (block : List α) : Nat := (block.map weight).sum

/-- A block with the blank line that ends it, and the last one without, stay
within a limit. -/
def BlocksWithin (limit : Nat) (weight : α → Nat) (stop : Nat) : List (List α) → Prop
  | [] => True
  | [last] => weigh weight last ≤ limit
  | block :: rest => weigh weight block + stop ≤ limit ∧ BlocksWithin limit weight stop rest

variable {blank}

theorem gather_eq {yields : α → Option β} {lines : List α} {first : List α} {others : List (List α)}
    {held : List β} (split : lines.splitOnP blank = first :: others) :
    gather blank yields held lines =
      ((held ++ first.filterMap yields) :: others.map (List.filterMap yields)).filter
      (!·.isEmpty) := by
  -- The reader carries what the open block has yielded, so the claim is about any `held`.
  induction lines generalizing held first others with
  | nil =>
      rw [List.splitOnP_nil, List.cons.injEq] at split
      obtain ⟨rfl, rfl⟩ := split
      cases held <;> simp [gather]
  | cons line rest ih =>
      obtain ⟨next, later, tail⟩ := List.exists_cons_of_ne_nil (List.splitOnP_ne_nil blank rest)
      rw [List.splitOnP_cons_eq_if_modifyHead, tail] at split
      by_cases stops : blank line = true
      · rw [if_pos stops, List.cons.injEq] at split
        obtain ⟨rfl, rfl⟩ := split
        cases held <;> simp [gather, stops, ih tail]
      · rw [if_neg stops, List.modifyHead_cons, List.cons.injEq] at split
        obtain ⟨rfl, rfl⟩ := split
        rw [gather, if_neg stops, ih tail]
        cases found : yields line <;> simp [found]

theorem within_of_blocks {limit stop used : Nat} {weight : α → Nat}
    (stopped : ∀ line, blank line → weight line = stop) {lines : List α} {first : List α}
    {others : List (List α)} (split : lines.splitOnP blank = first :: others)
    (fits : used + weigh weight first + (if others.isEmpty then 0 else stop) ≤ limit)
    (later : BlocksWithin limit weight stop others) : Within blank limit weight used lines := by
  -- `used` is what the lines already read of the first block take.
  induction lines generalizing used first others with
  | nil => trivial
  | cons line rest ih =>
      obtain ⟨next, more, tail⟩ := List.exists_cons_of_ne_nil (List.splitOnP_ne_nil blank rest)
      rw [List.splitOnP_cons_eq_if_modifyHead, tail] at split
      by_cases stops : blank line = true
      · rw [if_pos stops, List.cons.injEq] at split
        obtain ⟨rfl, rfl⟩ := split
        simp only [weigh, List.map_nil, List.sum_nil, List.isEmpty_cons] at fits
        rw [Within, if_pos stops, stopped line stops]
        refine ⟨by simpa using fits, ?_⟩
        cases more with
        | nil => exact ih tail (by simpa [BlocksWithin] using later) trivial
        | cons block blocks => exact ih tail (by simpa [BlocksWithin] using later.1) later.2
      · rw [if_neg stops, List.modifyHead_cons, List.cons.injEq] at split
        obtain ⟨rfl, rfl⟩ := split
        simp only [weigh, List.map_cons, List.sum_cons] at fits
        rw [Within, if_neg stops]
        refine ⟨by omega, ih tail ?_ later⟩
        simp only [weigh]
        omega

end ModelGate.Data
