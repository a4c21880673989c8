import Mathlib.Data.List.DropRight
import Mathlib.Data.List.Rotate

/-! Sliding windows held in a ring of cells.

The ring grows until it has the window's size and then overwrites its oldest
cell. Read from the cursor, its cells are the most recent part of everything
pushed so far.
-/

set_option autoImplicit false

namespace ModelGate.Data

variable {α : Type}

structure Window (α : Type) where
  cells : List α
  next : Nat

namespace Window

def empty : Window α := ⟨[], 0⟩

def push (size : Nat) (window : Window α) (value : α) : Window α :=
  if window.cells.length < size then
    { window with cells := window.cells ++ [value] }
  else
    ⟨window.cells.set window.next value, (window.next + 1) % size⟩

/-- The cell the next push gives up, when there is one. -/
def evicted (size : Nat) (window : Window α) : Option α :=
  if window.cells.length < size then none else window.cells[window.next]?

/-- The cells from the oldest to the newest. -/
def contents (window : Window α) : List α := window.cells.rotate window.next

/-- The window holds exactly the last `size` values of a history. -/
structure Represents (size : Nat) (window : Window α) (history : List α) : Prop where
  contents : window.contents = history.rtake size
  cursor : window.next < size
  growing : window.cells.length < size → window.next = 0
  bounded : window.cells.length ≤ size

theorem empty_represents {size : Nat} (positive : 0 < size) :
    (empty : Window α).Represents size [] :=
  ⟨by simp [Window.contents, empty, List.rtake], positive, fun _ => rfl, Nat.zero_le _⟩

theorem rtake_of_length_le {size : Nat} {history : List α} (short : history.length ≤ size) :
    history.rtake size = history := by
  simp [List.rtake, Nat.sub_eq_zero_of_le short]

theorem length_rtake (size : Nat) (history : List α) :
    (history.rtake size).length = min size history.length := by
  simp only [List.rtake, List.length_drop]
  omega

theorem rtake_append_of_full {size : Nat} (positive : 0 < size) {history : List α}
    (full : size ≤ history.length) (value : α) :
    (history ++ [value]).rtake size = (history.rtake size).tail ++ [value] := by
  have start : (history ++ [value]).length - size = history.length - size + 1 := by
    simp only [List.length_append, List.length_singleton]
    omega
  have inside : history.length - size + 1 ≤ history.length := by omega
  rw [List.rtake, start, List.drop_append_of_le_length inside, List.rtake, List.tail_drop]

theorem Represents.length_cells {size : Nat} {window : Window α} {history : List α}
    (holds : window.Represents size history) : window.cells.length = min size history.length := by
  have same := congrArg List.length holds.contents
  rwa [Window.contents, List.length_rotate, length_rtake] at same

theorem contents_overwrite {cells : List α} {next : Nat} (inside : next < cells.length)
    (value : α) :
    (cells.set next value).rotate ((next + 1) % cells.length) =
      (cells.rotate next).tail ++ [value] := by
  have split : cells.set next value = cells.take next ++ value :: cells.drop (next + 1) :=
    List.set_eq_take_append_cons_drop.trans (if_pos inside)
  have width : (cells.set next value).length = cells.length := List.length_set
  rw [← width, List.rotate_mod]
  rw [List.rotate_eq_drop_append_take (by omega), List.rotate_eq_drop_append_take (by omega)]
  rw [List.tail_append_of_ne_nil (by simp only [ne_eq, List.drop_eq_nil_iff]; omega),
    List.tail_drop]
  have front : (cells.take next).length = next := List.length_take_of_le (Nat.le_of_lt inside)
  have before : (cells.take next).drop (next + 1) = [] := List.drop_of_length_le (by omega)
  have through : (cells.take next).take (next + 1) = cells.take next :=
    List.take_of_length_le (by omega)
  rw [split]
  simp [List.drop_append, List.take_append, front, before, through]

theorem push_represents {size : Nat} {window : Window α} {history : List α}
    (holds : window.Represents size history) (value : α) :
    (window.push size value).Represents size (history ++ [value]) := by
  have positive : 0 < size := Nat.lt_of_le_of_lt (Nat.zero_le _) holds.cursor
  have width := holds.length_cells
  -- A window with room grows at its end; a full one overwrites its oldest cell.
  by_cases room : window.cells.length < size
  · have atStart := holds.growing room
    have short : history.length < size := by omega
    have whole : window.cells = history := by
      have read := holds.contents
      rwa [Window.contents, atStart, List.rotate_zero,
        rtake_of_length_le (Nat.le_of_lt short)] at read
    refine ⟨?_, ?_, ?_, ?_⟩
    · rw [rtake_of_length_le (by simp; omega)]
      rw [Window.contents, push, if_pos room, atStart, List.rotate_zero, whole]
    · simpa [push, room] using holds.cursor
    · simp [push, room, atStart]
    · simp only [push, room, if_true, List.length_append, List.length_singleton]
      omega
  · have full : window.cells.length = size := Nat.le_antisymm holds.bounded (Nat.not_lt.mp room)
    have inside : window.next < window.cells.length := by rw [full]; exact holds.cursor
    refine ⟨?_, ?_, ?_, ?_⟩
    · rw [rtake_append_of_full positive (by omega), ← holds.contents]
      have moved := contents_overwrite inside value
      rw [full] at moved
      simpa [push, room, Window.contents] using moved
    · simpa [push, room] using Nat.mod_lt _ positive
    · simp [push, full]
    · simp [push, full]

theorem countP_push (size : Nat) (window : Window α) (value : α) (test : α → Bool)
    (cursor : size ≤ window.cells.length → window.next < window.cells.length) :
    ((window.push size value).cells.countP test : Int) =
      window.cells.countP test - (if (window.evicted size).any test then 1 else 0) +
        (if test value then 1 else 0) := by
  by_cases room : window.cells.length < size
  · simp only [push, evicted, room, if_true, List.countP_append, List.countP_singleton]
    split <;> simp
  · have inside := cursor (Nat.not_lt.mp room)
    have found : window.cells[window.next]? = some window.cells[window.next] :=
      List.getElem?_eq_getElem inside
    simp only [push, evicted, room, if_false, found, Option.any_some]
    rw [List.countP_set inside]
    have atLeast : test window.cells[window.next] = true → 0 < window.cells.countP test :=
      fun holds => List.countP_pos_iff.mpr ⟨_, List.getElem_mem inside, holds⟩
    by_cases old : test window.cells[window.next] = true <;> by_cases new : test value = true <;>
      simp only [old, new, if_true, if_false, Bool.false_eq_true] <;> grind

end Window

end ModelGate.Data
