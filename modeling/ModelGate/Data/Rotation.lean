import Mathlib.Data.Int.ModEq
import Mathlib.Data.List.GetD
import Mathlib.Data.List.Rotate
import Mathlib.Data.Nat.Find

/-! Looking for an eligible place in cyclic order. -/

set_option autoImplicit false

namespace ModelGate.Data

/-- The first eligible place from `next` on, among as many as are left to look
at, and the place after the last one looked at. -/
def rotate (size : Nat) (eligible : Nat → Bool) : Nat → Nat → Option Nat × Nat
  | 0, next => (none, next)
  | left + 1, next =>
      if eligible (next % size) then (some (next % size), (next + 1) % size)
      else rotate size eligible left ((next + 1) % size)

section Rotate

variable {size : Nat} {eligible : Nat → Bool}

theorem succ_mod_add_mod (next step : Nat) :
    ((next + 1) % size + step) % size = (next + (step + 1)) % size := by
  rw [Nat.mod_add_mod, Nat.add_assoc, Nat.add_comm 1 step]

theorem rotate_of_first {left step next : Nat} (within : step < left)
    (skipped : ∀ k < step, eligible ((next + k) % size) = false)
    (found : eligible ((next + step) % size) = true) :
    rotate size eligible left next = (some ((next + step) % size), (next + step + 1) % size) := by
  induction step generalizing left next with
  | zero =>
      obtain ⟨left, rfl⟩ : ∃ rest, left = rest + 1 := ⟨left - 1, by omega⟩
      rw [Nat.add_zero] at found
      rw [rotate, if_pos found]
      rfl
  | succ step ih =>
      obtain ⟨left, rfl⟩ : ∃ rest, left = rest + 1 := ⟨left - 1, by omega⟩
      have here := skipped 0 (Nat.succ_pos step)
      rw [Nat.add_zero] at here
      rw [rotate, here, if_neg Bool.false_ne_true, ih (by omega)]
      · rw [succ_mod_add_mod, Nat.add_assoc _ step 1, succ_mod_add_mod, Nat.add_assoc next]
      · intro k below
        rw [succ_mod_add_mod]
        exact skipped (k + 1) (by omega)
      · rw [succ_mod_add_mod]
        exact found

theorem rotate_of_none {left next : Nat} (none' : ∀ k < left, eligible ((next + k) % size) = false)
    (start : next < size) : rotate size eligible left next = (none, (next + left) % size) := by
  induction left generalizing next with
  | zero => rw [rotate, Nat.add_zero, Nat.mod_eq_of_lt start]
  | succ left ih =>
      have here := none' 0 (Nat.succ_pos left)
      rw [Nat.add_zero] at here
      rw [rotate, here, if_neg Bool.false_ne_true, ih, succ_mod_add_mod]
      · intro k below
        rw [succ_mod_add_mod]
        exact none' (k + 1) (by omega)
      · exact Nat.mod_lt _ (by omega)

theorem rotate_some {left next place : Nat}
    (found : (rotate size eligible left next).1 = some place) : eligible place = true := by
  induction left generalizing next with
  | zero => cases found
  | succ left ih =>
      rw [rotate] at found
      split at found
      · rename_i here
        obtain rfl := Option.some.inj found
        exact here
      · exact ih found

theorem rotate_none {left next : Nat} (nothing : (rotate size eligible left next).1 = none) :
    ∀ step < left, eligible ((next + step) % size) = false := by
  induction left generalizing next with
  | zero => exact nofun
  | succ left ih =>
      rw [rotate] at nothing
      split at nothing
      · cases nothing
      · rename_i here
        intro step below
        cases step with
        | zero => exact Bool.not_eq_true _ ▸ here
        | succ step =>
            rw [← succ_mod_add_mod]
            exact ih nothing step (by omega)

theorem rotate_lt {left next : Nat} (start : next < size) :
    (rotate size eligible left next).2 < size := by
  induction left generalizing next with
  | zero => exact start
  | succ left ih =>
      have inside : (next + 1) % size < size := Nat.mod_lt _ (by omega)
      rw [rotate]
      split
      · exact inside
      · exact ih inside

theorem exists_step (next : Nat) {place : Nat} (inside : place < size) :
    ∃ step < size, (next + step) % size = place := by
  have start : next % size < size := Nat.mod_lt _ (by omega)
  by_cases later : next % size ≤ place
  · refine ⟨place - next % size, by omega, ?_⟩
    rw [← Nat.mod_add_mod, Nat.add_sub_cancel' later, Nat.mod_eq_of_lt inside]
  · refine ⟨place + size - next % size, by omega, ?_⟩
    have whole : next % size + (place + size - next % size) = place + size := by omega
    rw [← Nat.mod_add_mod, whole, Nat.add_mod_right, Nat.mod_eq_of_lt inside]

theorem step_unique {next first second : Nat} (one : first < size) (two : second < size)
    (same : (next + first) % size = (next + second) % size) : first = second := by
  have cancelled : first % size = second % size := Nat.ModEq.add_left_cancel' next same
  rwa [Nat.mod_eq_of_lt one, Nat.mod_eq_of_lt two] at cancelled

end Rotate

/-! Taking the eligible places in turn -/

/-- The places in cyclic order from `next` on. -/
def fromPlace (size next : Nat) : List Nat := (List.range size).map fun step => (next + step) % size

def inOrder (size : Nat) (eligible : Nat → Bool) (next : Nat) : List Nat :=
  (fromPlace size next).filter eligible

/-- The first so many of the places of `order`, again and again. -/
def inTurn (order : List Nat) (turns : Nat) : List Nat :=
  (List.range turns).map fun turn => order.getD (turn % order.length) 0

section Turns

variable {size : Nat} {eligible : Nat → Bool}

@[simp] theorem length_fromPlace (next : Nat) : (fromPlace size next).length = size := by
  simp [fromPlace]

@[simp] theorem getElem_fromPlace {next index : Nat}
    (bound : index < (fromPlace size next).length) :
    (fromPlace size next)[index] = (next + index) % size := by simp [fromPlace]

theorem fromPlace_mod (next : Nat) : fromPlace size (next % size) = fromPlace size next := by
  unfold fromPlace
  simp only [Nat.mod_add_mod]

theorem fromPlace_rotate (next step : Nat) :
    fromPlace size (next + step) = (fromPlace size next).rotate step := by
  apply List.ext_getElem
  · simp
  · intro index bound _
    rw [List.getElem_rotate, getElem_fromPlace, getElem_fromPlace, length_fromPlace,
      Nat.add_mod_mod]
    congr 1
    omega

theorem nodup_fromPlace (next : Nat) : (fromPlace size next).Nodup := by
  apply List.Nodup.map_on _ List.nodup_range
  intro first one second two same
  exact step_unique (List.mem_range.mp one) (List.mem_range.mp two) same

theorem fromPlace_zero : fromPlace size 0 = List.range size := by
  apply List.ext_getElem
  · simp
  · intro index bound _
    rw [getElem_fromPlace, Nat.zero_add, List.getElem_range,
      Nat.mod_eq_of_lt (by simpa using bound)]

theorem inOrder_eq (next : Nat) :
    inOrder size eligible next = ((List.range size).rotate next).filter eligible := by
  have rotated : fromPlace size (0 + next) = _ := fromPlace_rotate 0 next
  rw [Nat.zero_add, fromPlace_zero] at rotated
  rw [inOrder, rotated]

theorem inOrder_perm (next : Nat) :
    (inOrder size eligible next).Perm ((List.range size).filter eligible) := by
  rw [inOrder_eq]
  exact (List.rotate_perm _ _).filter _

theorem nodup_inOrder (next : Nat) : (inOrder size eligible next).Nodup :=
  (nodup_fromPlace next).filter _

theorem inOrder_of_first {step next : Nat} (within : step < size)
    (skipped : ∀ k < step, eligible ((next + k) % size) = false)
    (found : eligible ((next + step) % size) = true) :
    ∃ rest, inOrder size eligible next = (next + step) % size :: rest ∧
    inOrder size eligible ((next + step + 1) % size) = rest ++ [(next + step) % size] := by
  have early : ((fromPlace size next).take (step + 1)).filter eligible =
      [(next + step) % size] := by
    have split : (fromPlace size next).take (step + 1) =
        ((List.range step).map fun k => (next + k) % size) ++ [(next + step) % size] := by
      rw [fromPlace, ← List.map_take, List.take_range, Nat.min_eq_left within, List.range_succ,
        List.map_append]
      rfl
    rw [split, List.filter_append, List.filter_cons_of_pos found]
    have none' : ((List.range step).map fun k => (next + k) % size).filter eligible = [] := by
      apply List.filter_eq_nil_iff.mpr
      intro place member
      obtain ⟨k, below, rfl⟩ := List.mem_map.mp member
      simp [skipped k (List.mem_range.mp below)]
    rw [none']
    rfl
  refine ⟨((fromPlace size next).drop (step + 1)).filter eligible, ?_, ?_⟩
  · have split := List.take_append_drop (step + 1) (fromPlace size next)
    unfold inOrder
    rw [← split, List.filter_append, early]
    simp
  · unfold inOrder
    rw [fromPlace_mod, Nat.add_assoc, fromPlace_rotate, List.rotate_eq_drop_append_take
      (by rw [length_fromPlace]; exact within), List.filter_append, early]

theorem exists_first (next : Nat) (some' : ∃ place < size, eligible place = true) :
    ∃ step < size, (∀ k < step, eligible ((next + k) % size) = false) ∧
    eligible ((next + step) % size) = true := by
  obtain ⟨place, inside, passes⟩ := some'
  obtain ⟨step, within, same⟩ := exists_step next inside
  have found : ∃ step, eligible ((next + step) % size) = true := ⟨step, same ▸ passes⟩
  refine ⟨Nat.find found, ?_, fun k below => ?_, Nat.find_spec found⟩
  · exact Nat.lt_of_le_of_lt (Nat.find_min' found (same ▸ passes)) within
  · exact (Bool.not_eq_true _).mp (Nat.find_min found below)

/-- One turn takes the first of the order and leaves the rotated order. -/
theorem rotate_inOrder (next : Nat) (some' : ∃ place < size, eligible place = true) :
    ∃ place rest, inOrder size eligible next = place :: rest ∧
      (rotate size eligible size next).1 = some place ∧
      inOrder size eligible (rotate size eligible size next).2 = rest ++ [place] := by
  obtain ⟨step, within, skipped, found⟩ := exists_first next some'
  obtain ⟨rest, before, after⟩ := inOrder_of_first within skipped found
  rw [rotate_of_first within skipped found]
  exact ⟨_, rest, before, rfl, after⟩

/-! The sequence of the turns -/

variable {order : List Nat}

@[simp] theorem length_inTurn (turns : Nat) : (inTurn order turns).length = turns := by
  simp [inTurn]

theorem inTurn_cons (place : Nat) (rest : List Nat) (turns : Nat) :
    inTurn (place :: rest) (turns + 1) = place :: inTurn (rest ++ [place]) turns := by
  unfold inTurn
  rw [List.range_succ_eq_map, List.map_cons, List.map_map]
  congr 1
  apply List.map_congr_left
  intro turn _
  have rotated : rest ++ [place] = (place :: rest).rotate 1 := by simp
  have below (step : Nat) : step % (place :: rest).length < (place :: rest).length :=
    Nat.mod_lt _ (Nat.succ_pos _)
  have bound : turn % (place :: rest).length < ((place :: rest).rotate 1).length := by
    rw [List.length_rotate]
    exact below turn
  rw [Function.comp_apply, rotated, List.length_rotate, List.getD_eq_getElem _ _ (below _),
    List.getD_eq_getElem _ _ bound, List.getElem_rotate]
  congr 1
  rw [Nat.mod_add_mod]

/-- As many turns as there are places take each place once. -/
theorem inTurn_window {start turns : Nat} (within : start + order.length ≤ turns) :
    (((inTurn order turns).drop start).take order.length).Perm order := by
  have rotated : ((inTurn order turns).drop start).take order.length = order.rotate start := by
    apply List.ext_getElem
    · simp
      omega
    · intro index bound other
      have inside : index < order.length := by simpa using other
      rw [List.getElem_take, List.getElem_drop, List.getElem_rotate]
      unfold inTurn
      rw [List.getElem_map, List.getElem_range, List.getD_eq_getElem _ _ (Nat.mod_lt _ (by omega))]
      congr 2
      omega
  rw [rotated]
  exact List.rotate_perm _ _

theorem inTurn_add (turns : Nat) :
    inTurn order (order.length + turns) = order ++ inTurn order turns := by
  unfold inTurn
  rw [List.range_add, List.map_append, List.map_map]
  congr 1
  · apply List.ext_getElem
    · simp
    · intro index _ bound
      simp [Nat.mod_eq_of_lt bound, bound]
  · apply List.map_congr_left
    intro turn _
    rw [Function.comp_apply, Nat.add_mod_left]

/-- No place is ever two turns ahead of another. -/
theorem count_inTurn_le (nodup : order.Nodup) (turns : Nat) {first second : Nat}
    (one : first ∈ order) (two : second ∈ order) :
    (inTurn order turns).count first ≤ (inTurn order turns).count second + 1 := by
  induction turns using Nat.strongRecOn with
  | ind turns ih =>
      have positive : 0 < order.length := List.length_pos_of_mem one
      by_cases whole : order.length ≤ turns
      · obtain ⟨rest, rfl⟩ := Nat.exists_eq_add_of_le whole
        rw [inTurn_add, List.count_append, List.count_append, List.count_eq_one_of_mem nodup one,
          List.count_eq_one_of_mem nodup two]
        have later := ih rest (by omega)
        omega
      · have early : inTurn order turns = order.take turns := by
          apply List.ext_getElem
          · simp
            omega
          · intro index bound other
            have inside : index < order.length := by
              rw [length_inTurn] at bound
              omega
            simp [inTurn, Nat.mod_eq_of_lt inside, inside]
        rw [early]
        have once := List.nodup_iff_count_le_one.mp
          (nodup.sublist (List.take_sublist turns order)) first
        omega

end Turns

end ModelGate.Data
