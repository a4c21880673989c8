import ModelGate.Data.Lines

/-! Text between runs of spaces.

The encodings of the spaces are prefix-free and suffix-free, so trimming a text
whose core starts and ends with something else leaves exactly the core.
-/

set_option autoImplicit false

namespace ModelGate.Data

def Run (marks : List Bytes) (text : Bytes) : Prop :=
  ∃ run : List Bytes, (∀ mark ∈ run, mark ∈ marks) ∧ text = run.flatten

theorem run_nil (marks : List Bytes) : Run marks [] := ⟨[], List.forall_mem_nil _, rfl⟩

theorem Run.reverse {marks : List Bytes} {text : Bytes} (run : Run marks text) :
    Run (marks.map List.reverse) text.reverse := by
  obtain ⟨pieces, each, rfl⟩ := run
  refine ⟨(pieces.map List.reverse).reverse, fun mark member => ?_, List.reverse_flatten⟩
  rw [List.mem_reverse] at member
  obtain ⟨piece, inside, rfl⟩ := List.mem_map.mp member
  exact List.mem_map_of_mem (each piece inside)

theorem stripLeading_run (marks : List Bytes) (count : Nat) (text : Bytes) :
    ∃ front, Run marks front ∧ text = front ++ stripLeading marks count text := by
  induction count generalizing text with
  | zero => exact ⟨[], run_nil marks, rfl⟩
  | succ count ih =>
      rw [stripLeading]
      split
      · exact ⟨[], run_nil marks, rfl⟩
      · rename_i mark found
        obtain ⟨front, ⟨pieces, each, rfl⟩, rest⟩ := ih (text.drop mark.length)
        have known := List.mem_of_find?_eq_some found
        have starts := List.find?_some found
        obtain ⟨tail, rfl⟩ := List.isPrefixOf_iff_prefix.mp starts
        refine ⟨mark ++ pieces.flatten, ⟨mark :: pieces, ?_, rfl⟩, ?_⟩
        · exact List.forall_mem_cons.mpr ⟨known, each⟩
        · rw [List.append_assoc, ← rest, List.drop_left]

def PrefixFree (marks : List Bytes) : Prop :=
  ∀ first ∈ marks, ∀ second ∈ marks, first <+: second → first = second

theorem stripLeading_append {marks : List Bytes} (apart : PrefixFree marks) {front rest : Bytes}
    (stops : ∀ mark ∈ marks, ¬ mark <+: rest) {count : Nat} (enough : front.length ≤ count)
    (solid : [] ∉ marks) (run : Run marks front) :
    stripLeading marks count (front ++ rest) = rest := by
  obtain ⟨pieces, each, rfl⟩ := run
  induction pieces generalizing count with
  | nil =>
      cases count with
      | zero => rfl
      | succ count =>
          have none : marks.find? (fun mark => mark.isPrefixOf rest) = none := by
            rw [List.find?_eq_none]
            intro mark member
            rw [List.isPrefixOf_iff_prefix]
            exact stops mark member
          rw [List.flatten_nil, List.nil_append, stripLeading, none]
  | cons piece pieces ih =>
      obtain ⟨known, others⟩ := List.forall_mem_cons.mp each
      have longer : 0 < piece.length := List.length_pos_iff.mpr fun empty => solid (empty ▸ known)
      rw [List.flatten_cons, List.length_append] at enough
      obtain ⟨left, rfl⟩ : ∃ left, count = left + 1 := ⟨count - 1, by omega⟩
      have start : piece <+: (piece :: pieces).flatten ++ rest := by
        rw [List.flatten_cons, List.append_assoc]
        exact List.prefix_append _ _
      rw [stripLeading]
      split
      · rename_i none
        exact absurd (List.isPrefixOf_iff_prefix.mpr start) (List.find?_eq_none.mp none piece known)
      · rename_i mark found
        have same : mark = piece := by
          have starts := List.find?_some found
          have other := List.isPrefixOf_iff_prefix.mp starts
          have marked := List.mem_of_find?_eq_some found
          rcases List.prefix_or_prefix_of_prefix other start with shorter | shorter
          · exact apart mark marked piece known shorter
          · exact (apart piece known mark marked shorter).symm
        rw [same, List.flatten_cons, List.append_assoc, List.drop_left]
        exact ih others (by omega)

/-! The spaces of UTF-8 -/

/-- A visible ASCII character is part of no encoded space. -/
def visible (byte : UInt8) : Bool := 0x20 < byte && byte < 0x7f

theorem encodedSpaces_apart : PrefixFree encodedSpaces ∧
    PrefixFree (encodedSpaces.map List.reverse) := by
  unfold PrefixFree
  decide

theorem encodedSpaces_invisible : ∀ mark ∈ encodedSpaces, ∀ byte ∈ mark, visible byte = false := by
  decide +kernel

theorem run_invisible {text : Bytes} (run : Run encodedSpaces text) :
    ∀ byte ∈ text, visible byte = false := by
  obtain ⟨pieces, each, rfl⟩ := run
  intro byte member
  obtain ⟨piece, inside, here⟩ := List.mem_flatten.mp member
  exact encodedSpaces_invisible piece (each piece inside) byte here

theorem not_prefix_of_visible {marks : List Bytes} (solid : [] ∉ marks)
    (invisible : ∀ mark ∈ marks, ∀ byte ∈ mark, visible byte = false) {byte : UInt8} {rest : Bytes}
    (seen : visible byte = true) : ∀ mark ∈ marks, ¬ mark <+: byte :: rest := by
  intro mark member starts
  cases mark with
  | nil => exact solid member
  | cons first tail =>
      obtain ⟨rfl, _⟩ := List.cons_prefix_cons.mp starts
      rw [invisible _ member first List.mem_cons_self] at seen
      cases seen

/-- A text starts and ends with visible characters. -/
structure Solid (text : Bytes) : Prop where
  front : ∃ byte rest, text = byte :: rest ∧ visible byte = true
  back : ∃ byte rest, text.reverse = byte :: rest ∧ visible byte = true

theorem solid_of_visible {text : Bytes} (nonempty : text ≠ [])
    (seen : ∀ byte ∈ text, visible byte = true) : Solid text := by
  constructor
  · obtain ⟨byte, rest, rfl⟩ := List.exists_cons_of_ne_nil nonempty
    exact ⟨byte, rest, rfl, seen byte List.mem_cons_self⟩
  · obtain ⟨byte, rest, shape⟩ := List.exists_cons_of_ne_nil (List.reverse_ne_nil_iff.mpr nonempty)
    refine ⟨byte, rest, shape, seen byte ?_⟩
    rw [← List.mem_reverse, shape]
    exact List.mem_cons_self

theorem trimSpaceBytes_padded {front core back : Bytes} (before : Run encodedSpaces front)
    (after : Run encodedSpaces back) (solid : Solid core) :
    trimSpaceBytes (front ++ core ++ back) = core := by
  have marksSolid : [] ∉ encodedSpaces ∧ [] ∉ encodedSpaces.map List.reverse := by decide
  have reversedInvisible : ∀ mark ∈ encodedSpaces.map List.reverse, ∀ byte ∈ mark, visible byte =
      false := by
    decide +kernel
  have left : stripLeading encodedSpaces (front ++ core ++ back).length (front ++ core ++ back) =
      core ++ back := by
    obtain ⟨byte, rest, rfl, seen⟩ := solid.front
    rw [List.append_assoc]
    refine stripLeading_append encodedSpaces_apart.1 ?_ (by simp) marksSolid.1 before
    exact not_prefix_of_visible marksSolid.1 encodedSpaces_invisible seen
  rw [trimSpaceBytes, left, List.reverse_append]
  obtain ⟨byte, rest, shape, seen⟩ := solid.back
  rw [stripLeading_append encodedSpaces_apart.2 ?_ (by simp) marksSolid.2 after.reverse,
    List.reverse_reverse]
  rw [shape]
  exact not_prefix_of_visible marksSolid.2 reversedInvisible seen

theorem trimSpaceBytes_run (text : Bytes) :
    ∃ front back, Run encodedSpaces front ∧ Run encodedSpaces back ∧
    text = front ++ trimSpaceBytes text ++ back := by
  obtain ⟨front, before, leading⟩ := stripLeading_run encodedSpaces text.length text
  obtain ⟨back, after, trailing⟩ := stripLeading_run (encodedSpaces.map List.reverse)
    (stripLeading encodedSpaces text.length text).length
    (stripLeading encodedSpaces text.length text).reverse
  have reversed : (encodedSpaces.map List.reverse).map List.reverse = encodedSpaces := by
    simp
  refine ⟨front, back.reverse, before, reversed ▸ after.reverse, ?_⟩
  rw [List.append_assoc, trimSpaceBytes, ← List.reverse_append, ← trailing, List.reverse_reverse]
  exact leading

theorem Run.append {marks : List Bytes} {first second : Bytes} (one : Run marks first)
    (two : Run marks second) : Run marks (first ++ second) := by
  obtain ⟨pieces, each, rfl⟩ := one
  obtain ⟨others, all, rfl⟩ := two
  exact ⟨pieces ++ others, List.forall_mem_append.mpr ⟨each, all⟩, List.flatten_append.symm⟩

theorem trimSpaceBytes_eq_nil_iff {text : Bytes} :
    trimSpaceBytes text = [] ↔ Run encodedSpaces text := by
  constructor
  · intro empty
    obtain ⟨front, back, before, after, shape⟩ := trimSpaceBytes_run text
    rw [shape, empty, List.append_nil]
    exact before.append after
  · intro run
    have solid : [] ∉ encodedSpaces := by decide
    have stops : ∀ mark ∈ encodedSpaces, ¬mark <+: [] :=
      fun mark member starts => solid (List.prefix_nil.mp starts ▸ member)
    have stripped :=
      stripLeading_append encodedSpaces_apart.1 stops (Nat.le_refl text.length) solid run
    rw [List.append_nil] at stripped
    rw [trimSpaceBytes, stripped]
    rfl

theorem trimSpaceBytes_twice {text : Bytes} (left : trimSpaceBytes text ≠ []) :
    trimSpaceBytes (trimSpaceBytes text) ≠ [] := by
  intro empty
  obtain ⟨front, back, before, after, shape⟩ := trimSpaceBytes_run text
  have run := (before.append (trimSpaceBytes_eq_nil_iff.mp empty)).append after
  rw [← shape] at run
  exact left (trimSpaceBytes_eq_nil_iff.mpr run)

theorem count_trimSpaceBytes {byte : UInt8} (seen : visible byte = true) (text : Bytes) :
    (trimSpaceBytes text).count byte = text.count byte := by
  have absent {padding : Bytes} (run : Run encodedSpaces padding) : padding.count byte = 0 := by
    rw [List.count_eq_zero]
    intro member
    rw [run_invisible run byte member] at seen
    cases seen
  obtain ⟨front, back, before, after, shape⟩ := trimSpaceBytes_run text
  have counts := congrArg (List.count byte) shape
  rw [List.count_append, List.count_append, absent before, absent after] at counts
  omega

theorem length_splitOn (separator : UInt8) (text : Bytes) :
    (text.splitOn separator).length = text.count separator + 1 := by
  induction text with
  | nil => rfl
  | cons byte rest ih =>
      rw [List.splitOn_cons_eq_if_modifyHead]
      by_cases same : byte = separator
      · simp [same, ih]
      · simp [same, ih]

end ModelGate.Data
