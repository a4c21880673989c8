import ModelGate.Data.Text

/-! Functions of `strings` and `bufio` on byte strings. -/

set_option autoImplicit false

namespace ModelGate.Data

/-- `strings.Cut` around a byte. -/
def cut (separator : UInt8) : Bytes → Option (Bytes × Bytes)
  | [] => none
  | byte :: rest =>
      if byte = separator then some ([], rest)
      else (cut separator rest).map fun (before, after) => (byte :: before, after)

def trimSuffix (byte : UInt8) (text : Bytes) : Bytes := if text.getLast? = some byte then
    text.dropLast else text

def trimPrefix (byte : UInt8) (text : Bytes) : Bytes :=
    if text.head? = some byte then text.tail else text

/-- `unicode.IsSpace` by code point. -/
def spaceCodes : List Nat :=
  [0x09, 0x0a, 0x0b, 0x0c, 0x0d, 0x20, 0x85, 0xa0, 0x1680, 0x2000, 0x2001, 0x2002, 0x2003, 0x2004,
    0x2005, 0x2006, 0x2007, 0x2008, 0x2009, 0x200a, 0x2028, 0x2029, 0x202f, 0x205f, 0x3000]

def encodedSpaces : List Bytes := spaceCodes.map fun code => String.utf8EncodeChar (Char.ofNat code)

/-- Every mark at the front goes. No mark is empty, so there are at most as
many as there are bytes. -/
def stripLeading (marks : List Bytes) : Nat → Bytes → Bytes
  | 0, text => text
  | count + 1, text =>
      match marks.find? fun mark => mark.isPrefixOf text with
      | none => text
      | some mark => stripLeading marks count (text.drop mark.length)

/-- `strings.TrimSpace` on text that need not be valid UTF-8: a byte that is
part of no encoded space stays. -/
def trimSpaceBytes (text : Bytes) : Bytes :=
  let left := stripLeading encodedSpaces text.length text
  (stripLeading (encodedSpaces.map List.reverse) left.length left.reverse).reverse

/-- The lines of a text. A last line needs no newline. -/
def rawLines (text : Bytes) : List Bytes :=
  let pieces := text.splitOn 10
  if pieces.getLast? = some [] then pieces.dropLast else pieces

theorem cut_append {separator : UInt8} {before : Bytes} (clean : separator ∉ before)
    (rest : Bytes) :
    cut separator (before ++ separator :: rest) = some (before, rest) := by
  induction before with
  | nil => simp [cut]
  | cons byte more ih =>
      rw [List.mem_cons, not_or] at clean
      rw [List.cons_append, cut, if_neg (Ne.symm clean.1), ih clean.2]
      rfl

theorem cut_eq_some {separator : UInt8} {text before rest : Bytes}
    (found : cut separator text = some (before, rest)) : text = before ++ separator :: rest := by
  induction text generalizing before with
  | nil => simp [cut] at found
  | cons byte more ih =>
      rw [cut] at found
      split at found
      · rename_i same
        cases found
        rw [same, List.nil_append]
      · obtain ⟨⟨head, tail⟩, inner, outer⟩ := Option.map_eq_some_iff.mp found
        cases outer
        rw [ih inner, List.cons_append]

theorem stripLeading_suffix (marks : List Bytes) (count : Nat) (text : Bytes) :
    stripLeading marks count text <:+ text := by
  induction count generalizing text with
  | zero => exact List.suffix_refl _
  | succ count ih =>
      rw [stripLeading]
      split
      · exact List.suffix_refl _
      · exact (ih _).trans (List.drop_suffix _ _)

theorem trimSpaceBytes_cons {byte : UInt8} {rest : Bytes}
    (plain : encodedSpaces.find? (fun mark => mark.isPrefixOf (byte :: rest)) = none) :
    trimSpaceBytes (byte :: rest) <+: byte :: rest := by
  have left : stripLeading encodedSpaces (byte :: rest).length (byte :: rest) = byte :: rest := by
    rw [List.length_cons, stripLeading, plain]
  rw [trimSpaceBytes, left, ← List.reverse_suffix, List.reverse_reverse]
  exact stripLeading_suffix _ _ _

theorem rawLines_append {line : Bytes} (whole : (10 : UInt8) ∉ line) (rest : Bytes) :
    rawLines (line ++ 10 :: rest) = line :: rawLines rest := by
  have clean : ∀ byte ∈ line, (byte == (10 : UInt8)) = false := by
    intro byte member
    rw [beq_eq_false_iff_ne]
    rintro rfl
    exact whole member
  have split : (line ++ 10 :: rest).splitOn 10 = line :: rest.splitOn 10 :=
    List.splitOnP_append_cons_of_forall_mem clean 10 rfl rest
  obtain ⟨next, others, tail⟩ :=
    List.exists_cons_of_ne_nil (List.splitOnP_ne_nil (· == (10 : UInt8)) rest)
  have pieces : rest.splitOn 10 = next :: others := tail
  simp only [rawLines, split, pieces, List.getLast?_cons_cons, List.dropLast_cons_cons]
  split <;> rfl

end ModelGate.Data
