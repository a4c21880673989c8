import Mathlib.Data.List.Basic

/-! Byte strings and the text functions of the standard library in use. -/

set_option autoImplicit false

namespace ModelGate.Data

abbrev Bytes := List UInt8

def utf8 (text : String) : Bytes := text.toList.flatMap String.utf8EncodeChar

theorem utf8_inj {first second : String} (same : utf8 first = utf8 second) : first = second := by
  have encoded : first.toList.utf8Encode = second.toList.utf8Encode := by
    simp only [List.utf8Encode]
    exact congrArg List.toByteArray same
  rw [String.utf8Encode_toList, String.utf8Encode_toList] at encoded
  exact String.toByteArray_inj.mp encoded

def isSpace (c : Char) : Bool :=
  let code := c.toNat
  code == 0x20 || (0x09 ≤ code && code ≤ 0x0d) || code == 0x85 || code == 0xa0 || code == 0x1680 ||
    (0x2000 ≤ code && code ≤ 0x200a) || code == 0x2028 || code == 0x2029 || code == 0x202f ||
    code == 0x205f || code == 0x3000

/-- `strings.TrimSpace`. -/
def trimSpace (text : String) : String :=
  String.ofList ((text.toList.dropWhile isSpace).reverse.dropWhile isSpace).reverse

theorem dropWhile_isSpace {text : List Char} (clean : ∀ c ∈ text, isSpace c = false) :
    text.dropWhile isSpace = text := by
  cases text with
  | nil => rfl
  | cons c rest => rw [List.dropWhile_cons_of_neg (by rw [clean c List.mem_cons_self]; decide)]

theorem trimSpace_of_clean {text : String} (clean : ∀ c ∈ text.toList, isSpace c = false) :
    trimSpace text = text := by
  rw [trimSpace, dropWhile_isSpace clean, dropWhile_isSpace fun c member =>
    clean c (List.mem_reverse.mp member), List.reverse_reverse, String.ofList_toList]

def hexDigit (value : UInt8) : Char :=
  if value < 10 then Char.ofNat (48 + value.toNat) else Char.ofNat (87 + value.toNat)

def hexPair (byte : UInt8) : List Char := [hexDigit (byte / 16), hexDigit (byte % 16)]

/-- `hex.EncodeToString`. -/
def hexEncode (bytes : Bytes) : String := String.ofList (bytes.flatMap hexPair)

theorem hexDigit_inj : ∀ first second : Fin 16,
    hexDigit (.ofNat first) = hexDigit (.ofNat second) → first = second := by decide

theorem hexPair_inj {first second : UInt8} (same : hexPair first = hexPair second) :
    first = second := by
  have nibble (byte : UInt8) (small : byte.toNat < 16) :
      byte = UInt8.ofNat (Fin.mk byte.toNat small).val := by
    simp
  have high (byte : UInt8) : (byte / 16).toNat < 16 := by
    rw [UInt8.toNat_div]
    exact Nat.div_lt_of_lt_mul byte.toNat_lt
  have low (byte : UInt8) : (byte % 16).toNat < 16 := by
    rw [UInt8.toNat_mod]
    exact Nat.mod_lt _ (by decide)
  simp only [hexPair, List.cons.injEq, and_true] at same
  rw [nibble _ (high first), nibble _ (high second), nibble _ (low first),
    nibble _ (low second)] at same
  have quotients := congrArg Fin.val (hexDigit_inj _ _ same.1)
  have remainders := congrArg Fin.val (hexDigit_inj _ _ same.2)
  simp only [UInt8.toNat_div, UInt8.toNat_mod, UInt8.reduceToNat] at quotients remainders
  exact UInt8.toNat_inj.mp (by omega)

theorem hexEncode_inj {first second : Bytes} (same : hexEncode first = hexEncode second) :
    first = second := by
  have digits : first.flatMap hexPair = second.flatMap hexPair := String.ofList_injective same
  clear same
  induction first generalizing second with
  | nil =>
      cases second with
      | nil => rfl
      | cons byte rest => simp [hexPair] at digits
  | cons byte rest ih =>
      cases second with
      | nil => simp [hexPair] at digits
      | cons other more =>
          simp only [List.flatMap_cons] at digits
          obtain ⟨heads, tails⟩ := List.append_inj digits rfl
          rw [hexPair_inj heads, ih tails]

/-- The last separator splits a string uniquely. -/
theorem separated_inj {separator : UInt8} {first second rest tail : Bytes}
    (clean : separator ∉ rest) (other : separator ∉ tail)
    (same : first ++ separator :: rest = second ++ separator :: tail) :
    first = second ∧ rest = tail := by
  induction first generalizing second with
  | nil =>
      cases second with
      | nil => exact ⟨rfl, List.tail_eq_of_cons_eq same⟩
      | cons byte more =>
          have := List.tail_eq_of_cons_eq same
          exact absurd (by rw [this]; simp) clean
  | cons byte more ih =>
      cases second with
      | nil =>
          have := List.tail_eq_of_cons_eq same
          exact absurd (by rw [← this]; simp) other
      | cons head remaining =>
          obtain ⟨rfl, tails⟩ := List.cons.inj same
          obtain ⟨rfl, rests⟩ := ih tails
          exact ⟨rfl, rests⟩

/-- An ASCII character is its own encoding. -/
theorem zero_notMem_utf8 {text : String} (ascii : ∀ c ∈ text.toList, 0 < c.toNat ∧ c.toNat < 128) :
    (0 : UInt8) ∉ utf8 text := by
  simp only [utf8, List.mem_flatMap, not_exists, not_and]
  intro c member zero
  obtain ⟨positive, small⟩ := ascii c member
  have single : c.val.toNat ≤ 0x7f := Nat.le_of_lt_succ small
  rw [String.utf8EncodeChar, if_pos single, List.mem_singleton] at zero
  have value := congrArg UInt8.toNat zero
  rw [UInt8.toNat_ofNat', Nat.mod_eq_of_lt (Nat.lt_of_le_of_lt single (by decide))] at value
  exact absurd value.symm (Nat.ne_of_gt positive)

end ModelGate.Data
