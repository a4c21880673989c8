import ModelGate.Data.Text

/-! Universally unique identifiers as a `uuid` column reads them.

The reader takes two hexadecimal digits for each byte, lets a hyphen follow
every second byte but the last, and allows braces around the whole.
-/

set_option autoImplicit false

namespace ModelGate.Data

def hexValue (c : Char) : Option UInt8 :=
  if '0' ≤ c ∧ c ≤ '9' then some (.ofNat (c.toNat - 48))
  else if 'a' ≤ c ∧ c ≤ 'f' then some (.ofNat (c.toNat - 87))
  else if 'A' ≤ c ∧ c ≤ 'F' then some (.ofNat (c.toNat - 55))
  else none

def skipHyphen : List Char → List Char
  | '-' :: rest => rest
  | text => text

/-- The loop over the bytes, by the bytes left, with what follows the last one. -/
def uuidBytes : Nat → List Char → Option (Bytes × List Char)
  | 0, text => some ([], text)
  | left + 1, high :: low :: text => do
      let first ← hexValue high
      let second ← hexValue low
      let text := if left % 2 = 0 ∧ 0 < left then skipHyphen text else text
      let (bytes, text) ← uuidBytes left text
      pure ((first * 16 + second) :: bytes, text)
  | _ + 1, _ => none

def parseUUID (text : String) : Option Bytes :=
  match text.toList with
  | '{' :: text =>
      match uuidBytes 16 text with
      | some (bytes, ['}']) => some bytes
      | _ => none
  | text =>
      match uuidBytes 16 text with
      | some (bytes, []) => some bytes
      | _ => none

/-- The usual five groups. -/
def formatUUID (bytes : Bytes) : String :=
  let group (start stop : Nat) : String := hexEncode (bytes.extract start stop)
  group 0 4 ++ "-" ++ group 4 6 ++ "-" ++ group 6 8 ++ "-" ++ group 8 10 ++ "-" ++ group 10 16

/-! Reading back what was written -/

theorem hexValue_hexDigit : ∀ value : Fin 16, hexValue (hexDigit (.ofNat value)) =
    some (.ofNat value) := by
  decide

theorem hexDigit_plain : ∀ value : Fin 16, hexDigit (.ofNat value) ≠ '-' ∧
    hexDigit (.ofNat value) ≠ '{' := by
  decide

section Byte

variable (byte : UInt8)

theorem high_ofNat : ∃ value : Fin 16, byte / 16 = .ofNat value := by
  have small : (byte / 16).toNat < 16 := by
    rw [UInt8.toNat_div]
    exact Nat.div_lt_of_lt_mul byte.toNat_lt
  exact ⟨⟨_, small⟩, UInt8.ofNat_toNat.symm⟩

theorem low_ofNat : ∃ value : Fin 16, byte % 16 = .ofNat value := by
  have small : (byte % 16).toNat < 16 := by
    rw [UInt8.toNat_mod]
    exact Nat.mod_lt _ (by decide)
  exact ⟨⟨_, small⟩, UInt8.ofNat_toNat.symm⟩

@[simp] theorem hexValue_high : hexValue (hexDigit (byte / 16)) = some (byte / 16) := by
  obtain ⟨value, same⟩ := high_ofNat byte
  rw [same]
  exact hexValue_hexDigit value

@[simp] theorem hexValue_low : hexValue (hexDigit (byte % 16)) = some (byte % 16) := by
  obtain ⟨value, same⟩ := low_ofNat byte
  rw [same]
  exact hexValue_hexDigit value

theorem byte_halves : byte / 16 * 16 + byte % 16 = byte := by
  apply UInt8.toNat_inj.mp
  have bound := byte.toNat_lt
  simp only [UInt8.toNat_add, UInt8.toNat_mul, UInt8.toNat_div, UInt8.toNat_mod, UInt8.reduceToNat]
  omega

end Byte

theorem uuidBytes_pair (left : Nat) (byte : UInt8) {text : List Char}
    (close : left % 2 = 1 ∨ left = 0 ∨ text.head? ≠ some '-') :
    uuidBytes (left + 1) (hexPair byte ++ text) = (uuidBytes left text).map
      fun (bytes, rest) => (byte :: bytes, rest) := by
  have kept : (if left % 2 = 0 ∧ 0 < left then skipHyphen text else text) = text := by
    split
    · rename_i even
      have other : text.head? ≠ some '-' := by
        rcases close with odd | zero | other
        · omega
        · omega
        · exact other
      unfold skipHyphen
      split
      · exact absurd rfl other
      · rfl
    · rfl
  simp only [hexPair, List.cons_append, List.nil_append, uuidBytes, hexValue_high, hexValue_low,
    Option.bind_eq_bind, Option.bind_some, kept, byte_halves]
  cases uuidBytes left text with
  | none => rfl
  | some found => rfl

theorem uuidBytes_hyphen (left : Nat) (byte : UInt8) (text : List Char) (even : left % 2 = 0)
    (more : 0 < left) :
    uuidBytes (left + 1) (hexPair byte ++ '-' :: text) = (uuidBytes left text).map
      fun (bytes, rest) => (byte :: bytes, rest) := by
  simp only [hexPair, List.cons_append, List.nil_append, uuidBytes, hexValue_high, hexValue_low,
    Option.bind_eq_bind, Option.bind_some, even, more, and_self, if_true, skipHyphen, byte_halves]
  cases uuidBytes left text with
  | none => rfl
  | some found => rfl

theorem hexPair_head (byte : UInt8) (text : List Char) :
    (hexPair byte ++ text).head? ≠ some '-' := by
  obtain ⟨value, same⟩ := high_ofNat byte
  rw [hexPair, List.cons_append, List.head?_cons, same]
  exact fun hyphen => (hexDigit_plain value).1 (Option.some.inj hyphen)

theorem parseUUID_unbraced {text : String} {head : Char} {rest : List Char} {bytes : Bytes}
    (spelled : text.toList = head :: rest) (plain : head ≠ '{')
    (read : uuidBytes 16 (head :: rest) = some (bytes, [])) : parseUUID text = some bytes := by
  unfold parseUUID
  rw [spelled]
  split
  · rename_i same
    exact absurd (List.cons.inj same).1 plain
  · rw [read]

theorem parseUUID_formatUUID {bytes : Bytes} (size : bytes.length = 16) :
    parseUUID (formatUUID bytes) = some bytes := by
  match bytes, size with
  | [b0, b1, b2, b3, b4, b5, b6, b7, b8, b9, b10, b11, b12, b13, b14, b15], _ =>
      obtain ⟨value, same⟩ := high_ofNat b0
      have spelled : (formatUUID [b0, b1, b2, b3, b4, b5, b6, b7, b8, b9, b10, b11, b12, b13, b14,
              b15]).toList = hexPair b0 ++
          (hexPair b1 ++ (hexPair b2 ++
              (hexPair b3 ++ '-' ::
              (hexPair b4 ++ (hexPair b5 ++ '-' ::
              (hexPair b6 ++ (hexPair b7 ++ '-' ::
              (hexPair b8 ++ (hexPair b9 ++ '-' ::
              (hexPair b10 ++ (hexPair b11 ++
              (hexPair b12 ++ (hexPair b13 ++
              (hexPair b14 ++ (hexPair b15 ++ []))))))))))))))) := by
        simp [formatUUID, hexEncode, hexPair]
      refine parseUUID_unbraced spelled (same ▸ (hexDigit_plain value).2) ?_
      change uuidBytes 16 (hexPair b0 ++ _) = _
      simp only [uuidBytes_hyphen, uuidBytes_pair, hexPair_head, uuidBytes, ne_eq,
        not_false_eq_true, or_true, true_or, Nat.reduceMod, Nat.reduceLT, Option.map_some,
        Nat.reduceEqDiff]

end ModelGate.Data
