import Mathlib.Data.Fintype.Basic
import Mathlib.Tactic.FinCases
import ModelGate.Data.Uuid
import ModelGate.Service.Gateway

/-! The identifiers of requests.

`NewRequestID` draws sixteen bytes and overwrites six of their bits. What is
left tells two requests apart wherever the identifier goes: in the header of a
response and in the key of a stored row.
-/

set_option autoImplicit false

namespace ModelGate.Service

open Data

/-- The bits of each byte that a draw decides. -/
def drawnBits : Vector UInt8 16 :=
  #v[0xff, 0xff, 0xff, 0xff, 0xff, 0xff, 0x0f, 0xff, 0x3f, 0xff, 0xff, 0xff, 0xff, 0xff, 0xff, 0xff]

/-- The others, as every identifier has them. -/
def fixedBits : Vector UInt8 16 := #v[0, 0, 0, 0, 0, 0, 0x40, 0, 0x80, 0, 0, 0, 0, 0, 0, 0]

/-- A draw with the version and the variant of a random identifier. -/
def stamped (value : Vector UInt8 16) : Vector UInt8 16 :=
  Vector.ofFn fun i => (value.get i &&& drawnBits.get i) ||| fixedBits.get i

theorem stamped_get (value : Vector UInt8 16) (i : Fin 16) :
    (stamped value).get i = (value.get i &&& drawnBits.get i) ||| fixedBits.get i :=
  Vector.getElem_ofFn i.isLt

theorem and_full (byte : UInt8) : byte &&& 0xff = byte := by
  apply UInt8.toBitVec_inj.mp
  exact BitVec.and_allOnes (x := byte.toBitVec)

/-- The two assignments leave every other byte as it was drawn. -/
theorem formatRequestID_eq (value : Vector UInt8 16) :
    formatRequestID value = formatUUID (stamped value).toList := by
  let first := value.set 6 ((value[6] &&& 0x0f) ||| 0x40)
  have assigned (i : Fin 16) : (first.set 8 ((first[8] &&& 0x3f) ||| 0x80))[i] =
      (stamped value)[i] := by
    have bytes : (stamped value)[i] = (value[i] &&& drawnBits[i]) ||| fixedBits[i] :=
      stamped_get value i
    rw [bytes]
    fin_cases i <;> simp [first, drawnBits, fixedBits, and_full]
  have same : first.set 8 ((first[8] &&& 0x3f) ||| 0x80) = stamped value :=
    Vector.ext fun i bound => assigned ⟨i, bound⟩
  rw [← same]
  rfl

theorem parseUUID_formatRequestID (value : Vector UInt8 16) :
    parseUUID (formatRequestID value) = some (stamped value).toList := by
  rw [formatRequestID_eq]
  exact parseUUID_formatUUID Vector.length_toList

/-! Which draws share an identifier -/

theorem and_drawn {byte drawn fixed : UInt8} (apart : fixed &&& drawn = 0) :
    ((byte &&& drawn) ||| fixed) &&& drawn = byte &&& drawn := by
  have none' : fixed.toBitVec &&& drawn.toBitVec = 0#8 := congrArg UInt8.toBitVec apart
  apply UInt8.toBitVec_inj.mp
  rw [UInt8.toBitVec_and, UInt8.toBitVec_or, UInt8.toBitVec_and, BitVec.and_or_distrib_right, none',
    BitVec.and_assoc, BitVec.and_self, BitVec.or_zero]

theorem bits_apart : ∀ i : Fin 16, fixedBits.get i &&& drawnBits.get i = 0 := by decide

theorem forall_byte {motive : UInt8 → Prop} (each : ∀ value : Fin 256, motive (.ofNat value))
    (byte : UInt8) : motive byte := by
  have found := each ⟨byte.toNat, byte.toNat_lt⟩
  rwa [UInt8.ofNat_toNat] at found

theorem version_bits (byte : UInt8) : ((byte &&& 0x0f) ||| 0x40) / 16 = 4 :=
  forall_byte (motive := fun byte => ((byte &&& 0x0f) ||| 0x40) / 16 = 4) (by decide +kernel) byte

theorem variant_bits (byte : UInt8) : ((byte &&& 0x3f) ||| 0x80) / 64 = 2 :=
  forall_byte (motive := fun byte => ((byte &&& 0x3f) ||| 0x80) / 64 = 2) (by decide +kernel) byte

theorem stamped_eq_iff {value other : Vector UInt8 16} :
    stamped other = stamped value ↔
    ∀ i : Fin 16, other.get i &&& drawnBits.get i = value.get i &&& drawnBits.get i := by
  constructor
  · intro same i
    have bytes : (stamped other).get i = (stamped value).get i := by rw [same]
    rw [stamped_get, stamped_get] at bytes
    rw [← and_drawn (bits_apart i), bytes, and_drawn (bits_apart i)]
  · intro same
    refine Vector.ext fun i bound => ?_
    have bytes := stamped_get other ⟨i, bound⟩
    rw [same ⟨i, bound⟩, ← stamped_get] at bytes
    exact bytes

/-! The characters of an identifier -/

theorem formatUUID_chars {bytes : Bytes} {c : Char} (member : c ∈ (formatUUID bytes).toList) :
    c = '-' ∨ ∃ value : Fin 16, c = hexDigit (.ofNat value) := by
  have digits {bytes : Bytes} (inside : c ∈ (hexEncode bytes).toList) : ∃ value : Fin 16, c =
      hexDigit (.ofNat value) := by
    rw [hexEncode, String.toList_ofList] at inside
    obtain ⟨byte, -, among⟩ := List.mem_flatMap.mp inside
    rcases List.mem_cons.mp among with rfl | last
    · exact (high_ofNat byte).imp fun value same => by rw [same]
    · obtain rfl := List.mem_singleton.mp last
      exact (low_ofNat byte).imp fun value same => by rw [same]
  simp only [formatUUID, String.toList_append, List.mem_append] at member
  have hyphen (inside : c ∈ "-".toList) : c = '-' := by simpa using inside
  rcases member with (((((((first | mark) | second) | mark) | third) | mark) | fourth) | mark) |
    last
  · exact .inr (digits first)
  · exact .inl (hyphen mark)
  · exact .inr (digits second)
  · exact .inl (hyphen mark)
  · exact .inr (digits third)
  · exact .inl (hyphen mark)
  · exact .inr (digits fourth)
  · exact .inl (hyphen mark)
  · exact .inr (digits last)

theorem hexDigit_clean : ∀ value : Fin 16, isSpace (hexDigit (.ofNat value)) = false := by decide

theorem trimSpace_formatRequestID (value : Vector UInt8 16) :
    trimSpace (formatRequestID value) = formatRequestID value := by
  refine trimSpace_of_clean fun c member => ?_
  rw [formatRequestID_eq] at member
  rcases formatUUID_chars member with rfl | ⟨digit, rfl⟩
  · decide
  · exact hexDigit_clean digit

theorem formatRequestID_ne_empty (value : Vector UInt8 16) : formatRequestID value ≠ "" := by
  intro empty
  have read := parseUUID_formatRequestID value
  rw [empty] at read
  cases read

/-- An identifier is read back by a `uuid` column as a random one of version 4, and two
draws share an identifier only if they agree on all but six fixed bits. -/
theorem requestID_identifies (value : Vector UInt8 16) :
    parseUUID (formatRequestID value) = some (stamped value).toList ∧
    (stamped value).get 6 / 16 = 4 ∧ (stamped value).get 8 / 64 = 2 ∧
    (∀ i : Fin 16, (stamped value).get i &&& drawnBits.get i = value.get i &&& drawnBits.get i) ∧
    ∀ other, formatRequestID other = formatRequestID value ↔
      ∀ i : Fin 16, other.get i &&& drawnBits.get i = value.get i &&& drawnBits.get i := by
  refine ⟨parseUUID_formatRequestID value, ?_, ?_, fun i => ?_, fun other => ?_⟩
  · exact (congrArg (· / 16) (stamped_get value 6)).trans (version_bits _)
  · exact (congrArg (· / 64) (stamped_get value 8)).trans (variant_bits _)
  · rw [stamped_get, and_drawn (bits_apart i)]
  · rw [← stamped_eq_iff]
    constructor
    · intro same
      -- The column reads both identifiers, and it reads the same.
      have read := parseUUID_formatRequestID other
      rw [same, parseUUID_formatRequestID value] at read
      exact Vector.toList_inj.mp (Option.some.inj read).symm
    · intro same
      rw [formatRequestID_eq, formatRequestID_eq, same]

end ModelGate.Service
