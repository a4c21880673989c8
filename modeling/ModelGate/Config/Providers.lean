import ModelGate.Config.Values
import ModelGate.Data.Padding
import ModelGate.Data.Words
import ModelGate.Routing.Router

/-! The `MODEL_PROVIDERS` setting of `internal/config`.

Names, kinds and weights are read from byte strings that need not be valid
UTF-8. `strings.ToLower` beyond ASCII and the verb `%q` are parameters.
-/

set_option autoImplicit false

namespace ModelGate.Config

open Data

inductive ProviderKind where | mock | deepSeek | openAICompatible
  deriving DecidableEq, Repr

def ProviderKind.text : ProviderKind → Bytes
  | .mock => utf8 "mock"
  | .deepSeek => utf8 "deepseek"
  | .openAICompatible => utf8 "openai-compatible"

structure ProviderTarget where
  name : Bytes
  kind : ProviderKind
  weight : Int
  deriving DecidableEq

/-- The parameters of the reader. -/
structure Reading where
  /-- `strings.ToLower` of a text with a byte outside ASCII. -/
  fold : Bytes → Bytes
  /-- The verb `%q`. -/
  quote : Bytes → String

def lowerByte (byte : UInt8) : UInt8 := if 65 ≤ byte ∧ byte ≤ 90 then byte + 32 else byte

def ToLower (reading : Reading) (text : Bytes) : Bytes :=
  if text.all (· < 128) then text.map lowerByte else reading.fold text

def digits (text : Bytes) : Option Nat :=
  if text ≠ [] ∧ text.all (fun byte => 48 ≤ byte && byte ≤ 57) then
    some (text.foldl (fun value byte => value * 10 + (byte.toNat - 48)) 0)
  else none

/-- `strconv.Atoi`: an optional sign, decimal digits, and the range of an `int64`. -/
def Atoi (text : Bytes) : Option Int :=
  let value : Option Int :=
    match text with
    | 43 :: rest => (digits rest).map Int.ofNat
    | 45 :: rest => (digits rest).map fun value => -Int.ofNat value
    | _ => (digits text).map Int.ofNat
  value.filter fun value => decide (-2 ^ 63 ≤ value ∧ value < 2 ^ 63)

def providerKind (reading : Reading) (value : Bytes) : Except String ProviderKind :=
  let kind := ToLower reading (trimSpaceBytes value)
  if kind = ProviderKind.mock.text then .ok .mock
  else if kind = ProviderKind.deepSeek.text then .ok .deepSeek
  else if kind = ProviderKind.openAICompatible.text then .ok .openAICompatible
  else .error "type must be one of \"mock\", \"deepseek\", or \"openai-compatible\""

def nameByte (byte : UInt8) : Bool :=
  (97 ≤ byte && byte ≤ 122) || (65 ≤ byte && byte ≤ 90) || (48 ≤ byte && byte ≤ 57) || byte == 46 ||
    byte == 95 || byte == 45

/-- A byte outside ASCII is part of a character the loop rejects. -/
def validProviderName (value : Bytes) : Bool :=
  if value = [] ∨ value.length > 64 then false else value.all nameByte

def entryError (index : Nat) (message : String) : String :=
  "MODEL_PROVIDERS entry " ++ toString (index + 1) ++ " " ++ message

/-- The loop over the entries, with the names read so far. -/
def collect (reading : Reading) :
    Nat → List Bytes → List Bytes → List ProviderTarget → Except String (List ProviderTarget)
  | _, [], _, targets => .ok targets
  | index, part :: parts, names, targets =>
      match (trimSpaceBytes part).splitOn 58 with
      | [first, second, third] =>
          let name := trimSpaceBytes first
          if validProviderName name = false then .error (entryError index "has an invalid name")
          else if name ∈ names then
            .error ("MODEL_PROVIDERS provider name " ++ reading.quote name ++ " is duplicated")
          else
            match providerKind reading (trimSpaceBytes second) with
            | .error message => .error (entryError index message)
            | .ok kind =>
                match Atoi (trimSpaceBytes third) with
                | none => .error (entryError index "weight must be between 1 and 100")
                | some weight =>
                    if weight ≤ 0 ∨ weight > 100 then
                      .error (entryError index "weight must be between 1 and 100")
                    else collect reading (index + 1) parts (name :: names)
                      (targets ++ [⟨name, kind, weight⟩])
      | _ => .error (entryError index "must use name:type:weight")

def providerTargets (source : Source) (reading : Reading) (legacyProvider : Bytes) :
    Except String (List ProviderTarget) :=
  let raw := trimSpaceBytes (source.Getenv "MODEL_PROVIDERS")
  if raw = [] then
    match providerKind reading legacyProvider with
    | .error message => .error ("MODEL_PROVIDER " ++ message)
    | .ok kind => .ok [⟨kind.text, kind, 1⟩]
  else collect reading 0 (raw.splitOn 44) [] []

/-! What the loop accepts -/

structure Reads (reading : Reading) (part : Bytes) (target : ProviderTarget) : Prop where
  fields : ∃ first second third, (trimSpaceBytes part).splitOn 58 = [first, second, third] ∧
    trimSpaceBytes first = target.name ∧
    providerKind reading (trimSpaceBytes second) = .ok target.kind ∧
    Atoi (trimSpaceBytes third) = some target.weight
  name : validProviderName target.name = true
  weight : 1 ≤ target.weight ∧ target.weight ≤ 100

theorem collect_cons_ok_iff {reading : Reading} {part : Bytes} {parts : List Bytes} {index : Nat}
    {names : List Bytes} {targets result : List ProviderTarget} :
    collect reading index (part :: parts) names targets = .ok result ↔
    ∃ target, Reads reading part target ∧ target.name ∉ names ∧
    collect reading (index + 1) parts (target.name :: names) (targets ++ [target]) =
      .ok result := by
  constructor
  -- Each split is one check of the loop body, in the order of the source.
  · intro collected
    rw [collect] at collected
    split at collected
    · rename_i first second third fields
      dsimp only at collected
      split at collected
      · cases collected
      · rename_i valid
        split at collected
        · cases collected
        · rename_i fresh
          split at collected
          · cases collected
          · rename_i kind known
            split at collected
            · cases collected
            · rename_i weight read
              split at collected
              · cases collected
              · rename_i inside
                refine ⟨⟨trimSpaceBytes first, kind, weight⟩,
                  ⟨⟨first, second, third, fields, rfl, known, read⟩, ?_, ?_⟩, fresh, collected⟩
                · simpa using valid
                · dsimp only
                  omega
    · cases collected
  · rintro ⟨target, ⟨⟨first, second, third, fields, named, known, read⟩, valid, weight⟩, fresh,
      collected⟩
    rw [collect, fields]
    dsimp only
    rw [named, if_neg (by rw [valid]; decide), if_neg fresh, known]
    dsimp only
    rw [read]
    dsimp only
    rw [if_neg (by omega)]
    exact collected

theorem collect_ok_iff {reading : Reading} {parts : List Bytes} {index : Nat} {names : List Bytes}
    {targets result : List ProviderTarget} :
    collect reading index parts names targets = .ok result ↔
      ∃ added, result = targets ++ added ∧ List.Forall₂ (Reads reading) parts added ∧
        (added.map ProviderTarget.name).Nodup ∧ ∀ target ∈ added, target.name ∉ names := by
  induction parts generalizing index names targets with
  | nil =>
      rw [collect, Except.ok.injEq]
      constructor
      · rintro rfl
        exact ⟨[], (List.append_nil _).symm, .nil, List.nodup_nil, List.forall_mem_nil _⟩
      · rintro ⟨added, rfl, each, -, -⟩
        cases each
        exact (List.append_nil _).symm
  | cons part parts ih =>
      rw [collect_cons_ok_iff]
      constructor
      · rintro ⟨target, reads, fresh, collected⟩
        obtain ⟨added, rfl, each, distinct, new⟩ := ih.mp collected
        refine ⟨target :: added, by simp, .cons reads each, ?_, ?_⟩
        · rw [List.map_cons, List.nodup_cons]
          refine ⟨fun member => ?_, distinct⟩
          obtain ⟨other, inside, same⟩ := List.mem_map.mp member
          exact new other inside (same ▸ List.mem_cons_self)
        -- The names seen so far grow by the name of the entry that was read.
        · refine List.forall_mem_cons.mpr ⟨fresh, fun other inside old => ?_⟩
          exact new other inside (List.mem_cons_of_mem _ old)
      · rintro ⟨added, rfl, each, distinct, new⟩
        cases each with
        | cons reads each =>
            rename_i target added
            rw [List.map_cons, List.nodup_cons] at distinct
            obtain ⟨fresh, others⟩ := List.forall_mem_cons.mp new
            refine ⟨target, reads, fresh,
              ih.mpr ⟨added, by simp, each, distinct.2, fun other inside => ?_⟩⟩
            rw [List.mem_cons, not_or]
            refine ⟨fun same => distinct.1 (same ▸ List.mem_map_of_mem inside), others other inside⟩

/-! Entries as they may be written -/

abbrev Blank := { text : Bytes // Run encodedSpaces text }

structure Padding where
  before : Blank
  after : Blank

def Padding.around (padding : Padding) (core : Bytes) : Bytes :=
  padding.before.1 ++ core ++ padding.after.1

def decimal (value : Nat) : Bytes := utf8 (toString value)

/-- A target with the spaces around the fields of its entry. -/
structure Entry where
  target : ProviderTarget
  name : Padding
  kind : Padding
  weight : Padding

def Entry.text (entry : Entry) : Bytes :=
  [58].intercalate [entry.name.around entry.target.name, entry.kind.around entry.target.kind.text,
    entry.weight.around (decimal entry.target.weight.toNat)]

def joined (entries : List Entry) : Bytes := [44].intercalate (entries.map Entry.text)

structure ProviderTarget.Valid (target : ProviderTarget) : Prop where
  nonempty : 1 ≤ target.name.length
  short : target.name.length ≤ 64
  characters : ∀ byte ∈ target.name, nameByte byte = true
  light : 1 ≤ target.weight
  heavy : target.weight ≤ 100

theorem validProviderName_iff (name : Bytes) : validProviderName name = true ↔
    1 ≤ name.length ∧ name.length ≤ 64 ∧ ∀ byte ∈ name, nameByte byte = true := by
  unfold validProviderName
  split
  · rename_i rejected
    rcases rejected with rfl | long
    · simp
    · simp
      omega
  · rename_i accepted
    rw [not_or] at accepted
    have nonempty := List.length_pos_iff.mpr accepted.1
    rw [List.all_eq_true]
    constructor
    · intro each
      exact ⟨nonempty, by omega, each⟩
    · exact fun valid => valid.2.2

/-- What a field may hold: visible characters other than the separators. -/
def Plain (text : Bytes) : Prop :=
  text ≠ [] ∧ ∀ byte ∈ text, visible byte = true ∧ byte ≠ 44 ∧ byte ≠ 58

instance (text : Bytes) : Decidable (Plain text) := inferInstanceAs (Decidable (_ ∧ _))

theorem Plain.solid {text : Bytes} (plain : Plain text) : Solid text :=
  solid_of_visible plain.1 fun byte member => (plain.2 byte member).1

theorem plain_name {target : ProviderTarget} (valid : target.Valid) : Plain target.name := by
  have each (byte : UInt8) (named : nameByte byte = true) : visible byte = true ∧ byte ≠ 44 ∧
      byte ≠ 58 := by
    simp only [nameByte, visible, Bool.or_eq_true, Bool.and_eq_true, decide_eq_true_eq, beq_iff_eq,
      UInt8.le_iff_toNat_le, UInt8.lt_iff_toNat_lt, ne_eq, ← UInt8.toNat_inj,
      UInt8.reduceToNat] at named ⊢
    omega
  have nonempty := valid.nonempty
  exact ⟨List.length_pos_iff.mp nonempty, fun byte member =>
    each byte (valid.characters byte member)⟩

theorem plain_kind (kind : ProviderKind) : Plain kind.text := by
  cases kind <;> decide +kernel

theorem providerKind_text (reading : Reading) (kind : ProviderKind) :
    providerKind reading kind.text = .ok kind := by
  cases kind <;> rfl

theorem decimal_weight : ∀ value : Fin 101, 1 ≤ value.val →
    Plain (decimal value) ∧ Atoi (decimal value) = some (value.val : Int) := by
  decide +kernel

theorem decimal_valid {target : ProviderTarget} (valid : target.Valid) :
    Plain (decimal target.weight.toNat) ∧
    Atoi (decimal target.weight.toNat) = some target.weight := by
  have light := valid.light
  have heavy := valid.heavy
  have whole : (target.weight.toNat : Int) = target.weight := Int.toNat_of_nonneg (by omega)
  have read := decimal_weight ⟨target.weight.toNat, by omega⟩ (by dsimp only; omega)
  rwa [whole] at read

theorem blank_clean (blank : Blank) : (44 : UInt8) ∉ blank.1 ∧ (58 : UInt8) ∉ blank.1 := by
  constructor <;> exact fun member => absurd (run_invisible blank.2 _ member) (by decide)

theorem around_clean (padding : Padding) {core : Bytes} (plain : Plain core) :
    (44 : UInt8) ∉ padding.around core ∧ (58 : UInt8) ∉ padding.around core := by
  have before := blank_clean padding.before
  have after := blank_clean padding.after
  simp only [Padding.around, List.mem_append, not_or]
  exact ⟨⟨⟨before.1, fun member => (plain.2 _ member).2.1 rfl⟩, after.1⟩,
    ⟨before.2, fun member => (plain.2 _ member).2.2 rfl⟩, after.2⟩

theorem trim_around (padding : Padding) {core : Bytes} (plain : Plain core) :
    trimSpaceBytes (padding.around core) = core :=
  trimSpaceBytes_padded padding.before.2 padding.after.2 plain.solid

def Blank.none : Blank := ⟨[], run_nil _⟩

namespace Entry

def openFront (entry : Entry) : Entry := { entry with name := ⟨.none, entry.name.after⟩ }

def closeBack (entry : Entry) : Entry := { entry with weight := ⟨entry.weight.before, .none⟩ }

theorem text_openFront (entry : Entry) :
    entry.text = entry.name.before.1 ++ entry.openFront.text := by
  simp [text, openFront, Padding.around, Blank.none, List.intercalate_cons_cons]

theorem text_closeBack (entry : Entry) :
    entry.text = entry.closeBack.text ++ entry.weight.after.1 := by
  simp [text, closeBack, Padding.around, Blank.none, List.intercalate_cons_cons]

variable {entry : Entry} (valid : entry.target.Valid)
include valid

theorem fields_clean :
    ∀ field ∈ [entry.name.around entry.target.name, entry.kind.around entry.target.kind.text,
      entry.weight.around (decimal entry.target.weight.toNat)], (44 : UInt8) ∉ field ∧
    (58 : UInt8) ∉ field := by
  have name := around_clean entry.name (plain_name valid)
  have kind := around_clean entry.kind (plain_kind entry.target.kind)
  have weight := around_clean entry.weight (decimal_valid valid).1
  simp only [List.forall_mem_cons]
  exact ⟨name, kind, weight, List.forall_mem_nil _⟩

theorem splitOn_text : entry.text.splitOn 58 =
    [entry.name.around entry.target.name, entry.kind.around entry.target.kind.text,
      entry.weight.around (decimal entry.target.weight.toNat)] :=
  List.splitOn_intercalate 58 (fun field member => (fields_clean valid field member).2)
    (List.cons_ne_nil _ _)

theorem comma_notMem_text : (44 : UInt8) ∉ entry.text := by
  have clean := fields_clean valid
  simp only [List.forall_mem_cons] at clean
  simp only [text, List.intercalate_cons_cons, List.intercalate_singleton, List.mem_append,
    List.mem_singleton, not_or]
  exact ⟨⟨clean.1.1, by decide⟩, ⟨clean.2.1.1, by decide⟩, clean.2.2.1.1⟩

theorem front_text : ∃ byte rest, entry.openFront.text = byte :: rest ∧ visible byte = true := by
  obtain ⟨first, more, front, seen⟩ := (plain_name valid).solid.front
  have shape : entry.openFront.text = entry.target.name ++ (entry.name.after.1 ++ [58] ++
      [58].intercalate [entry.kind.around entry.target.kind.text,
        entry.weight.around (decimal entry.target.weight.toNat)]) := by
    simp [text, openFront, Padding.around, Blank.none, List.intercalate_cons_cons]
  rw [front] at shape
  exact ⟨first, _, shape, seen⟩

theorem back_text : ∃ byte rest, entry.closeBack.text.reverse = byte :: rest ∧
    visible byte = true := by
  obtain ⟨last, others, back, shown⟩ := (decimal_valid valid).1.solid.back
  have shape : entry.closeBack.text = entry.name.around entry.target.name ++ [58] ++
      entry.kind.around entry.target.kind.text ++ [58] ++ entry.weight.before.1 ++
        decimal entry.target.weight.toNat := by
    simp [text, closeBack, Padding.around, Blank.none, List.intercalate_cons_cons]
  rw [shape, List.reverse_append, back]
  exact ⟨last, _, rfl, shown⟩

theorem solid_text : Solid entry.openFront.closeBack.text := by
  have closed : entry.closeBack.target.Valid := valid
  have opened : entry.openFront.target.Valid := valid
  exact ⟨front_text closed, back_text opened⟩

theorem trim_text : trimSpaceBytes entry.text = entry.openFront.closeBack.text := by
  have shape : entry.text = entry.name.before.1 ++ entry.openFront.closeBack.text ++
      entry.weight.after.1 := by
    rw [List.append_assoc, text_openFront, text_closeBack entry.openFront]
    rfl
  rw [shape]
  exact trimSpaceBytes_padded entry.name.before.2 entry.weight.after.2 (solid_text valid)

theorem reads (reading : Reading) : Reads reading entry.text entry.target := by
  have bare : entry.openFront.closeBack.target.Valid := valid
  refine ⟨⟨_, _, _, (congrArg (List.splitOn 58) (trim_text valid)).trans (splitOn_text bare), ?_,
    ?_, ?_⟩, ?_, ?_⟩
  · exact trim_around _ (plain_name valid)
  · rw [trim_around _ (plain_kind _)]
    exact providerKind_text reading _
  · rw [trim_around _ (decimal_valid bare).1]
    exact (decimal_valid valid).2
  · exact (validProviderName_iff _).mpr ⟨valid.nonempty, valid.short, valid.characters⟩
  · exact ⟨valid.light, valid.heavy⟩

end Entry

theorem joined_openFront (entry : Entry) (entries : List Entry) :
    joined (entry :: entries) = entry.name.before.1 ++ joined (entry.openFront :: entries) := by
  rw [joined, joined, List.map_cons, List.map_cons, intercalate_cons_flatMap,
    intercalate_cons_flatMap, Entry.text_openFront, List.append_assoc]

theorem joined_closeBack (entries : List Entry) (entry : Entry) :
    joined (entries ++ [entry]) = joined (entries ++ [entry.closeBack]) ++
      entry.weight.after.1 := by
  rw [joined, joined, List.map_append, List.map_append, List.map_singleton, List.map_singleton,
    intercalate_concat_flatMap, intercalate_concat_flatMap, Entry.text_closeBack, List.append_assoc]

theorem trim_joined {entries : List Entry} (nonempty : entries ≠ [])
    (valid : ∀ entry ∈ entries, entry.target.Valid) :
    ∃ trimmed, trimmed.map Entry.target = entries.map Entry.target ∧
    trimSpaceBytes (joined entries) = joined trimmed ∧ joined trimmed ≠ [] := by
  obtain ⟨first, others, rfl⟩ := List.exists_cons_of_ne_nil nonempty
  obtain ⟨init, last, shape⟩ :=
    List.eq_nil_or_concat (first.openFront :: others) |>.resolve_left (List.cons_ne_nil _ _)
  have targets : (init ++ [last]).map Entry.target = (first :: others).map Entry.target := by
    rw [← List.concat_eq_append, ← shape]
    rfl
  have lastValid : last.target.Valid := by
    have member : last.target ∈ (first :: others).map Entry.target := by
      rw [← targets]
      exact List.mem_map_of_mem (by simp)
    obtain ⟨entry, inside, same⟩ := List.mem_map.mp member
    exact same ▸ valid entry inside
  rw [List.concat_eq_append] at shape
  have whole : joined (first.openFront :: others) = joined (init ++ [last.closeBack]) ++
      last.weight.after.1 := by
    rw [shape, joined_closeBack]
  -- Names and weights are not blank, so trimming takes the blanks before the first name and after
  -- the last weight and nothing else.
  have back : ∃ byte rest, (joined (init ++ [last.closeBack])).reverse = byte :: rest ∧
      visible byte = true := by
    obtain ⟨byte, rest, ends, seen⟩ := Entry.back_text lastValid
    refine ⟨byte, rest ++ ((init.map Entry.text).flatMap (· ++ [44])).reverse, ?_, seen⟩
    rw [joined, List.map_append, List.map_singleton, intercalate_concat_flatMap,
      List.reverse_append, ends]
    rfl
  have present : joined (init ++ [last.closeBack]) ≠ [] := by
    obtain ⟨byte, rest, ends, -⟩ := back
    intro empty
    rw [empty] at ends
    cases ends
  have front : ∃ byte rest, joined (init ++ [last.closeBack]) = byte :: rest ∧
      visible byte = true := by
    obtain ⟨byte, rest, starts, seen⟩ := Entry.front_text (valid first List.mem_cons_self)
    obtain ⟨head, tail, some⟩ := List.exists_cons_of_ne_nil present
    rw [some, joined, List.map_cons, intercalate_cons_flatMap, starts] at whole
    exact ⟨head, tail, some, (List.cons.inj whole).1 ▸ seen⟩
  refine ⟨init ++ [last.closeBack], ?_, ?_, present⟩
  · rw [← targets, List.map_append, List.map_append]
    rfl
  · rw [joined_openFront, whole, ← List.append_assoc]
    exact trimSpaceBytes_padded first.name.before.2 last.weight.after.2 ⟨front, back⟩

theorem providerTargets_joined (source : Source) (reading : Reading) (legacyProvider : Bytes)
    {entries : List Entry} (nonempty : entries ≠ []) (valid : ∀ entry ∈ entries, entry.target.Valid)
    (distinct : (entries.map fun entry => entry.target.name).Nodup)
    (written : source.Getenv "MODEL_PROVIDERS" = joined entries) :
    providerTargets source reading legacyProvider = .ok (entries.map Entry.target) := by
  obtain ⟨trimmed, targets, trim, present⟩ := trim_joined nonempty valid
  have trimmedValid : ∀ entry ∈ trimmed, entry.target.Valid := by
    intro entry member
    have target : entry.target ∈ entries.map Entry.target := targets ▸ List.mem_map_of_mem member
    obtain ⟨original, inside, same⟩ := List.mem_map.mp target
    exact same ▸ valid original inside
  have occupied : trimmed.map Entry.text ≠ [] := by
    rintro empty
    rw [joined, empty] at present
    exact present rfl
  have parts : (joined trimmed).splitOn 44 = trimmed.map Entry.text := by
    refine List.splitOn_intercalate 44 (fun text member => ?_) occupied
    obtain ⟨entry, inside, rfl⟩ := List.mem_map.mp member
    exact Entry.comma_notMem_text (trimmedValid entry inside)
  rw [providerTargets, written, trim, if_neg present, parts, collect_ok_iff]
  refine ⟨trimmed.map Entry.target, by rw [targets]; rfl, ?_, ?_, fun _ _ => List.not_mem_nil⟩
  · rw [List.forall₂_map_left_iff, List.forall₂_map_right_iff, List.forall₂_same]
    exact fun entry member => Entry.reads (trimmedValid entry member) reading
  · rw [targets, List.map_map]
    exact distinct

/-! The router over accepted targets -/

/-- A routing target with the configured name and weight. -/
def Built {T : Semantics.Signature} (target : ProviderTarget) (built : Routing.WeightedTarget T) :
    Prop :=
  ∃ provider, built.target = some provider ∧ utf8 provider.name = target.name ∧
    built.weight = target.weight

theorem utf8EncodeChar_visible {c : Char}
    (seen : ∀ byte ∈ String.utf8EncodeChar c, visible byte = true) :
    32 < c.toNat ∧ c.toNat < 127 := by
  have head (value : Nat) (large : 128 ≤ value) (small : value < 256) :
      visible (UInt8.ofNat value) = false := by
    simp only [visible, Bool.and_eq_false_iff, decide_eq_false_iff_not, UInt8.lt_iff_toNat_lt,
      UInt8.toNat_ofNat', UInt8.reduceToNat]
    omega
  -- A character beyond ASCII starts with a byte of 192 or more.
  unfold String.utf8EncodeChar at seen
  dsimp only at seen
  split_ifs at seen with ascii two three
  · have byte := seen _ List.mem_cons_self
    simp only [visible, Bool.and_eq_true, decide_eq_true_eq, UInt8.lt_iff_toNat_lt,
      UInt8.toNat_ofNat', UInt8.reduceToNat] at byte
    have code : c.toNat = c.val.toNat := rfl
    omega
  · exact absurd (seen _ List.mem_cons_self) (by rw [head _ (by omega) (by omega)]; decide)
  · exact absurd (seen _ List.mem_cons_self) (by rw [head _ (by omega) (by omega)]; decide)
  · exact absurd (seen _ List.mem_cons_self) (by rw [head _ (by omega) (by omega)]; decide)

theorem trimSpace_of_visible {name : String} (seen : ∀ byte ∈ utf8 name, visible byte = true) :
    trimSpace name = name := by
  have each : ∀ c ∈ name.toList, isSpace c = false := by
    intro c member
    have range := utf8EncodeChar_visible fun byte inside =>
      seen byte (List.mem_flatMap.mpr ⟨c, member, inside⟩)
    simp only [isSpace, Bool.or_eq_false_iff, Bool.and_eq_false_iff, beq_eq_false_iff_ne,
      decide_eq_false_iff_not]
    omega
  have kept {text : List Char} (none : ∀ c ∈ text, isSpace c = false) : text.dropWhile isSpace =
      text := by
    cases text with
    | nil => rfl
    | cons c rest => rw [List.dropWhile_cons_of_neg (by rw [none c List.mem_cons_self]; decide)]
  rw [trimSpace, kept each, kept fun c member => each c (List.mem_reverse.mp member),
    List.reverse_reverse, String.ofList_toList]

theorem visible_of_valid {target : ProviderTarget} (valid : target.Valid) :
    ∀ byte ∈ target.name, visible byte = true :=
  fun byte member => ((plain_name valid).2 byte member).1

theorem enroll_built {T : Semantics.Signature} (quote : String → String)
    {targets : List ProviderTarget} {built : List (Routing.WeightedTarget T)}
    (each : List.Forall₂ Built targets built) (valid : ∀ target ∈ targets, target.Valid)
    (distinct : (targets.map ProviderTarget.name).Nodup) (names : List String)
    (fresh : ∀ target ∈ targets, ∀ name ∈ names, utf8 name ≠ target.name)
    (states : List (Routing.TargetState T)) :
    ∃ result, Routing.enroll quote built names states = .ok result := by
  induction each generalizing names states with
  | nil => exact ⟨states, rfl⟩
  | @cons target candidate targets built first _ ih =>
      obtain ⟨provider, found, named, weight⟩ := first
      obtain ⟨targetValid, othersValid⟩ := List.forall_mem_cons.mp valid
      obtain ⟨targetFresh, othersFresh⟩ := List.forall_mem_cons.mp fresh
      rw [List.map_cons, List.nodup_cons] at distinct
      have trimmed : trimSpace provider.name = provider.name := by
        apply trimSpace_of_visible
        rw [named]
        exact visible_of_valid targetValid
      have present : provider.name ≠ "" := by
        intro empty
        have nonempty := targetValid.nonempty
        rw [← named, empty] at nonempty
        exact absurd nonempty (by decide)
      have positive := targetValid.light
      have later : ∀ other ∈ targets, ∀ name ∈ provider.name :: names, utf8 name ≠ other.name := by
        intro other inside
        refine List.forall_mem_cons.mpr ⟨fun same => distinct.1 ?_, othersFresh other inside⟩
        rw [← named, same]
        exact List.mem_map_of_mem inside
      rw [Routing.enroll, found]
      dsimp only
      rw [trimmed, if_neg present, if_neg fun old => targetFresh _ old named, if_neg (by omega)]
      exact ih othersValid distinct.2 _ later _

theorem new_built {T : Semantics.Signature} (quote : String → String) {strategy : Routing.Strategy}
    (supported : strategy = .roundRobin ∨ strategy = .weightedRoundRobin)
    {targets : List ProviderTarget}
    {built : List (Routing.WeightedTarget T)} (nonempty : targets ≠ [])
    (each : List.Forall₂ Built targets built)
    (valid : ∀ target ∈ targets, target.Valid)
    (distinct : (targets.map ProviderTarget.name).Nodup) :
    ∃ router, Routing.New quote strategy built = .ok router := by
  have occupied : built ≠ [] := by
    rintro rfl
    cases each
    exact nonempty rfl
  obtain ⟨states, enrolled⟩ := enroll_built quote each valid distinct [] (by simp) []
  refine ⟨⟨strategy, states⟩, ?_⟩
  rcases supported with rfl | rfl <;> simp only [Routing.New, if_neg occupied, enrolled, Except.map]

theorem valid_of_reads {reading : Reading} {part : Bytes} {target : ProviderTarget}
    (reads : Reads reading part target) : target.Valid := by
  obtain ⟨nonempty, short, characters⟩ := (validProviderName_iff _).mp reads.name
  exact ⟨nonempty, short, characters, reads.weight.1, reads.weight.2⟩

theorem providerTargets_accepted {source : Source} {reading : Reading} {legacyProvider : Bytes}
    {targets : List ProviderTarget} (set : trimSpaceBytes (source.Getenv "MODEL_PROVIDERS") ≠ [])
    (accepted : providerTargets source reading legacyProvider = .ok targets) :
    List.Forall₂ (Reads reading) ((trimSpaceBytes (source.Getenv "MODEL_PROVIDERS")).splitOn 44)
      targets ∧ (targets.map ProviderTarget.name).Nodup ∧ ∀ target ∈ targets, target.Valid := by
  rw [providerTargets, if_neg set, collect_ok_iff] at accepted
  obtain ⟨added, rfl, each, distinct, -⟩ := accepted
  refine ⟨each, distinct, ?_⟩
  clear distinct
  generalize (trimSpaceBytes (source.Getenv "MODEL_PROVIDERS")).splitOn 44 = parts at each
  induction each with
  | nil => exact List.forall_mem_nil _
  | cons reads _ ih => exact List.forall_mem_cons.mpr ⟨valid_of_reads reads, ih⟩

/-- Everything written by the grammar is read back as written. Everything accepted has one
target for each entry, all of them valid and with distinct names, and the router takes them.
-/
theorem modelProviders_read (source : Source) (reading : Reading) (legacyProvider : Bytes) :
    (∀ entries : List Entry, entries ≠ [] → (∀ entry ∈ entries, entry.target.Valid) →
      (entries.map fun entry => entry.target.name).Nodup →
      source.Getenv "MODEL_PROVIDERS" = joined entries →
      providerTargets source reading legacyProvider = .ok (entries.map Entry.target)) ∧
    (trimSpaceBytes (source.Getenv "MODEL_PROVIDERS") ≠ [] →
      ∀ targets, providerTargets source reading legacyProvider = .ok targets →
      targets.length = (source.Getenv "MODEL_PROVIDERS").count 44 + 1 ∧
      List.Forall₂ (Reads reading) ((trimSpaceBytes (source.Getenv "MODEL_PROVIDERS")).splitOn 44)
        targets ∧ (targets.map ProviderTarget.name).Nodup ∧ (∀ target ∈ targets, target.Valid) ∧
      ∀ (T : Semantics.Signature) (quote : String → String) (strategy : Routing.Strategy)
        (built : List (Routing.WeightedTarget T)), strategy = .roundRobin ∨
      strategy = .weightedRoundRobin → List.Forall₂ Built targets built →
      ∃ router, Routing.New quote strategy built = .ok router) := by
  refine ⟨fun entries nonempty valid distinct written => ?_, fun set targets accepted => ?_⟩
  · exact providerTargets_joined source reading legacyProvider nonempty valid distinct written
  · obtain ⟨each, distinct, valid⟩ := providerTargets_accepted set accepted
    have entries : targets.length = (source.Getenv "MODEL_PROVIDERS").count 44 + 1 := by
      rw [← each.length_eq, length_splitOn, count_trimSpaceBytes (by decide)]
    refine ⟨entries, each, distinct, valid, fun T quote strategy built supported same => ?_⟩
    have nonempty : targets ≠ [] := List.length_pos_iff.mp (by omega)
    exact new_built quote supported nonempty same valid distinct

end ModelGate.Config
