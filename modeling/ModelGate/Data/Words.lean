import Mathlib.Data.List.Basic
import Mathlib.Data.List.Chain

/-! The words of a text, and when single spaces between them give it back. -/

set_option autoImplicit false

namespace ModelGate.Data

variable {α : Type} (blank : α → Bool)

/-- `strings.Fields`: the pieces between runs of blanks. -/
def fields (text : List α) : List (List α) := (text.splitOnP blank).filter (!·.isEmpty)

/-- The only blank that occurs is `space`, and no two blanks are neighbours. -/
def SingleSpaced (space : α) (text : List α) : Prop :=
  (∀ c ∈ text, blank c = true → c = space) ∧ text.IsChain fun first second => blank first = true →
    blank second = false

instance [DecidableEq α] (space : α) (text : List α) : Decidable (SingleSpaced blank space text) :=
  inferInstanceAs (Decidable (_ ∧ _))

/-- A text neither starts nor ends with a blank. -/
structure Trimmed (text : List α) : Prop where
  front : ∀ c ∈ text.head?, blank c = false
  back : ∀ c ∈ text.getLast?, blank c = false

variable {blank}

theorem fields_append_cons {sep : α} (breaks : blank sep = true) (before after : List α) :
    fields blank (before ++ sep :: after) = fields blank before ++ fields blank after := by
  rw [fields, List.splitOnP_append_cons before after breaks, List.filter_append]
  rfl

theorem fields_word {word : List α} (nonempty : word ≠ []) (solid : ∀ c ∈ word, blank c = false) :
    fields blank word = [word] := by
  rw [fields, List.splitOnP_eq_singleton solid]
  simp [nonempty]

theorem fields_ne_nil {x : α} (solid : blank x = false) (xs : List α) :
    fields blank (x :: xs) ≠ [] := by
  obtain ⟨first, others, split⟩ := List.exists_cons_of_ne_nil (List.splitOnP_ne_nil blank xs)
  rw [fields, List.splitOnP_cons_eq_if_modifyHead, if_neg (by rw [solid]; decide), split,
    List.modifyHead_cons]
  simp

theorem solid_of_mem_splitOnP {text word : List α} (piece : word ∈ text.splitOnP blank) :
    ∀ c ∈ word, blank c = false := by
  induction text generalizing word with
  | nil =>
      rw [List.splitOnP_nil, List.mem_singleton] at piece
      simp [piece]
  | cons x xs ih =>
      obtain ⟨first, others, split⟩ := List.exists_cons_of_ne_nil (List.splitOnP_ne_nil blank xs)
      rw [split] at ih
      rw [List.splitOnP_cons_eq_if_modifyHead, split] at piece
      split_ifs at piece with breaks
      · rcases List.mem_cons.mp piece with rfl | later
        · exact List.forall_mem_nil _
        · exact ih later
      · rw [List.modifyHead_cons] at piece
        rcases List.mem_cons.mp piece with rfl | later
        · exact List.forall_mem_cons.mpr ⟨Bool.not_eq_true _ ▸ breaks, ih List.mem_cons_self⟩
        · exact ih (List.mem_cons_of_mem _ later)

theorem mem_fields {text word : List α} (member : word ∈ fields blank text) :
    word ≠ [] ∧ ∀ c ∈ word, blank c = false := by
  obtain ⟨piece, nonempty⟩ := List.mem_filter.mp member
  exact ⟨by simpa using nonempty, solid_of_mem_splitOnP piece⟩

theorem intercalate_splitOnP {space : α} {text : List α}
    (only : ∀ c ∈ text, blank c = true → c = space) :
    [space].intercalate (text.splitOnP blank) = text := by
  induction text with
  | nil => rfl
  | cons x xs ih =>
      have rest := ih fun c member => only c (List.mem_cons_of_mem _ member)
      obtain ⟨first, others, split⟩ := List.exists_cons_of_ne_nil (List.splitOnP_ne_nil blank xs)
      rw [split] at rest
      rw [List.splitOnP_cons_eq_if_modifyHead, split]
      split_ifs with breaks
      · rw [List.intercalate_cons_cons, rest, only x List.mem_cons_self breaks]
        rfl
      · cases others with
        | nil => simpa using rest
        | cons second later =>
            rw [List.intercalate_cons_cons] at rest
            rw [List.modifyHead_cons, List.intercalate_cons_cons, ← rest]
            rfl

theorem nil_notMem_tail_splitOnP {text : List α}
    (alone : text.IsChain fun first second => blank first = true → blank second = false)
    (back : ∀ c ∈ text.getLast?, blank c = false) : [] ∉ (text.splitOnP blank).tail := by
  induction text with
  | nil => simp
  | cons x xs ih =>
      cases xs with
      | nil =>
          have solid : blank x = false := back x rfl
          simp [List.splitOnP_cons_eq_if_modifyHead, solid]
      | cons y ys =>
          rw [List.isChain_cons_cons] at alone
          have later := ih alone.2 fun c last => back c (by rwa [List.getLast?_cons_cons])
          obtain ⟨first, others, split⟩ :=
            List.exists_cons_of_ne_nil (List.splitOnP_ne_nil blank (y :: ys))
          rw [split, List.tail_cons] at later
          rw [List.splitOnP_cons_eq_if_modifyHead, split]
          split_ifs with breaks
          · -- The piece after a blank starts with the character behind it, which is none.
            rw [List.splitOnP_cons_eq_if_modifyHead,
              if_neg (by rw [alone.1 breaks]; decide)] at split
            obtain ⟨start, more, inner⟩ :=
              List.exists_cons_of_ne_nil (List.splitOnP_ne_nil blank ys)
            rw [inner, List.modifyHead_cons, List.cons.injEq] at split
            rw [List.tail_cons, ← split.1]
            simpa using later
          · exact later

theorem fields_of_singleSpaced {space : α} {text : List α} (nonempty : text ≠ [])
    (trimmed : Trimmed blank text) (spaced : SingleSpaced blank space text) :
    fields blank text = text.splitOnP blank := by
  have tail := nil_notMem_tail_splitOnP spaced.2 trimmed.back
  cases text with
  | nil => exact absurd rfl nonempty
  | cons x xs =>
      have solid : ¬blank x = true := by rw [trimmed.front x rfl]; decide
      obtain ⟨first, others, split⟩ := List.exists_cons_of_ne_nil (List.splitOnP_ne_nil blank xs)
      rw [fields, List.filter_eq_self]
      rw [List.splitOnP_cons_eq_if_modifyHead, if_neg solid, split, List.modifyHead_cons] at tail ⊢
      intro piece member
      rcases List.mem_cons.mp member with rfl | later
      · rfl
      · have : piece ≠ [] := fun empty => tail (empty ▸ later)
        simpa using this

theorem isChain_of_solid {word : List α} (solid : ∀ c ∈ word, blank c = false) :
    word.IsChain fun first second => blank first = true → blank second = false := by
  apply List.Pairwise.isChain
  apply List.pairwise_of_forall_mem_list
  intro first _ second member _
  exact solid second member

theorem intercalate_cons_flatMap (space : α) (word : List α) (words : List (List α)) :
    [space].intercalate (word :: words) = word ++ words.flatMap (space :: ·) := by
  induction words generalizing word with
  | nil => simp
  | cons second rest ih =>
      rw [List.intercalate_cons_cons, ih, List.append_assoc, List.flatMap_cons]
      rfl

theorem intercalate_concat_flatMap (space : α) (words : List (List α)) (word : List α) :
    [space].intercalate (words ++ [word]) = words.flatMap (· ++ [space]) ++ word := by
  induction words with
  | nil => simp
  | cons first rest ih =>
      rw [List.cons_append, List.intercalate_cons_of_ne_nil (by simp), ih, List.flatMap_cons,
        ← List.append_assoc]

theorem singleSpaced_intercalate {space : α} {words : List (List α)}
    (solid : ∀ word ∈ words, word ≠ [] ∧ ∀ c ∈ word, blank c = false) :
    SingleSpaced blank space ([space].intercalate words) ∧
      ∀ c ∈ ([space].intercalate words).head?, blank c = false := by
  induction words with
  | nil => exact ⟨⟨by simp, by simp⟩, by simp⟩
  | cons word rest ih =>
      obtain ⟨⟨nonempty, letters⟩, others⟩ := List.forall_mem_cons.mp solid
      obtain ⟨⟨only, chain⟩, front⟩ := ih others
      obtain ⟨letter, more, rfl⟩ := List.exists_cons_of_ne_nil nonempty
      cases rest with
      | nil =>
          rw [List.intercalate_singleton]
          refine ⟨⟨fun c member breaks => ?_, isChain_of_solid letters⟩, fun c first => ?_⟩
          · rw [letters c member] at breaks
            cases breaks
          · exact letters c (List.mem_of_mem_head? first)
      | cons second later =>
          rw [List.intercalate_cons_cons, List.append_assoc, List.singleton_append]
          refine ⟨⟨fun c member breaks => ?_, ?_⟩, fun c first => ?_⟩
          · rcases List.mem_append.mp member with inside | behind
            · rw [letters c inside] at breaks
              cases breaks
            · rcases List.mem_cons.mp behind with same | inside
              · exact same
              · exact only c inside breaks
          · have behind :=
              List.isChain_cons.mpr ⟨fun c first (_ : blank space = true) => front c first, chain⟩
            refine List.isChain_append.mpr ⟨isChain_of_solid letters, behind,
              fun c last _ _ breaks => ?_⟩
            rw [letters c (List.mem_of_getLast? last)] at breaks
            cases breaks
          · exact letters c (List.mem_of_mem_head? (by simpa using first))

/-- Joining the words of a trimmed text with single spaces gives it back exactly when it is
single spaced. -/
theorem intercalate_fields_iff {space : α} {text : List α} (nonempty : text ≠ [])
    (trimmed : Trimmed blank text) :
    [space].intercalate (fields blank text) = text ↔ SingleSpaced blank space text := by
  constructor
  · intro same
    rw [← same]
    exact (singleSpaced_intercalate fun word member => mem_fields member).1
  · intro spaced
    rw [fields_of_singleSpaced nonempty trimmed spaced]
    exact intercalate_splitOnP spaced.1

theorem trimmed_dropWhile (text : List α) :
    Trimmed blank ((text.dropWhile blank).reverse.dropWhile blank).reverse := by
  have solidHead (other : List α) : ∀ c ∈ (other.dropWhile blank).head?, blank c = false := by
    intro c first
    have kept := List.head?_dropWhile_not blank other
    rw [Option.mem_def.mp first] at kept
    exact kept
  constructor
  · intro c first
    apply solidHead text c
    have shorter : ((text.dropWhile blank).reverse.dropWhile blank).reverse <+:
        text.dropWhile blank := by
      rw [← List.reverse_suffix, List.reverse_reverse]
      exact List.dropWhile_suffix _
    obtain ⟨rest, whole⟩ := shorter
    rw [← whole, List.head?_append_of_ne_nil]
    · exact first
    · intro empty
      rw [empty] at first
      cases first
  · intro c last
    rw [List.getLast?_reverse] at last
    exact solidHead _ c last

end ModelGate.Data
