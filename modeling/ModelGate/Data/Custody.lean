import Mathlib.Data.List.Count
import Mathlib.Data.List.Pairwise
import Mathlib.Data.List.Perm.Basic

/-! A table whose entries are each claimed by exactly one of several holders.

A claim names an entry and its value. The claims of all holders together are
the entries of the table in some order, so no entry is claimed twice or
forgotten, and no claim is out of date.
-/

set_option autoImplicit false

namespace ModelGate.Data

variable {α β : Type}

def entries (table : List β) : List (Nat × β) := table.zipIdx.map Prod.swap

def Custody (claims : List (Nat × β)) (table : List β) : Prop := claims.Perm (entries table)

theorem mem_entries {table : List β} {position : Nat} {value : β} :
    (position, value) ∈ entries table ↔ table[position]? = some value := by
  unfold entries
  rw [List.mem_map]
  constructor
  · rintro ⟨⟨found, index⟩, member, same⟩
    obtain ⟨rfl, rfl⟩ := Prod.mk.inj same
    exact List.mem_zipIdx_iff_getElem?.mp member
  · intro located
    exact ⟨(value, position), List.mem_zipIdx_iff_getElem?.mpr located, rfl⟩

theorem entries_split {before after : List β} {value : β} :
    (entries (before ++ value :: after)).Perm
      ((before.length, value) ::
        (entries before ++ (after.zipIdx (before.length + 1)).map Prod.swap)) := by
  unfold entries
  rw [List.zipIdx_append, List.zipIdx_cons, List.map_append, List.map_cons, Nat.zero_add]
  exact List.perm_middle

theorem entries_map_fst (table : List α) :
    (entries table).map Prod.fst = List.range table.length := by
  rw [entries, List.map_map, List.range_eq_range', ← List.zipIdx_map_snd 0 table]
  rfl

theorem split_at {items : List α} {index : Nat} {item : α} (located : items[index]? = some item) :
    ∃ before after, items = before ++ item :: after ∧ before.length = index ∧
      ∀ next, items.set index next = before ++ next :: after := by
  obtain ⟨bound, rfl⟩ := List.getElem?_eq_some_iff.mp located
  refine ⟨items.take index, items.drop (index + 1), by simp,
    List.length_take_of_le (Nat.le_of_lt bound), fun next => ?_⟩
  rw [List.set_eq_take_append_cons_drop, if_pos bound]

namespace Custody

variable {claims rest : List (Nat × β)} {table : List β} {position : Nat} {value : β}

theorem empty : Custody ([] : List (Nat × β)) [] := List.Perm.refl _

theorem agrees (custody : Custody claims table) (claimed : (position, value) ∈ claims) :
    table[position]? = some value :=
  mem_entries.mp (custody.mem_iff.mp claimed)

theorem claimed (custody : Custody claims table) (located : table[position]? = some value) :
    (position, value) ∈ claims :=
  custody.mem_iff.mpr (mem_entries.mpr located)

theorem perm {other : List (Nat × β)} (custody : Custody claims table) (same : other.Perm claims) :
    Custody other table :=
  same.trans custody

/-- A new entry comes with its claim. -/
theorem issue (custody : Custody claims table) (value : β) :
    Custody ((table.length, value) :: claims) (table ++ [value]) := by
  refine List.Perm.trans (List.Perm.cons _ ?_) entries_split.symm
  rw [List.zipIdx_nil, List.map_nil, List.append_nil]
  exact custody

/-- The holder of an entry may change it. -/
theorem change (custody : Custody ((position, value) :: rest) table) (next : β) :
    Custody ((position, next) :: rest) (table.set position next) := by
  obtain ⟨before, after, rfl, rfl, changed⟩ := split_at (custody.agrees (List.mem_cons_self ..))
  unfold Custody
  rw [changed]
  have others := (custody.trans entries_split).cons_inv
  exact (others.cons _).trans entries_split.symm

theorem countP (custody : Custody claims table) (p : β → Bool) :
    claims.countP (fun claim => p claim.2) = table.countP p := by
  rw [List.Perm.countP_eq _ custody, entries, List.countP_map]
  have values : table.zipIdx.map Prod.fst = table := List.zipIdx_map_fst 0 table
  conv_rhs => rw [← values, List.countP_map]
  rfl

theorem holder_eq {holders : List α} {claim : α → Option (Nat × β)}
    (custody : Custody (holders.filterMap claim) table) {index other : Nat} {first second : α}
    (found : holders[index]? = some first) (located : holders[other]? = some second)
    (position : Nat) {b c : β} (one : claim first = some (position, b))
    (two : claim second = some (position, c)) : index = other := by
  have names : (holders.filterMap fun holder => (claim holder).map Prod.fst).Nodup := by
    have numbers := (custody.map Prod.fst).nodup_iff.mpr
      ((entries_map_fst table).symm ▸ List.nodup_range)
    rwa [List.map_filterMap] at numbers
  obtain ⟨bound, rfl⟩ := List.getElem?_eq_some_iff.mp found
  obtain ⟨limit, rfl⟩ := List.getElem?_eq_some_iff.mp located
  have apart := List.pairwise_iff_getElem.mp (List.pairwise_filterMap.mp names)
  rcases Nat.lt_trichotomy index other with less | same | more
  · exact absurd rfl (apart index other bound limit less position (by rw [one]; rfl) position
      (by rw [two]; rfl))
  · exact same
  · exact absurd rfl (apart other index limit bound more position (by rw [two]; rfl) position
      (by rw [one]; rfl))

section Transfer

variable {left right left' right' mine yours : List (Nat × β)}

/-- Claims pass between two groups of holders. -/
theorem transfer {kept passed kept' passed' : List (Nat × β)}
    (custody : Custody (left ++ right) table) (first : left.Perm (kept ++ mine))
    (first' : left'.Perm (kept' ++ mine)) (second : right.Perm (passed ++ yours))
    (second' : right'.Perm (passed' ++ yours)) (same : (kept ++ passed).Perm (kept' ++ passed')) :
    Custody (left' ++ right') table := by
  have arrange (a b c d : List (Nat × β)) : (a ++ b ++ (c ++ d)).Perm (a ++ c ++ (b ++ d)) := by
    rw [List.append_assoc, List.append_assoc]
    apply List.Perm.append_left
    rw [← List.append_assoc, ← List.append_assoc]
    exact List.Perm.append_right _ List.perm_append_comm
  apply custody.perm
  refine (first'.append second').trans ((arrange _ _ _ _).trans ?_)
  refine List.Perm.trans ?_ ((arrange _ _ _ _).symm.trans (first.append second).symm)
  exact same.symm.append_right _

theorem transfer_change (custody : Custody (left ++ right) table)
    (first : left.Perm ((position, value) :: mine)) (next : β)
    (first' : left'.Perm ((position, next) :: mine)) :
    Custody (left' ++ right) (table.set position next) := by
  have held : Custody ((position, value) :: (mine ++ right)) table :=
    custody.perm (first.symm.append_right right)
  exact (held.change next).perm (first'.append_right right)

theorem transfer_pass {claim : Nat × β} (custody : Custody (left ++ right) table)
    (first : left.Perm (claim :: mine)) (first' : left'.Perm mine) :
    Custody (left' ++ (right ++ [claim])) table := by
  have gathered : (claim :: (mine ++ right)).Perm (left ++ right) := first.symm.append_right right
  have moved : (left' ++ (right ++ [claim])).Perm (claim :: (mine ++ right)) := by
    rw [← List.append_assoc]
    exact List.perm_append_singleton claim (left' ++ right) |>.trans
      ((first'.append_right right).cons claim)
  exact custody.perm (moved.trans gathered)

theorem transfer_issue (custody : Custody (left ++ right) table) (first : left.Perm mine)
    (value : β) (first' : left'.Perm ((table.length, value) :: mine)) :
    Custody (left' ++ right) (table ++ [value]) := by
  have held : Custody (mine ++ right) table := custody.perm (first.symm.append_right right)
  exact (held.issue value).perm (first'.append_right right)

end Transfer

end Custody

theorem filterMap_set_perm {holders : List α} {index : Nat} {holder : α}
    (found : holders[index]? = some holder) (claim : α → Option β) :
    ∃ rest, (holders.filterMap claim).Perm ((claim holder).toList ++ rest) ∧
    ∀ next, ((holders.set index next).filterMap claim).Perm ((claim next).toList ++ rest) := by
  obtain ⟨before, after, rfl, rfl, changed⟩ := split_at found
  have gather (item : α) : ((before ++ item :: after).filterMap claim).Perm
      ((claim item).toList ++ (before.filterMap claim ++ after.filterMap claim)) := by
    rw [List.filterMap_append, List.filterMap_cons]
    cases claim item with
    | none => exact List.Perm.refl _
    | some value => exact List.perm_middle
  refine ⟨before.filterMap claim ++ after.filterMap claim, gather holder, fun next => ?_⟩
  rw [changed]
  exact gather next

namespace Custody

variable {holders : List α} {claim : α → Option (Nat × β)} {table : List β} {index : Nat}
  {holder later : α} (custody : Custody (holders.filterMap claim) table)
  (found : holders[index]? = some holder)
include custody found

theorem holder_keeps (same : claim later = claim holder) :
    Custody ((holders.set index later).filterMap claim) table := by
  obtain ⟨rest, before, after⟩ := filterMap_set_perm found claim
  have moved := after later
  rw [same] at moved
  exact custody.perm (moved.trans before.symm)

theorem holder_opens (free : claim holder = none) {value : β}
    (claims : claim later = some (table.length, value)) :
    Custody ((holders.set index later).filterMap claim) (table ++ [value]) := by
  obtain ⟨rest, before, after⟩ := filterMap_set_perm found claim
  have moved := after later
  rw [free] at before
  rw [claims] at moved
  exact ((custody.perm before.symm).issue value).perm moved

theorem holder_changes {position : Nat} {value next : β}
    (own : claim holder = some (position, value)) (claims : claim later = some (position, next)) :
    Custody ((holders.set index later).filterMap claim) (table.set position next) := by
  obtain ⟨rest, before, after⟩ := filterMap_set_perm found claim
  have moved := after later
  rw [own] at before
  rw [claims] at moved
  exact ((custody.perm before.symm).change next).perm moved

end Custody

theorem entries_set_perm {table : List α} {position : Nat} {value : α}
    (located : table[position]? = some value) :
    ∃ rest, (entries table).Perm ((position, value) :: rest) ∧
    ∀ next, (entries (table.set position next)).Perm ((position, next) :: rest) := by
  obtain ⟨before, after, rfl, rfl, changed⟩ := split_at located
  refine ⟨_, entries_split, fun next => ?_⟩
  rw [changed]
  exact entries_split

theorem eq_of_nodup_filterMap {holders : List α} {claim : α → Option β}
    (nodup : (holders.filterMap claim).Nodup) {first second : α} (member : first ∈ holders)
    (other : second ∈ holders) {claimed : β} (one : claim first = some claimed)
    (two : claim second = some claimed) : first = second := by
  by_contra differ
  have pairs := List.pairwise_filterMap.mp nodup
  have symmetric : Std.Symm fun a b => ∀ x, claim a = some x → ∀ y, claim b = some y → x ≠ y :=
    ⟨fun a b apart y at' x here => (apart x here y at').symm⟩
  exact pairs.forall member other differ claimed one claimed two rfl

/-- Holders counted by what each contributes itself and by its claim. -/
theorem countP_eq_add {holders : List α} {p q : α → Bool} {claim : α → Option β} {r : β → Bool}
    (each : ∀ holder ∈ holders, (p holder).toNat =
      (q holder).toNat + ((claim holder).any r).toNat) :
    holders.countP p = holders.countP q + (holders.filterMap claim).countP r := by
  induction holders with
  | nil => rfl
  | cons holder holders ih =>
      have rest := ih fun other member => each other (List.mem_cons_of_mem _ member)
      have here := each holder (List.mem_cons_self ..)
      have counts (b : Bool) : (if b = true then 1 else 0) = b.toNat := by cases b <;> rfl
      rw [List.countP_cons, List.countP_cons, counts, counts, List.filterMap_cons]
      cases found : claim holder with
      | none =>
          rw [found] at here
          simp only [Option.any_none, Bool.toNat_false] at here ⊢
          omega
      | some claimed =>
          rw [found] at here
          simp only [Option.any_some, List.countP_cons, counts] at here ⊢
          omega

end ModelGate.Data
