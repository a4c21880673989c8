import Mathlib.Data.List.Nodup
import ModelGate.Data.Rotation
import ModelGate.Routing.Router
import ModelGate.Semantics.Runs

/-! One selection as a function of the answers of the targets.

A selection asks each target at most once, so its answers are those of some
function, and the selection is the same function of it whatever else happens.
-/

set_option autoImplicit false

namespace ModelGate.Routing

open Data Semantics

variable {T : Signature}

/-- Asking the targets of a router whether they are available, by position. -/
abbrev asks : Signature := ⟨Nat, fun _ => Bool⟩

/-- `Available` of each target is one operation of its own. -/
def Router.Asks (r : Router T) (e : Embedding asks T) : Prop :=
  ∀ index state, r.targets[index]? = some state →
    state.target.Available = (Program.call (S := asks) index).along e

def look (e : Embedding asks T) (answer : Nat × Bool) : Event (effects.sum T) :=
  (Event.along e ⟨answer.1, answer.2⟩).along (.inr effects T)

def Consistent (available : Nat → Bool) (looks : List (Nat × Bool)) : Prop :=
  ∀ answer ∈ looks, answer.2 = available answer.1

theorem consistent_append {available : Nat → Bool} {first second : List (Nat × Bool)} :
    Consistent available (first ++ second) ↔ Consistent available first ∧
    Consistent available second := by
  simp [Consistent, or_imp, forall_and]

theorem consistent_of_nodup {looks : List (Nat × Bool)} (once : (looks.map Prod.fst).Nodup) :
    Consistent (fun index => decide ((index, true) ∈ looks)) looks ∧
      Consistent (fun index => !decide ((index, false) ∈ looks)) looks := by
  have single {index : Nat} {first second : Bool} (one : (index, first) ∈ looks)
    (two : (index, second) ∈ looks) :
      first = second :=
    congrArg Prod.snd (List.inj_on_of_nodup_map once one two rfl)
  constructor
  · rintro ⟨index, answer⟩ member
    cases answer with
    | true => simpa using member
    | false => simpa using fun other => Bool.false_ne_true (single member other)
  · rintro ⟨index, answer⟩ member
    cases answer with
    | true => simpa using fun other => Bool.false_ne_true (single other member)
    | false => simpa using member

theorem nodup_of_sublist_zipIdx {α : Type} {items : List α} {looks : List (Nat × Bool)}
    (once : (looks.map Prod.fst).Sublist (items.zipIdx.map Prod.snd)) :
    (looks.map Prod.fst).Nodup := by
  apply once.nodup
  rw [List.zipIdx_map_snd]
  exact List.nodup_range'

namespace Router

variable (r : Router T)

/-- What a selection may take. -/
def eligible (excluded : List String) (available : Nat → Bool) (index : Nat) : Bool :=
  r.targets[index]?.any fun state => decide (state.target.name ∉ excluded) && available index

def targetAt (index : Nat) : Option (Target T) := r.targets[index]?.map TargetState.target

def weighs (eligible : Nat → Bool) : List (TargetState T × Nat) → Weighing → Weighing
  | [], w => w
  | (candidate, index) :: rest, w =>
      weighs eligible rest (if eligible index then w.add index candidate.weight else w)

/-- The outcome of the weighted loop. -/
def settle (cursor : Cursor) (w : Weighing) : Option Nat × Cursor :=
  match w.selected with
  | none => (none, { cursor with currentWeights := w.currentWeights })
  | some selected =>
      let current := Numeric.int64 (w.currentWeights.getD selected 0 - w.total)
      (some selected, { cursor with currentWeights := w.currentWeights.set selected current })

/-- The selection where the eligible targets are known, with the cursor it leaves. -/
def pick (eligible : Nat → Bool) (cursor : Cursor) : Option Nat × Cursor :=
  match r.strategy with
  | .roundRobin =>
      let (found, next) := rotate r.targets.length eligible r.targets.length cursor.next
      (found, { cursor with next })
  | .weightedRoundRobin =>
      settle cursor (weighs eligible r.targets.zipIdx ⟨none, 0, cursor.currentWeights⟩)
  | .unsupported _ => (none, cursor)

end Router

/-! What `New` accepts -/

theorem enroll_ok {quote : String → String} {targets : List (WeightedTarget T)}
    {names : List String} {states result : List (TargetState T)}
    (admitted : enroll quote targets names states = .ok result) :
    ∃ added, result = states ++ added ∧
    targets = added.map (fun state => ⟨some state.target, state.weight⟩) ∧
    (added.map fun state => trimSpace state.target.name).Nodup ∧
    ∀ state ∈ added, trimSpace state.target.name ∉ names ∧ 0 < state.weight := by
  -- `names` holds the trimmed names of the targets before these.
  induction targets generalizing names states with
  | nil =>
      obtain rfl := Except.ok.inj admitted
      exact ⟨[], (List.append_nil _).symm, rfl, List.nodup_nil, nofun⟩
  | cons candidate rest ih =>
      unfold enroll at admitted
      cases found : candidate.target with
      | none =>
          rw [found] at admitted
          cases admitted
      | some target =>
          simp only [found] at admitted
          split at admitted
          case isTrue => cases admitted
          split at admitted
          case isTrue => cases admitted
          split at admitted
          case isTrue => cases admitted
          rename_i fresh heavy
          obtain ⟨added, rfl, rfl, distinct, each⟩ := ih admitted
          refine ⟨⟨target, candidate.weight⟩ :: added, by rw [List.append_assoc]; rfl, ?_, ?_, ?_⟩
          · rw [List.map_cons, ← found]
          · rw [List.map_cons, List.nodup_cons]
            refine ⟨fun member => ?_, distinct⟩
            obtain ⟨state, inside, same⟩ := List.mem_map.mp member
            exact (each state inside).1 (same ▸ List.mem_cons_self ..)
          · intro state member
            rcases List.mem_cons.mp member with rfl | inside
            · exact ⟨fresh, Int.not_le.mp heavy⟩
            · obtain ⟨other, positive⟩ := each state inside
              exact ⟨fun old => other (List.mem_cons_of_mem _ old), positive⟩

/-- One of the strategies `New` accepts. -/
def Router.Supported (r : Router T) : Prop :=
  r.strategy = .roundRobin ∨ r.strategy = .weightedRoundRobin

structure Router.Accepted (r : Router T) : Prop where
  supported : r.Supported
  occupied : r.targets ≠ []
  distinct : (r.targets.map fun state => state.target.name).Nodup
  weights : ∀ state ∈ r.targets, 0 < state.weight

theorem new_ok {quote : String → String} {strategy : Strategy} {targets : List (WeightedTarget T)}
    {r : Router T} (made : New quote strategy targets = .ok r) :
    r.Accepted ∧ r.strategy = strategy ∧ targets = r.targets.map fun state =>
    ⟨some state.target, state.weight⟩ := by
  have accepted (supported : strategy = .roundRobin ∨ strategy = .weightedRoundRobin)
      (checked : (if targets = [] then Except.error "at least one provider target is required"
        else (enroll quote targets [] []).map fun states => (⟨strategy, states⟩ : Router T)) =
          .ok r) :
      r.Accepted ∧ r.strategy = strategy ∧ targets = r.targets.map fun state =>
        ⟨some state.target, state.weight⟩ := by
    split at checked
    case isTrue => cases checked
    rename_i some'
    cases admitted : enroll quote targets [] [] with
    | error message =>
        rw [admitted] at checked
        cases checked
    | ok states =>
        rw [admitted] at checked
        obtain rfl := Except.ok.inj checked
        obtain ⟨added, same, rfl, distinct, each⟩ := enroll_ok admitted
        rw [List.nil_append] at same
        subst same
        refine ⟨⟨supported, ?_, ?_, fun state member => (each state member).2⟩, rfl, rfl⟩
        · rintro rfl
          exact some' rfl
        · apply List.Nodup.of_map trimSpace
          rw [List.map_map]
          exact distinct
  unfold New at made
  cases strategy with
  | unsupported text => cases made
  | roundRobin => exact accepted (.inl rfl) made
  | weightedRoundRobin => exact accepted (.inr rfl) made

/-! What the weighted loop selects -/

theorem add_selected (w : Weighing) (index : Nat) (weight : Int) :
    (w.add index weight).selected = some index ∨
    (w.selected ≠ none ∧ (w.add index weight).selected = w.selected) := by
  unfold Weighing.add
  dsimp only
  split
  · exact .inl rfl
  · rename_i behind
    refine .inr ⟨?_, rfl⟩
    intro first
    rw [first] at behind
    exact behind rfl

theorem weighs_selected {eligible : Nat → Bool} {rest : List (TargetState T × Nat)} {w : Weighing}
    {index : Nat} (selected : (Router.weighs eligible rest w).selected = some index) :
    w.selected = some index ∨ (eligible index = true ∧ index ∈ rest.map Prod.snd) := by
  induction rest generalizing w with
  | nil => exact .inl selected
  | cons entry rest ih =>
      rcases ih selected with early | ⟨passes, member⟩
      · split at early
        · rename_i passes
          rcases add_selected w entry.2 entry.1.weight with here | ⟨_, before⟩
          · obtain rfl := Option.some.inj (here.symm.trans early)
            exact .inr ⟨passes, List.mem_cons_self ..⟩
          · exact .inl (before.symm.trans early)
        · exact .inl early
      · exact .inr ⟨passes, List.mem_cons_of_mem _ member⟩

theorem weighs_none {eligible : Nat → Bool} {rest : List (TargetState T × Nat)} {w : Weighing}
    (nothing : (Router.weighs eligible rest w).selected = none) :
    w.selected = none ∧ ∀ entry ∈ rest, eligible entry.2 = false := by
  induction rest generalizing w with
  | nil => exact ⟨nothing, nofun⟩
  | cons entry rest ih =>
      obtain ⟨before, later⟩ := ih nothing
      split at before
      · rcases add_selected w entry.2 entry.1.weight with here | ⟨some', same⟩
        · rw [here] at before
          cases before
        · exact absurd (same.symm.trans before) some'
      · rename_i fails
        refine ⟨before, fun other member => ?_⟩
        rcases List.mem_cons.mp member with rfl | inside
        · exact Bool.not_eq_true _ ▸ fails
        · exact later other inside

namespace Router

variable {r : Router T} {excluded : List String} {available : Nat → Bool}

theorem zipIdx_located {entry : TargetState T × Nat} (member : entry ∈ r.targets.zipIdx) :
    r.targets[entry.2]? = some entry.1 :=
  List.mem_zipIdx_iff_getElem?.mp member

theorem exists_of_eligible {index : Nat} (passes : r.eligible excluded available index = true) :
    ∃ state, r.targets[index]? = some state ∧ state.target.name ∉ excluded ∧
    available index = true := by
  unfold eligible at passes
  cases located : r.targets[index]? with
  | none =>
      rw [located] at passes
      cases passes
  | some state =>
      rw [located] at passes
      simp only [Option.any_some, Bool.and_eq_true, decide_eq_true_eq] at passes
      exact ⟨state, rfl, passes⟩

theorem not_eligible {index : Nat}
    {state : TargetState T} (located : r.targets[index]? = some state)
    (fails : r.eligible excluded available index = false) : state.target.name ∈ excluded ∨
    available index = false := by
  rw [eligible, located] at fails
  simp only [Option.any_some, Bool.and_eq_false_iff, decide_eq_false_iff_not, not_not] at fails
  exact fails

theorem pick_some {cursor : Cursor} {index : Nat}
    (found : (r.pick (r.eligible excluded available) cursor).1 = some index) :
    r.eligible excluded available index = true := by
  unfold pick at found
  split at found
  · exact rotate_some found
  · unfold settle at found
    split at found
    · cases found
    · rename_i selected chosen
      obtain rfl := Option.some.inj found
      rcases weighs_selected chosen with impossible | ⟨passes, _⟩
      · cases impossible
      · exact passes
  · cases found

theorem pick_none (supported : r.Supported) {eligible : Nat → Bool} {cursor : Cursor}
    (nothing : (r.pick eligible cursor).1 = none)
    {index : Nat} (inside : index < r.targets.length) :
    eligible index = false := by
  unfold pick at nothing
  rcases supported with round | weighted
  · rw [round] at nothing
    obtain ⟨step, below, rfl⟩ := exists_step cursor.next inside
    exact rotate_none nothing step below
  · rw [weighted] at nothing
    simp only [settle] at nothing
    split at nothing
    · rename_i unselected
      exact (weighs_none unselected).2 (r.targets[index], index)
        (List.mem_zipIdx_iff_getElem?.mpr (List.getElem?_eq_getElem inside))
    · cases nothing

end Router

section Runs

variable {r : Router T} {e : Embedding asks T} (asked : r.Asks e) {excluded : List String}
include asked

theorem passes_runs {index : Nat} {candidate : TargetState T}
    (located : r.targets[index]? = some candidate) {trace : List (Event (effects.sum T))}
    {exit : Exit Bool} (runs : (candidate.target.passes excluded).Runs trace exit) :
    ∃ looks answer, trace = looks.map (look e) ∧ exit = .returned answer ∧
    (looks.map Prod.fst).Sublist [index] ∧ ∀ available, Consistent available looks →
    answer = r.eligible excluded available index := by
  unfold Target.passes at runs
  split at runs
  · rename_i skipped
    obtain ⟨rfl, rfl⟩ := Program.runs_done.mp runs
    refine ⟨[], false, rfl, rfl, List.nil_sublist _, fun available _ => ?_⟩
    simp [Router.eligible, located, skipped]
  · rename_i kept
    rw [asked index candidate located] at runs
    obtain ⟨middle, rfl, inner⟩ := runs.along
    obtain ⟨events, rfl, own⟩ := inner.along
    obtain ⟨answer, rest, rfl, ends⟩ := Program.runs_perform.mp own
    obtain ⟨rfl, rfl⟩ := Program.runs_done.mp ends
    refine ⟨[(index, answer)], answer, rfl, rfl, List.Sublist.refl _,
      fun available consistent => ?_⟩
    have known : answer = available index := consistent _ (List.mem_singleton_self _)
    simp [Router.eligible, located, kept, known]

theorem roundRobin_runs {left : Nat} (small : left ≤ r.targets.length) {cursor : Cursor}
    {trace : List (Event (effects.sum T))} {exit : Exit (Option (Target T) × Cursor)}
    (runs : (r.roundRobin excluded left cursor).Runs trace exit) :
    ∃ looks outcome, trace = looks.map (look e) ∧ exit = .returned outcome ∧
      (looks.map Prod.fst).Sublist
      ((List.range left).map fun step => (cursor.next + step) % r.targets.length) ∧
      ∀ available, Consistent available looks →
        let found := rotate r.targets.length (r.eligible excluded available) left cursor.next
        outcome = (found.1.bind r.targetAt, { cursor with next := found.2 }) := by
  induction left generalizing cursor trace with
  | zero =>
      obtain ⟨rfl, rfl⟩ := Program.runs_done.mp runs
      exact ⟨[], _, rfl, rfl, List.nil_sublist _, fun _ _ => rfl⟩
  | succ left ih =>
      have bound : cursor.next % r.targets.length < r.targets.length := Nat.mod_lt _ (by omega)
      have located := List.getElem?_eq_getElem bound
      unfold Router.roundRobin at runs
      rw [located] at runs
      rcases runs.bind with ⟨early, late, answer, rfl, first, rest⟩ | ⟨reason, stuck, _⟩
      · obtain ⟨looks, _, rfl, same, here, known⟩ := passes_runs asked located first
        cases same
        cases answer with
        | true =>
            obtain ⟨rfl, rfl⟩ := Program.runs_done.mp rest
            refine ⟨looks, _, List.append_nil _, rfl, ?_, fun available consistent => ?_⟩
            · rw [List.range_succ_eq_map, List.map_cons]
              exact here.trans (List.singleton_sublist.mpr (List.mem_cons_self ..))
            · rw [rotate, ← known available consistent, if_pos rfl]
              simp only [Option.bind_some, Router.targetAt, located, Option.map_some]
        | false =>
            obtain ⟨others, outcome, rfl, rfl, there, ends⟩ := ih (by omega) rest
            refine ⟨looks ++ others, outcome, (List.map_append ..).symm, rfl, ?_,
              fun available consistent => ?_⟩
            · rw [List.range_succ_eq_map, List.map_cons, List.map_append, List.map_map]
              -- A target that does not pass moves the cursor to the place after it.
              have shifted : (fun step =>
                    ((cursor.next + 1) % r.targets.length + step) % r.targets.length) =
                  (fun step => (cursor.next + step) % r.targets.length) ∘ Nat.succ :=
                funext fun step => succ_mod_add_mod cursor.next step
              rw [shifted] at there
              exact here.append there
            · obtain ⟨early, late⟩ := consistent_append.mp consistent
              rw [rotate, ← known available early, if_neg Bool.false_ne_true]
              exact ends available late
      · obtain ⟨_, _, _, impossible, _⟩ := passes_runs asked located stuck
        cases impossible

theorem weigh_runs {rest : List (TargetState T × Nat)}
    (located : ∀ entry ∈ rest, r.targets[entry.2]? = some entry.1) {w : Weighing}
    {trace : List (Event (effects.sum T))} {exit : Exit Weighing}
    (runs : (Router.weigh excluded rest w).Runs trace exit) :
    ∃ looks weighed, trace = looks.map (look e) ∧ exit = .returned weighed ∧
    (looks.map Prod.fst).Sublist (rest.map Prod.snd) ∧ ∀ available, Consistent available looks →
    weighed = Router.weighs (r.eligible excluded available) rest w := by
  induction rest generalizing w trace with
  | nil =>
      obtain ⟨rfl, rfl⟩ := Program.runs_done.mp runs
      exact ⟨[], w, rfl, rfl, List.nil_sublist _, fun _ _ => rfl⟩
  | cons entry rest ih =>
      obtain ⟨candidate, index⟩ := entry
      have here := located _ (List.mem_cons_self ..)
      have later (entry : TargetState T × Nat) (member : entry ∈ rest) :=
        located entry (List.mem_cons_of_mem _ member)
      rcases runs.bind with ⟨early, late, answer, rfl, first, remains⟩ | ⟨reason, stuck, _⟩
      · obtain ⟨looks, _, rfl, same, asks, known⟩ := passes_runs asked here first
        cases same
        have continues :
            (Router.weigh excluded rest (if answer then w.add index candidate.weight else w)).Runs
            late exit := by
          cases answer <;> exact remains
        obtain ⟨others, weighed, rfl, rfl, there, ends⟩ := ih later continues
        refine ⟨looks ++ others, weighed, (List.map_append ..).symm, rfl, ?_,
          fun available consistent => ?_⟩
        · rw [List.map_append]
          exact asks.append there
        · obtain ⟨early, late⟩ := consistent_append.mp consistent
          rw [Router.weighs, ← known available early]
          exact ends available late
      · obtain ⟨_, _, _, impossible, _⟩ := passes_runs asked here stuck
        cases impossible

theorem weightedRoundRobin_runs {cursor : Cursor} {trace : List (Event (effects.sum T))}
    {exit : Exit (Option (Target T) × Cursor)}
    (runs : (r.weightedRoundRobin excluded cursor).Runs trace exit) :
    ∃ looks outcome, trace = looks.map (look e) ∧ exit = .returned outcome ∧
      (looks.map Prod.fst).Sublist (r.targets.zipIdx.map Prod.snd) ∧
      ∀ available, Consistent available looks →
        let found := Router.settle cursor
          (Router.weighs (r.eligible excluded available) r.targets.zipIdx
            ⟨none, 0, cursor.currentWeights⟩)
        outcome = (found.1.bind r.targetAt, found.2) := by
  rcases runs.bind with ⟨early, late, w, rfl, first, rest⟩ | ⟨reason, stuck, _⟩
  · obtain ⟨looks, _, rfl, same, once, known⟩ :=
      weigh_runs asked (fun _ => Router.zipIdx_located) first
    cases same
    have consistent := (consistent_of_nodup (nodup_of_sublist_zipIdx once)).1
    obtain ⟨rfl, rfl⟩ : late = [] ∧
      exit = .returned
      ((Router.settle cursor w).1.bind r.targetAt, (Router.settle cursor w).2) := by
      unfold Router.weighted at rest
      unfold Router.settle
      -- The selected index is one of a target, so the lookup after the loop cannot fail.
      cases chosen : w.selected with
      | none =>
          simp only [chosen] at rest
          exact Program.runs_done.mp rest
      | some selected =>
          rw [known _ consistent] at chosen
          obtain ⟨passes, _⟩ := (weighs_selected chosen).resolve_left nofun
          obtain ⟨state, located, _⟩ := Router.exists_of_eligible passes
          rw [← known _ consistent] at chosen
          simp only [chosen, located] at rest
          simp only [Option.bind_some, Router.targetAt, located, Option.map_some]
          exact Program.runs_done.mp rest
    refine ⟨looks, _, List.append_nil _, rfl, once, fun available consistent => ?_⟩
    rw [← known available consistent]
  · obtain ⟨_, _, _, impossible, _⟩ := weigh_runs asked (fun _ => Router.zipIdx_located) stuck
    cases impossible

theorem choose_runs (supported : r.Supported) {cursor : Cursor}
    {trace : List (Event (effects.sum T))}
    {exit : Exit (Option (Target T) × Cursor)} (runs : (r.choose excluded cursor).Runs trace exit) :
    ∃ looks outcome, trace = looks.map (look e) ∧ exit = .returned outcome ∧
    (looks.map Prod.fst).Nodup ∧
      ∀ available, Consistent available looks →
        let found := r.pick (r.eligible excluded available) cursor
        outcome = (found.1.bind r.targetAt, found.2) := by
  unfold Router.choose at runs
  unfold Router.pick
  rcases supported with round | weighted
  · rw [round] at runs ⊢
    obtain ⟨looks, outcome, traced, returned, once, known⟩ :=
      roundRobin_runs asked (Nat.le_refl _) runs
    refine ⟨looks, outcome, traced, returned, once.nodup ?_, known⟩
    apply List.Nodup.map_on _ List.nodup_range
    intro first one second two same
    exact step_unique (List.mem_range.mp one) (List.mem_range.mp two) same
  · rw [weighted] at runs ⊢
    obtain ⟨looks, outcome, traced, returned, once, known⟩ := weightedRoundRobin_runs asked runs
    exact ⟨looks, outcome, traced, returned, nodup_of_sublist_zipIdx once, known⟩

def selection (e : Embedding asks T) (cursor : Cursor) (looks : List (Nat × Bool)) (left : Cursor) :
    List (Event (effects.sum T)) :=
  ⟨.inl .lock, cursor⟩ :: (looks.map (look e) ++ [⟨.inl (.unlock left), ()⟩])

def verdict : Option (Target T) → Except Err (Target T)
  | some target => .ok target
  | none => .error .errNoHealthyProviders

/-- What a selection found under the mutex, what it was answered, what it left
and what it returned. -/
structure Router.Selects (r : Router T) (excluded : List String) (cursor : Cursor)
    (looks : List (Nat × Bool)) (left : Cursor) (result : Except Err (Target T)) : Prop where
  once : (looks.map Prod.fst).Nodup
  picks : ∀ available, Consistent available looks →
    (r.pick (r.eligible excluded available) cursor).2 = left ∧
      result = verdict ((r.pick (r.eligible excluded available) cursor).1.bind r.targetAt)

theorem selectTarget_runs (supported : r.Supported) {trace : List (Event (effects.sum T))}
    {exit : Exit (Except Err (Target T))} (runs : (r.selectTarget excluded).Runs trace exit) :
    ∃ cursor looks left result, trace = selection e cursor looks left ∧ exit = .returned result ∧
      r.Selects excluded cursor looks left result := by
  obtain ⟨cursor, later, rfl, chosen⟩ := Program.Runs.call runs
  rcases chosen.bind with ⟨early, late, outcome, rfl, first, rest⟩ | ⟨reason, stuck, _⟩
  · obtain ⟨looks, _, rfl, same, once, known⟩ := choose_runs asked supported first
    cases same
    obtain ⟨selected, left⟩ := outcome
    obtain ⟨_, others, rfl, ends⟩ := Program.Runs.call rest
    obtain ⟨rfl, rfl⟩ : others = [] ∧ exit = .returned (verdict selected) := by
      cases selected <;> exact Program.runs_done.mp ends
    refine ⟨cursor, looks, left, verdict selected, rfl, rfl, once, fun available consistent => ?_⟩
    obtain ⟨rfl, rfl⟩ := Prod.mk.inj (known available consistent)
    exact ⟨rfl, rfl⟩
  · obtain ⟨_, _, _, impossible, _⟩ := choose_runs asked supported stuck
    cases impossible

end Runs

namespace Router.Selects

variable {r : Router T} {excluded : List String} {cursor left : Cursor} {looks : List (Nat × Bool)}

theorem of_ok {target : Target T} (selects : r.Selects excluded cursor looks left (.ok target)) :
    ∃ index state, r.targets[index]? = some state ∧ state.target = target ∧ target.name ∉ excluded ∧
      (index, true) ∈ looks := by
  obtain ⟨_, chosen⟩ := selects.picks _ (consistent_of_nodup selects.once).1
  cases found : (r.pick (r.eligible excluded fun index => decide ((index, true) ∈ looks))
    cursor).1 with
  | none =>
      rw [found] at chosen
      cases chosen
  | some index =>
      obtain ⟨state, located, outside, said⟩ := exists_of_eligible (pick_some found)
      rw [found, Option.bind_some, targetAt, located] at chosen
      obtain rfl := Except.ok.inj chosen
      exact ⟨index, state, located, rfl, outside, of_decide_eq_true said⟩

theorem of_error (supported : r.Supported) {err : Err}
    (selects : r.Selects excluded cursor looks left (.error err)) :
    err = .errNoHealthyProviders ∧ ∀ index state, r.targets[index]? = some state →
    state.target.name ∈ excluded ∨ (index, false) ∈ looks := by
  obtain ⟨_, chosen⟩ := selects.picks _ (consistent_of_nodup selects.once).2
  cases found : (r.pick (r.eligible excluded fun index => !decide ((index, false) ∈ looks))
    cursor).1 with
  | some index =>
      obtain ⟨state, located, _⟩ := exists_of_eligible (pick_some found)
      rw [found, Option.bind_some, targetAt, located] at chosen
      cases chosen
  | none =>
      rw [found] at chosen
      refine ⟨Except.error.inj chosen, fun index state located => ?_⟩
      have fails := pick_none supported found (List.getElem?_eq_some_iff.mp located).1
      apply (not_eligible located fails).imp_right
      simp

end Router.Selects

end ModelGate.Routing
