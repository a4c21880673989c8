import ModelGate.CircuitBreaker.Invariant

/-! A half-open slot is taken only while some permit is outstanding.

Nothing is assumed of the options, of the clock or of the number of
transitions: a completion that a wrapped generation lets through by mistake
can only return a slot too many.
-/

set_option autoImplicit false

namespace ModelGate.CircuitBreaker

open Data Numeric

/-- The breaker after a completion that does not change its state: the slots
it has taken back are at most one, and one if the completion is current. -/
structure Stays (current : Prop) (b next : Breaker) : Prop where
  state : next.state = b.state
  generation : next.generation = b.generation
  active : next.halfOpenActive ≤ b.halfOpenActive
  returned : current → b.state = .halfOpen → next.halfOpenActive = b.halfOpenActive - 1

def Enters (now : Int) (b next : Breaker) : Prop :=
  ∃ target left, target ≠ b.state ∧ left.generation = b.generation ∧
    next = transitionLocked now target left

theorem recordLocked_halfOpenActive (options : Options) (success : Bool) (b : Breaker) :
    (recordLocked options success b).halfOpenActive = b.halfOpenActive := by
  unfold recordLocked
  split <;> rfl

theorem vacated_stays (current : Prop) (b : Breaker) : Stays current b (vacated b) := by
  unfold vacated
  split
  · exact ⟨rfl, rfl, Nat.sub_le _ _, fun _ _ => rfl⟩
  · exact ⟨rfl, rfl, Nat.le_refl _, fun _ _ => by omega⟩

theorem completeClosed_effect (options : Options) (now : Int) (outcome : Outcome) {b : Breaker}
    (current : Prop) (closed : b.state = .closed) :
    Stays current b (completeClosed options now outcome b).1 ∨
    Enters now b (completeClosed options now outcome b).1 := by
  have stays {next : Breaker} (state : next.state = b.state)
      (generation : next.generation = b.generation)
      (active : next.halfOpenActive = b.halfOpenActive) : Stays current b next := by
    refine ⟨state, generation, Nat.le_of_eq active, fun _ half => ?_⟩
    rw [closed] at half
    cases half
  by_cases ignored : outcome = .ignored
  · rw [completeClosed, if_pos ignored]
    exact .inl (stays rfl rfl rfl)
  · rw [completeClosed_of_counts ignored]
    split
    · refine .inr ⟨.open, _, ?_, recordLocked_generation _ _ _, rfl⟩
      rw [closed]
      decide
    · exact .inl (stays (recordLocked_state _ _ _) (recordLocked_generation _ _ _)
        (recordLocked_halfOpenActive _ _ _))

theorem completeHalfOpen_effect (options : Options) (now : Int) (outcome : Outcome) {b : Breaker}
    (current : Prop) (half : b.state = .halfOpen) :
    Stays current b (completeHalfOpen options now outcome b).1 ∨
    Enters now b (completeHalfOpen options now outcome b).1 := by
  have vacates := vacated_stays current b
  cases outcome with
  | ignored => exact .inl vacates
  | failure =>
      refine .inr ⟨.open, vacated b, ?_, vacates.generation, rfl⟩
      rw [half]
      decide
  | success =>
      rw [completeHalfOpen_success]
      split
      · refine .inr ⟨.closed, passedOne b, ?_, vacates.generation, rfl⟩
        rw [half]
        decide
      · exact .inl ⟨vacates.state, vacates.generation, vacates.active, vacates.returned⟩

theorem complete_effect (options : Options) (now : Int) (permitState : State) (generation : UInt64)
    (outcome : Outcome) (b : Breaker) :
    Stays (generation = b.generation ∧ permitState = b.state) b
      (complete options now permitState generation outcome b).1 ∨
    Enters now b (complete options now permitState generation outcome b).1 := by
  by_cases stale : generation ≠ b.generation ∨ permitState ≠ b.state
  · rw [complete_stale outcome stale]
    refine .inl ⟨rfl, rfl, Nat.le_refl _, fun current => ?_⟩
    exact (stale.elim (fun other => other current.1) fun other => other current.2).elim
  · cases state : b.state with
    | closed =>
        rw [complete_closed stale outcome state]
        exact completeClosed_effect options now outcome _ state
    | halfOpen =>
        rw [complete_halfOpen stale outcome state]
        exact completeHalfOpen_effect options now outcome _ state
    | «open» =>
        rw [complete_open stale outcome state]
        refine .inl ⟨rfl, rfl, Nat.le_refl _, fun _ half => ?_⟩
        rw [state] at half
        cases half

namespace Ledger

/-- No slot is taken without an outstanding permit of the epoch. -/
structure Covered (o : Ledger) : Prop where
  tracked : o.Tracked
  slots : o.breaker.state = .halfOpen → o.breaker.halfOpenActive ≤ o.outstanding

theorem start_covered : start.Covered := by
  refine ⟨⟨rfl, ?_, ?_⟩, ?_⟩
  · simp [start]
  · simp [start]
  · intro half
    cases half

theorem enter_covered {o : Ledger} (tracked : o.Tracked) (now : Int) {target : State}
    (changes : target ≠ o.breaker.state)
    {b : Breaker} (same : b.generation = o.breaker.generation) :
    (o.moved (transitionLocked now target b)).Covered := by
  refine ⟨enter_tracked tracked now changes same, fun _ => ?_⟩
  have none : (transitionLocked now target b).halfOpenActive = 0 := by cases target <;> rfl
  exact Nat.le_trans (Nat.le_of_eq none) (Nat.zero_le _)

theorem advance_covered (options : Options) {o : Ledger} (covered : o.Covered) (now : Int) :
    (o.moved (advanceLocked options now o.breaker).1).Covered := by
  rcases advanceLocked_cases options now o.breaker with ⟨still, _⟩ | ⟨opened, _, entered⟩
  · rw [still, moved_of_state rfl]
    exact covered
  · rw [entered]
    have changes : State.halfOpen ≠ o.breaker.state := by rw [opened]; decide
    exact enter_covered covered.tracked now changes rfl

theorem issue_covered {o : Ledger} (covered : o.Covered) :
    ({ o with breaker := occupied o.breaker }.issue ⟨o.breaker.state, o.breaker.generation,
        false⟩).Covered := by
  refine ⟨issue_tracked covered.tracked, fun half => ?_⟩
  by_cases probing : o.breaker.state = .halfOpen
  · have before := covered.slots probing
    have slot : occupied o.breaker =
      { o.breaker with halfOpenActive := o.breaker.halfOpenActive + 1 } := if_pos probing
    simp only [issue, slot, outstanding, List.countP_append] at before ⊢
    simpa using before
  · rw [issue, occupied, if_neg probing] at half
    exact absurd half probing

theorem finish_covered (options : Options) {o : Ledger} (covered : o.Covered) (now : Int)
    (outcome : Outcome) (index : Nat) : (o.finish options now outcome index).Covered := by
  unfold finish
  cases found : o.permits[index]? with
  | none => exact covered
  | some issued =>
      simp only
      split
      · exact covered
      · rename_i live
        have unspent : issued.permit.spent = false := Bool.not_eq_true _ ▸ live
        have tracked := mark_tracked covered.tracked found outcome
        rcases complete_effect options now issued.permit.state issued.permit.generation outcome
          o.breaker with
          stays | ⟨target, left, changes, same, enters⟩
        · rw [moved_of_state (o := o.mark index issued outcome) stays.state]
          refine ⟨⟨stays.generation.trans tracked.generation, ?_, tracked.finished⟩, fun half => ?_⟩
          · intro other member
            have known := tracked.issued other member
            exact ⟨known.1, known.2.1, fun current => (known.2.2 current).trans stays.state.symm⟩
          · have probing : o.breaker.state = .halfOpen := stays.state.symm.trans half
            have before := covered.slots probing
            have marked := outstanding_mark found unspent outcome
            have known := covered.tracked.issued issued (List.mem_of_getElem? found)
            have enough : (complete options now issued.permit.state issued.permit.generation outcome
                o.breaker).1.halfOpenActive ≤ (o.mark index issued outcome).outstanding := by
              -- A permit of an earlier epoch has no slot to free.
              split at marked
              · rename_i current
                have generation : issued.permit.generation = o.breaker.generation := by
                  rw [known.1, current, covered.tracked.generation]
                have returned := stays.returned ⟨generation, known.2.2 current⟩ probing
                omega
              · have active := stays.active
                omega
            exact enough
        · rw [enters]
          exact enter_covered tracked now changes same

theorem step_covered (options : Options) {o : Ledger} (covered : o.Covered) (call : Call) :
    (o.step options call).Covered := by
  cases call with
  | state now => exact advance_covered options covered now
  | available now => exact advance_covered options covered now
  | done index outcome now => exact finish_covered options covered now outcome index
  | allow now =>
      have advanced := advance_covered options covered now
      rcases allow_cases options now o.breaker with ⟨_, breaker, refused⟩ | ⟨_, breaker, permit⟩
      · simp only [step, refused, breaker]
        exact advanced
      · simp only [step, permit, breaker]
        simpa [moved, issue] using issue_covered advanced

theorem Covered.free {o : Ledger} (covered : o.Covered)
    (spent : ∀ issued ∈ o.permits, issued.permit.spent = true)
    (half : o.breaker.state = .halfOpen) : o.breaker.halfOpenActive = 0 := by
  have none : o.outstanding = 0 := by
    unfold outstanding
    rw [List.countP_eq_zero]
    intro issued member
    simp [spent issued member]
  have slots := covered.slots half
  omega

end Ledger

end ModelGate.CircuitBreaker
