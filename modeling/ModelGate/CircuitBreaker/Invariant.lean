import ModelGate.CircuitBreaker.Ledger

/-! The invariant of a ledger, kept by every call on the breaker.

Its first part ties `generation` to the unbounded epoch. The other two say, for
the closed and for the half-open state, what the counters of the breaker are in
terms of the completions the ledger observed.
-/

set_option autoImplicit false

namespace ModelGate.CircuitBreaker

open Data Numeric

/-- What `New` checks, apart from the failure ratio. -/
structure Options.Accepted (options : Options) : Prop where
  window : 0 < options.windowSize
  minimum : 0 < options.minimumRequests
  ratio_pos : options.failureRatio.le (.ofRat 0) = false
  ratio_le : (Float64.ofRat 1).lt options.failureRatio = false
  timeout : 0 < options.openTimeout
  probes : 0 < options.halfOpenMaxRequests

theorem accepted_of_new {options : Options} {b : Breaker} (built : New options = .ok b) :
    options.Accepted ∧ b = initialBreaker := by
  unfold New at built
  split at built
  · cases built
  split at built
  · cases built
  split at built
  · cases built
  split at built
  · cases built
  split at built
  · cases built
  next window minimum ratio timeout probes =>
    cases built
    simp only [Bool.not_eq_true, not_or] at ratio
    exact ⟨⟨by omega, by omega, ratio.1, ratio.2, by omega, by omega⟩, rfl⟩

def Options.size (options : Options) : Nat := options.windowSize.toNat

def Breaker.window (b : Breaker) : Window Bool := ⟨b.outcomes, b.next⟩

theorem recordLocked_window {options : Options} (positive : 0 < options.windowSize) (success : Bool)
    (b : Breaker) :
    (recordLocked options success b).window = b.window.push options.size success := by
  have width : ((b.outcomes.length : Int) < options.windowSize) ↔
      b.outcomes.length < options.size := by
    unfold Options.size
    omega
  unfold recordLocked Window.push Breaker.window
  by_cases room : b.outcomes.length < options.size
  · rw [if_pos (width.mpr room), if_pos room]
  · rw [if_neg (mt width.mp room), if_neg room]
    rfl

theorem recordLocked_failures {options : Options} (positive : 0 < options.windowSize)
    (success : Bool) (b : Breaker) :
    (recordLocked options success b).failures =
      b.failures - (if (b.window.evicted options.size).any (!·) then 1 else 0) + (if !success then 1
      else 0) := by
  have width : ((b.outcomes.length : Int) < options.windowSize) ↔
      b.outcomes.length < options.size := by
    unfold Options.size
    omega
  unfold recordLocked Window.evicted Breaker.window
  by_cases room : b.outcomes.length < options.size
  · rw [if_pos (width.mpr room), if_pos room]
    cases success <;> simp
  · rw [if_neg (mt width.mp room), if_neg room]
    cases found : b.outcomes[b.next]? with
    | none => cases success <;> simp
    | some old => cases old <;> cases success <;> simp

theorem recordLocked_represents {options : Options} (positive : 0 < options.windowSize)
    {b : Breaker} {history : List Bool} (window : b.window.Represents options.size history)
    (failures : b.failures = (b.outcomes.countP (!·) : Int)) (success : Bool) :
    (recordLocked options success b).window.Represents options.size (history ++ [success]) ∧
    (recordLocked options success b).failures =
      ((recordLocked options success b).outcomes.countP (!·) : Int) := by
  have pushed := recordLocked_window positive success b
  constructor
  · rw [pushed]
    exact Window.push_represents window success
  · have cursor : options.size ≤ b.window.cells.length → b.window.next < b.window.cells.length :=
      fun full => Nat.lt_of_lt_of_le window.cursor full
    have recount := Window.countP_push options.size b.window success (!·) cursor
    rw [← pushed] at recount
    rw [recordLocked_failures positive, failures]
    exact recount.symm

namespace Ledger

/-- The generation of the breaker and of every permit is its epoch modulo `2 ^ 64`. -/
structure Tracked (o : Ledger) : Prop where
  generation : o.breaker.generation = UInt64.ofNat o.epoch
  issued : ∀ issued ∈ o.permits, issued.permit.generation = UInt64.ofNat issued.epoch ∧
    issued.epoch ≤ o.epoch ∧ (issued.epoch = o.epoch → issued.permit.state = o.breaker.state)
  finished : ∀ completion ∈ o.finished, completion.epoch ≤ o.epoch

/-- In the closed state the window holds the latest counted outcomes. -/
structure WindowHolds (options : Options) (o : Ledger) : Prop where
  window : o.breaker.window.Represents options.size o.counted
  failures : o.breaker.failures = (o.breaker.outcomes.countP (!·) : Int)

/-- In the half-open state the counters are those of the current permits. -/
structure ProbesHold (options : Options) (o : Ledger) : Prop where
  active : o.breaker.halfOpenActive = o.outstanding
  bounded : (o.breaker.halfOpenActive : Int) ≤ options.halfOpenMaxRequests
  passed : o.breaker.halfOpenPassed = o.completedWith .success
  pending : (o.breaker.halfOpenPassed : Int) < options.halfOpenMaxRequests
  unfailed : o.completedWith .failure = 0

structure Valid (options : Options) (o : Ledger) : Prop where
  tracked : o.Tracked
  window : o.breaker.state = .closed → o.WindowHolds options
  probes : o.breaker.state = .halfOpen → o.ProbesHold options

theorem start_valid {options : Options} (accepted : options.Accepted) : start.Valid options := by
  have positive : 0 < options.size := by
    have := accepted.window
    unfold Options.size
    omega
  refine ⟨⟨rfl, by simp [start], by simp [start]⟩, fun _ => ⟨?_, rfl⟩,
    fun probing => by cases probing⟩
  exact Window.empty_represents positive

/-! Entering a state -/

theorem counted_eq_nil {o : Ledger} (old : ∀ completion ∈ o.finished, completion.epoch < o.epoch) :
    o.counted = [] := by
  unfold counted countedIn
  rw [List.filterMap_eq_nil_iff]
  intro completion member
  rw [if_neg]
  exact fun current => (Nat.ne_of_lt (old completion member)) current.1

theorem completedWith_eq_zero {o : Ledger} (outcome : Outcome)
    (old : ∀ completion ∈ o.finished, completion.epoch < o.epoch) :
    o.completedWith outcome = 0 := by
  unfold completedWith
  rw [List.count_eq_zero]
  exact fun member => Nat.lt_irrefl _ (old _ member)

theorem outstanding_eq_zero {o : Ledger} (old : ∀ issued ∈ o.permits, issued.epoch < o.epoch) :
    o.outstanding = 0 := by
  unfold outstanding
  rw [List.countP_eq_zero]
  intro issued member
  have earlier := old issued member
  simp only [Bool.and_eq_true, decide_eq_true_eq]
  omega

theorem moved_epoch_of_enter (o : Ledger) (now : Int) {target : State}
    (changes : target ≠ o.breaker.state) (b : Breaker) :
    (o.moved (transitionLocked now target b)).epoch = o.epoch + 1 := by
  simp [moved, changes]

theorem enter_tracked {o : Ledger} (tracked : o.Tracked) (now : Int) {target : State}
    (changes : target ≠ o.breaker.state)
    {b : Breaker} (same : b.generation = o.breaker.generation) :
    (o.moved (transitionLocked now target b)).Tracked := by
  have next := moved_epoch_of_enter o now changes b
  refine ⟨?_, ?_, ?_⟩
  · rw [next]
    simp only [moved, transitionLocked_generation, same, tracked.generation, UInt64.ofNat_add]
    rfl
  · intro issued member
    rw [next]
    have earlier := (tracked.issued issued member).2.1
    exact ⟨(tracked.issued issued member).1, Nat.le_succ_of_le earlier, fun current => by omega⟩
  · intro completion member
    rw [next]
    exact Nat.le_succ_of_le (tracked.finished completion member)

theorem enter_valid {options : Options} (accepted : options.Accepted) {o : Ledger}
    (tracked : o.Tracked) (now : Int) {target : State} (changes : target ≠ o.breaker.state)
    {b : Breaker} (same : b.generation = o.breaker.generation) :
    (o.moved (transitionLocked now target b)).Valid options := by
  have positive : 0 < options.size := by
    have := accepted.window
    unfold Options.size
    omega
  have next := moved_epoch_of_enter o now changes b
  have permitsOld : ∀ issued ∈ o.permits, issued.epoch < o.epoch + 1 :=
    fun issued member => Nat.lt_succ_of_le (tracked.issued issued member).2.1
  have finishedOld : ∀ completion ∈ o.finished, completion.epoch < o.epoch + 1 :=
    fun completion member => Nat.lt_succ_of_le (tracked.finished completion member)
  refine ⟨enter_tracked tracked now changes same, fun closed => ?_, fun probing => ?_⟩
  · have target_eq : target = .closed := by simpa [moved] using closed
    subst target_eq
    refine ⟨?_, rfl⟩
    rw [counted_eq_nil (by rw [next]; exact finishedOld)]
    exact Window.empty_represents positive
  · have target_eq : target = .halfOpen := by simpa [moved] using probing
    subst target_eq
    have room := accepted.probes
    refine ⟨?_, ?_, ?_, ?_, completedWith_eq_zero _ (by rw [next]; exact finishedOld)⟩
    · rw [outstanding_eq_zero (by rw [next]; exact permitsOld)]; rfl
    · simp only [moved, transitionLocked]; omega
    · rw [completedWith_eq_zero _ (by rw [next]; exact finishedOld)]; rfl
    · simp only [moved, transitionLocked]; omega

/-! Issuing and completing permits -/

theorem advance_valid {options : Options} (accepted : options.Accepted) {o : Ledger}
    (valid : o.Valid options) (now : Int) :
    (o.moved (advanceLocked options now o.breaker).1).Valid options := by
  rcases advanceLocked_cases options now o.breaker with ⟨still, _⟩ | ⟨opened, _, entered⟩
  · rw [still]
    simpa [moved] using valid
  · rw [entered]
    have changes : State.halfOpen ≠ o.breaker.state := by rw [opened]; decide
    exact enter_valid accepted valid.tracked now changes rfl

theorem issue_tracked {o : Ledger} (tracked : o.Tracked) :
    ({ o with breaker := occupied o.breaker }.issue ⟨o.breaker.state, o.breaker.generation,
        false⟩).Tracked := by
  have state := occupied_state o.breaker
  refine ⟨(occupied_generation _).trans tracked.generation, ?_, tracked.finished⟩
  intro issued member
  simp only [issue, List.mem_append, List.mem_singleton] at member
  rcases member with member | rfl
  · exact ⟨(tracked.issued issued member).1, (tracked.issued issued member).2.1,
      fun current => ((tracked.issued issued member).2.2 current).trans state.symm⟩
  · exact ⟨tracked.generation, Nat.le_refl _, fun _ => state.symm⟩

theorem issue_valid {options : Options} {o : Ledger} (valid : o.Valid options)
    (room : ¬ Full options o.breaker) :
    ({ o with breaker := occupied o.breaker }.issue ⟨o.breaker.state, o.breaker.generation,
        false⟩).Valid options := by
  refine ⟨issue_tracked valid.tracked, ?_, ?_⟩
  · intro closed
    have notHalf : o.breaker.state ≠ .halfOpen := by
      intro half
      simp [issue, occupied, half] at closed
    have unchanged : occupied o.breaker = o.breaker := if_neg notHalf
    simp only [issue, unchanged] at closed ⊢
    exact ⟨(valid.window closed).window, (valid.window closed).failures⟩
  · intro probing
    have half : o.breaker.state = .halfOpen := by
      by_contra other
      rw [issue, occupied, if_neg other] at probing
      exact other probing
    have holds := valid.probes half
    have below : (o.breaker.halfOpenActive : Int) < options.halfOpenMaxRequests := by
      by_contra full
      exact room (Or.inr ⟨half, not_lt.mp full⟩)
    have slot : occupied o.breaker =
        { o.breaker with halfOpenActive := o.breaker.halfOpenActive + 1 } :=
      if_pos half
    refine ⟨?_, ?_, ?_, ?_, holds.unfailed⟩
    · simp [issue, slot, outstanding, List.countP_append, holds.active]
    · simp only [issue, slot]
      omega
    · simp only [slot]
      exact holds.passed
    · simp only [issue, slot]
      exact holds.pending

theorem mark_tracked {o : Ledger} (tracked : o.Tracked) {index : Nat} {issued : Issued}
    (found : o.permits[index]? = some issued) (outcome : Outcome) :
    (o.mark index issued outcome).Tracked := by
  have member := List.mem_of_getElem? found
  refine ⟨tracked.generation, ?_, ?_⟩
  · intro other inside
    rcases List.mem_or_eq_of_mem_set inside with old | rfl
    · exact tracked.issued other old
    · exact tracked.issued issued member
  · intro completion inside
    simp only [mark, List.mem_append, List.mem_singleton] at inside
    rcases inside with old | rfl
    · exact tracked.finished completion old
    · exact (tracked.issued issued member).2.1

section Marking

variable {o : Ledger} {index : Nat} {issued : Issued}

theorem countP_mark (test : Issued → Bool) (found : o.permits[index]? = some issued)
    (outcome : Outcome) (unspent : issued.permit.spent = false) :
    o.permits.countP (fun issued => test issued && !issued.permit.spent) =
      (o.mark index issued outcome).permits.countP
      (fun issued => test issued && !issued.permit.spent) + (if test issued then 1 else 0) := by
  obtain ⟨inside, same⟩ := List.getElem?_eq_some_iff.mp found
  unfold mark
  simp only
  rw [List.countP_set inside, same]
  by_cases tested : test issued = true
  · have positive : 0 < o.permits.countP fun issued => test issued && !issued.permit.spent :=
      List.countP_pos_iff.mpr ⟨issued, List.mem_of_getElem? found, by simp [tested, unspent]⟩
    simp only [tested, unspent, Bool.not_false, Bool.not_true, Bool.and_self, Bool.and_false,
      if_true, Bool.false_eq_true, if_false]
    omega
  · simp [tested]

theorem outstanding_mark (found : o.permits[index]? = some issued)
    (unspent : issued.permit.spent = false) (outcome : Outcome) :
    o.outstanding = (o.mark index issued outcome).outstanding + (if issued.epoch = o.epoch then 1
      else 0) := by
  have counts := countP_mark (fun issued => decide (issued.epoch = o.epoch)) found outcome unspent
  simp only [decide_eq_true_eq] at counts
  exact counts

theorem completedWith_mark (index : Nat) (issued : Issued) (outcome wanted : Outcome) :
    (o.mark index issued outcome).completedWith wanted =
      o.completedWith wanted + (if issued.epoch = o.epoch ∧ outcome = wanted then 1 else 0) := by
  have same : ((⟨issued.epoch, outcome⟩ : Completion) = ⟨o.epoch, wanted⟩) ↔
      issued.epoch = o.epoch ∧ outcome = wanted := by rw [Completion.mk.injEq]
  simp only [completedWith, mark, List.count_append, List.count_singleton, beq_iff_eq, same]

theorem counted_mark (index : Nat) (issued : Issued) (outcome : Outcome) :
    (o.mark index issued outcome).counted = o.counted ++ (if issued.epoch = o.epoch ∧
      outcome ≠ .ignored then [decide (outcome = .success)] else []) := by
  rw [counted, counted, countedIn, mark, List.filterMap_append]
  congr 1
  by_cases current : issued.epoch = o.epoch ∧ outcome ≠ .ignored
  · rw [if_pos current]
    exact List.filterMap_cons_some (if_pos current)
  · rw [if_neg current]
    exact List.filterMap_cons_none (if_neg current)

/-- The check of `complete` tells the permits of the current epoch from all
others, as long as the epochs are less than `2 ^ 64` apart. -/
theorem current_iff (tracked : o.Tracked) (found : o.permits[index]? = some issued)
    (recent : o.epoch < issued.epoch + 2 ^ 64) :
    (issued.permit.generation ≠ o.breaker.generation ∨ issued.permit.state ≠ o.breaker.state) ↔
      issued.epoch ≠ o.epoch := by
  obtain ⟨generation, le, state⟩ := tracked.issued issued (List.mem_of_getElem? found)
  constructor
  · rintro (differs | differs) same
    · exact differs (by rw [generation, same, tracked.generation])
    · exact differs (state same)
  · intro differs
    refine Or.inl fun same => differs ?_
    rw [generation, tracked.generation] at same
    have residues := congrArg UInt64.toNat same
    simp only [UInt64.toNat_ofNat'] at residues
    omega

theorem mark_valid_of_stale {options : Options} (valid : o.Valid options)
    (found : o.permits[index]? = some issued) (unspent : issued.permit.spent = false)
    (stale : issued.epoch ≠ o.epoch) (outcome : Outcome) :
    (o.mark index issued outcome).Valid options := by
  have outstanding := outstanding_mark found unspent outcome
  have completed := completedWith_mark (o := o) index issued outcome
  have counted := counted_mark (o := o) index issued outcome
  simp only [stale, false_and, if_false, Nat.add_zero,
    List.append_nil] at outstanding completed counted
  refine ⟨mark_tracked valid.tracked found outcome, fun closed => ?_, fun probing => ?_⟩
  · have holds := valid.window closed
    exact ⟨by rw [counted]; exact holds.window, holds.failures⟩
  · have holds := valid.probes probing
    exact ⟨by rw [← outstanding]; exact holds.active,
      holds.bounded, by rw [completed]; exact holds.passed,
      holds.pending, by rw [completed]; exact holds.unfailed⟩

theorem record_holds {options : Options} (accepted : options.Accepted)
    (holds : o.WindowHolds options) (success : Bool) :
    (recordLocked options success o.breaker).window.Represents options.size
      (o.counted ++ [success]) ∧
    (recordLocked options success o.breaker).failures =
      ((recordLocked options success o.breaker).outcomes.countP (!·) : Int) :=
  recordLocked_represents accepted.window holds.window holds.failures success

theorem finish_closed_valid {options : Options} (accepted : options.Accepted)
    (valid : o.Valid options) (found : o.permits[index]? = some issued)
    (current : issued.epoch = o.epoch)
    (fresh : ¬ (issued.permit.generation ≠ o.breaker.generation ∨
        issued.permit.state ≠ o.breaker.state))
    (closed : o.breaker.state = .closed) (outcome : Outcome) (now : Int) :
    ((o.mark index issued outcome).moved
        (complete options now issued.permit.state issued.permit.generation outcome
          o.breaker).1).Valid options := by
  have tracked := mark_tracked valid.tracked found outcome
  have counted := counted_mark (o := o) index issued outcome
  have holds := valid.window closed
  by_cases ignored : outcome = .ignored
  · subst ignored
    rw [complete_closed fresh _ closed, completeClosed, if_pos rfl]
    simp only [ne_eq, not_true_eq_false, and_false, if_false, List.append_nil] at counted
    refine ⟨by simpa [moved, mark] using tracked, fun _ => ⟨?_, holds.failures⟩, fun probing => ?_⟩
    · simpa [moved, mark, ← counted] using holds.window
    · simp [moved, closed] at probing
  · rw [complete_closed fresh _ closed, completeClosed_of_counts ignored]
    -- A tripping failure empties the window with the change of state.
    split
    · refine enter_valid accepted tracked now ?_ (recordLocked_generation _ _ _)
      rw [show (o.mark index issued outcome).breaker.state = .closed from closed]
      decide
    · have state := recordLocked_state options (outcome = .success) o.breaker
      have recorded := record_holds accepted holds (decide (outcome = .success))
      rw [if_pos ⟨current, ignored⟩] at counted
      refine ⟨⟨?_, ?_, ?_⟩, fun _ => ⟨?_, recorded.2⟩, fun probing => ?_⟩
      · simpa [moved, mark] using tracked.generation
      · simpa [moved, mark] using tracked.issued
      · simpa [moved, mark] using tracked.finished
      · rw [← counted] at recorded
        simpa [moved, mark, Ledger.counted] using recorded.1
      · simp [moved, closed] at probing

theorem vacated_of_probe {options : Options} (holds : o.ProbesHold options)
    (found : o.permits[index]? = some issued) (unspent : issued.permit.spent = false)
    (current : issued.epoch = o.epoch) (outcome : Outcome) :
    vacated o.breaker =
      { o.breaker with halfOpenActive := (o.mark index issued outcome).outstanding } ∧
    o.breaker.halfOpenActive = (o.mark index issued outcome).outstanding + 1 := by
  have slots := outstanding_mark found unspent outcome
  rw [if_pos current, ← holds.active] at slots
  refine ⟨?_, slots⟩
  rw [vacated, if_pos (by omega), slots, Nat.add_sub_cancel]

theorem moved_of_state {b : Breaker} (same : b.state = o.breaker.state) :
    o.moved b = { o with breaker := b } := by
  rw [moved, if_pos same]

theorem stay_halfOpen_valid {options : Options} (tracked : o.Tracked)
    (half : o.breaker.state = .halfOpen) {b : Breaker} (state : b.state = o.breaker.state)
    (generation : b.generation = o.breaker.generation)
    (probes : { o with breaker := b }.ProbesHold options) : (o.moved b).Valid options := by
  rw [moved_of_state state]
  refine ⟨⟨generation.trans tracked.generation, ?_, tracked.finished⟩, fun closed => ?_,
    fun _ => probes⟩
  · intro issued member
    have known := tracked.issued issued member
    exact ⟨known.1, known.2.1, fun current => (known.2.2 current).trans state.symm⟩
  · rw [show b.state = .closed from closed, half] at state
    cases state

theorem finish_halfOpen_valid {options : Options} (accepted : options.Accepted)
    (valid : o.Valid options) (found : o.permits[index]? = some issued)
    (unspent : issued.permit.spent = false) (current : issued.epoch = o.epoch)
    (fresh : ¬ (issued.permit.generation ≠ o.breaker.generation ∨
        issued.permit.state ≠ o.breaker.state))
    (half : o.breaker.state = .halfOpen) (outcome : Outcome) (now : Int) :
    ((o.mark index issued outcome).moved
        (complete options now issued.permit.state issued.permit.generation outcome
          o.breaker).1).Valid options := by
  have tracked := mark_tracked valid.tracked found outcome
  have holds := valid.probes half
  have completed := completedWith_mark (o := o) index issued outcome
  obtain ⟨slot, active⟩ := vacated_of_probe holds found unspent current outcome
  have markHalf : (o.mark index issued outcome).breaker.state = .halfOpen := half
  have bounded := holds.bounded
  rw [complete_halfOpen fresh _ half]
  -- A failure leaves half-open, a success may, and an ignored outcome only frees its slot.
  cases outcome with
  | failure =>
      have changes : State.open ≠ (o.mark index issued .failure).breaker.state := by
        rw [markHalf]; decide
      refine enter_valid accepted tracked now changes ?_
      rw [slot]
      rfl
  | ignored =>
      have succeeded := completed .success
      have failed := completed .failure
      simp only [reduceCtorEq, and_false, if_false, Nat.add_zero] at succeeded failed
      rw [show (completeHalfOpen options now .ignored o.breaker).1 =
        vacated o.breaker from rfl, slot]
      refine stay_halfOpen_valid tracked markHalf rfl rfl ⟨rfl, ?_, ?_, holds.pending, ?_⟩
      · simp only
        omega
      · exact holds.passed.trans succeeded.symm
      · exact failed.trans holds.unfailed
  | success =>
      have succeeded := completed .success
      have failed := completed .failure
      simp only [current, reduceCtorEq, and_false, and_self, if_false, if_true,
        Nat.add_zero] at succeeded failed
      rw [completeHalfOpen_success]
      have passed : passedOne o.breaker = { o.breaker with
          halfOpenActive := (o.mark index issued .success).outstanding
          halfOpenPassed := o.breaker.halfOpenPassed + 1 } := by rw [passedOne, slot]
      rw [passed]
      split
      · have changes : State.closed ≠ (o.mark index issued .success).breaker.state := by
          rw [markHalf]; decide
        exact enter_valid accepted tracked now changes rfl
      · next below =>
        refine stay_halfOpen_valid tracked markHalf rfl rfl ⟨rfl, ?_, ?_, not_le.mp below, ?_⟩
        · simp only
          omega
        · exact (congrArg (· + 1) holds.passed).trans succeeded.symm
        · exact failed.trans holds.unfailed

theorem finish_valid {options : Options} (accepted : options.Accepted) (valid : o.Valid options)
    (outcome : Outcome) (now : Int) (timely : o.Timely (.done index outcome now)) :
    (o.finish options now outcome index).Valid options := by
  unfold finish
  cases found : o.permits[index]? with
  | none => exact valid
  | some issued =>
      simp only
      split
      · exact valid
      · next live =>
        have unspent : issued.permit.spent = false := Bool.not_eq_true _ ▸ live
        have test := current_iff valid.tracked found (timely issued found unspent)
        by_cases current : issued.epoch = o.epoch
        · have fresh := mt test.mp (not_not.mpr current)
          cases state : o.breaker.state with
          | closed => exact finish_closed_valid accepted valid found current fresh state outcome now
          | halfOpen =>
              exact finish_halfOpen_valid accepted valid found unspent current fresh state
                outcome now
          | «open» =>
              rw [complete_open fresh _ state]
              refine ⟨by simpa [moved, mark] using mark_tracked valid.tracked found outcome,
                ?_, ?_⟩ <;>
                simp [moved, state]
        · rw [complete_stale _ (test.mpr current)]
          simpa [moved, mark] using mark_valid_of_stale valid found unspent current outcome

end Marking

theorem step_valid {options : Options} (accepted : options.Accepted) {o : Ledger}
    (valid : o.Valid options) {call : Call} (timely : o.Timely call) :
    (o.step options call).Valid options := by
  cases call with
  | state now => exact advance_valid accepted valid now
  | available now => exact advance_valid accepted valid now
  | done index outcome now => exact finish_valid accepted valid outcome now timely
  | allow now =>
      have advanced := advance_valid accepted valid now
      rcases allow_cases options now o.breaker with ⟨_, breaker, refused⟩ | ⟨room, breaker, permit⟩
      · simp only [step, refused, breaker]
        exact advanced
      · simp only [step, permit, breaker]
        simpa [moved, issue] using issue_valid advanced room

theorem run_valid {options : Options} (accepted : options.Accepted) (calls : List Call) {o : Ledger}
    (valid : o.Valid options) (timely : TimelyRun options o calls) :
    (o.run options calls).Valid options := by
  induction calls generalizing o with
  | nil => exact valid
  | cons call calls ih => exact ih (step_valid accepted valid timely.1) timely.2

end Ledger

end ModelGate.CircuitBreaker
