import ModelGate.CircuitBreaker.Invariant

/-! The closed breaker against its sliding-window specification.

The specification is stated over the completions a run observed: the window is
the last part of what counts since the breaker closed, and the breaker opens
when enough of a large enough window failed. `generation` wraps, so a permit
held across exactly `2 ^ 64` transitions counts again; the refinement is for
the runs in which no permit's first completion comes that late.
-/

set_option autoImplicit false

namespace ModelGate.CircuitBreaker

open Data Numeric

def Reached (options : Options) (ratio : ℚ) (window : List Bool) : Prop :=
  options.minimumRequests ≤ window.length ∧ ratio ≤ (window.count false : ℚ) / (window.length : ℚ)

namespace Ledger

/-- The first completion of a permit issued since the last transition, with an
outcome that is not ignored. -/
def Counts (o : Ledger) (index : Nat) (outcome : Outcome) : Prop :=
  outcome ≠ .ignored ∧
    ∃ issued, o.permits[index]? = some issued ∧ issued.permit.spent = false ∧ issued.epoch = o.epoch

/-- A closed breaker stores exactly the last `WindowSize` counted outcomes. -/
def WindowExact (options : Options) (o : Ledger) : Prop :=
  o.breaker.state = .closed →
    o.breaker.outcomes.rotate o.breaker.next = o.counted.rtake options.size ∧
    (o.breaker.outcomes.length : Int) ≤ options.windowSize ∧
    (o.breaker.next : Int) < options.windowSize ∧
    o.breaker.failures = (o.counted.rtake options.size).count false

/-- A completion opens a closed breaker exactly when it counts and the window
that then includes it reaches the threshold. -/
def TripsExactly (options : Options) (ratio : ℚ) (o : Ledger) (index : Nat) (outcome : Outcome)
    (now : Int) : Prop :=
  o.breaker.state = .closed →
    ((o.step options (.done index outcome now)).breaker.state = .open ↔
      o.Counts index outcome ∧
        Reached options ratio ((o.counted ++ [decide (outcome = .success)]).rtake options.size))

theorem countP_not_eq_count (values : List Bool) : values.countP (!·) = values.count false := by
  rw [List.count]
  congr 1
  funext value
  cases value <;> rfl

theorem windowExact_of_valid {options : Options} {o : Ledger} (valid : o.Valid options) :
    o.WindowExact options := by
  intro closed
  have holds := valid.window closed
  have read : o.breaker.outcomes.rotate o.breaker.next = o.counted.rtake options.size :=
    holds.window.contents
  have positive : 0 < options.size := Nat.lt_of_le_of_lt (Nat.zero_le _) holds.window.cursor
  have width : (options.size : Int) = options.windowSize := by
    unfold Options.size at positive ⊢
    omega
  refine ⟨read, ?_, ?_, ?_⟩
  · rw [← width]
    exact_mod_cast holds.window.bounded
  · rw [← width]
    exact_mod_cast holds.window.cursor
  · rw [holds.failures, countP_not_eq_count, ← read, (List.rotate_perm _ _).count_eq]

theorem tripped_iff {options : Options} {ratio : ℚ}
    (exact : options.failureRatio.toRat? = some ratio) {b : Breaker} {history : List Bool}
    (holds : b.window.Represents options.size history)
    (failures : b.failures = (b.outcomes.countP (!·) : Int)) :
    tripped options b = true ↔ Reached options ratio (history.rtake options.size) := by
  have read : b.outcomes.rotate b.next = history.rtake options.size := holds.contents
  have width : (history.rtake options.size).length = b.outcomes.length := by
    rw [← read, List.length_rotate]
  have failed : (history.rtake options.size).count false = b.outcomes.countP (!·) := by
    rw [← read, (List.rotate_perm _ _).count_eq, countP_not_eq_count]
  rw [Reached, width, failed, tripped, Bool.and_eq_true, decide_eq_true_eq,
    Float64.le_of_toRat exact (Float64.toRat_ofRat _), decide_eq_true_eq, failures,
    Int.cast_natCast]

theorem tripsExactly_of_valid {options : Options} (accepted : options.Accepted) {ratio : ℚ}
    (exact : options.failureRatio.toRat? = some ratio) {o : Ledger} (valid : o.Valid options)
    (index : Nat) (outcome : Outcome) (now : Int) (timely : o.Timely (.done index outcome now)) :
    o.TripsExactly options ratio index outcome now := by
  intro closed
  simp only [step, finish]
  cases found : o.permits[index]? with
  | none => simp [Counts, found, closed]
  | some issued =>
      by_cases spent : issued.permit.spent = true
      · simp [Counts, found, spent, closed]
      have unspent : issued.permit.spent = false := Bool.not_eq_true _ ▸ spent
      have test := current_iff valid.tracked found (timely issued found unspent)
      simp only [spent, if_false, Bool.false_eq_true]
      by_cases current : issued.epoch = o.epoch
      · rw [complete_closed (mt test.mp (not_not.mpr current)) _ closed]
        by_cases ignored : outcome = .ignored
        · simp [moved, completeClosed, ignored, Counts, closed]
        · obtain ⟨window, failures⟩ :=
            record_holds accepted (valid.window closed) (decide (outcome = .success))
          have test := tripped_iff exact window failures
          have counts : o.Counts index outcome := ⟨ignored, issued, found, unspent, current⟩
          rw [completeClosed_of_counts ignored, ← test]
          by_cases trips :
            tripped options (recordLocked options (decide (outcome = .success)) o.breaker) = true
          · simp [moved, trips, counts]
          · simp [moved, trips, closed]
      · rw [complete_stale _ (test.mpr current)]
        simp [moved, Counts, found, current, closed]

end Ledger

/-- Over every run in which no permit is first completed `2 ^ 64` or more
transitions after its issue, the closed breaker is its sliding window. -/
theorem closed_refines_window {options : Options} {b : Breaker} {ratio : ℚ}
    (built : New options = .ok b) (exact : options.failureRatio.toRat? = some ratio)
    (calls : List Call) (timely : Ledger.TimelyRun options .start calls) :
    (Ledger.start.run options calls).WindowExact options ∧
    ∀ index outcome now, (Ledger.start.run options calls).Timely (.done index outcome now) →
    (Ledger.start.run options calls).TripsExactly options ratio index outcome now := by
  have accepted := (accepted_of_new built).1
  have valid := Ledger.run_valid accepted calls (Ledger.start_valid accepted) timely
  exact ⟨Ledger.windowExact_of_valid valid, fun index outcome now late =>
    Ledger.tripsExactly_of_valid accepted exact valid index outcome now late⟩

/-- A window of two that holds a success and a failure. The next failure takes
the place of the success, and the window of failures opens the breaker. -/
theorem closed_refines_window_evicting :
    let options : Options := ⟨2, 2, .ofRat 1, 1, 1⟩
    let o := Ledger.start.run options [.allow 0, .allow 0, .allow 0, .done 0 .success 0,
      .done 1 .failure 0]
    o.counted = [true, false] ∧ o.WindowExact options ∧ o.TripsExactly options 1 2 .failure 0 ∧
      (o.step options (.done 2 .failure 0)).breaker.state = .open := by
  intro options o
  have built : New options = .ok initialBreaker := by decide +kernel
  have refined := closed_refines_window built (Float64.toRat_ofRat 1)
    [.allow 0, .allow 0, .allow 0, .done 0 .success 0, .done 1 .failure 0]
    (Ledger.timelyRun_of_epoch_lt _ (by decide +kernel))
  refine ⟨by decide +kernel, refined.1, refined.2 2 .failure 0 ?_, by decide +kernel⟩
  intro issued _ _
  exact Nat.lt_of_lt_of_le (by decide +kernel : o.epoch < 2 ^ 64) (Nat.le_add_left _ _)

/-! A permit that outlives the counter

The smallest window trips on one failure and recovers on one probe. Keeping it
half-open by failing probes moves `generation` by two a round, so a permit of
generation zero meets the same generation again in a later closed period.
-/

/-- Opens, closes, opens again and admits a probe; permit 0 is never completed. -/
def opening : List Call :=
  [.allow 0, .allow 0, .done 1 .failure 0, .allow 1, .done 2 .success 1, .allow 1,
    .done 3 .failure 0, .allow 1]

/-- The probe fails and, after the timeout, the next one is admitted. -/
def failedProbe (round : Nat) : List Call := [.done (round + 4) .failure 0, .allow 1]

def failedProbes : Nat → List Call
  | 0 => []
  | rounds + 1 => failedProbes rounds ++ failedProbe rounds

/-- After the failed probes one succeeds and the breaker closes. -/
def closing (rounds : Nat) : List Call :=
  opening ++ failedProbes rounds ++ [.done (rounds + 4) .success 1]

/-- A ledger that waits for its probe `round + 4`, with permit 0 unspent. -/
structure AwaitsProbe (round : Nat) (o : Ledger) : Prop where
  state : o.breaker.state = .halfOpen
  passed : o.breaker.halfOpenPassed = 0
  epoch : o.epoch = 2 * round + 5
  generation : o.breaker.generation = UInt64.ofNat o.epoch
  length : o.permits.length = round + 5
  probe : o.permits[round + 4]? = some ⟨⟨.halfOpen, o.breaker.generation, false⟩, o.epoch⟩
  held : o.permits[0]? = some ⟨⟨.closed, 0, false⟩, 0⟩

theorem opening_awaits : AwaitsProbe 0 (Ledger.start.run smallest opening) := by
  constructor <;> decide +kernel

theorem AwaitsProbe.done_eq {round : Nat} {o : Ledger} (awaits : AwaitsProbe round o)
    (outcome : Outcome) (now : Int) :
    o.step smallest (.done (round + 4) outcome now) =
      (o.mark (round + 4) ⟨⟨.halfOpen, o.breaker.generation, false⟩, o.epoch⟩ outcome).moved
      (completeHalfOpen smallest now outcome o.breaker).1 := by
  have fresh : ¬ (o.breaker.generation ≠ o.breaker.generation ∨
      State.halfOpen ≠ o.breaker.state) := by
    simp [awaits.state]
  simp only [Ledger.step, Ledger.finish, awaits.probe, Bool.false_eq_true, if_false]
  rw [complete_halfOpen fresh _ awaits.state]

theorem AwaitsProbe.failed {round : Nat} {o : Ledger} (awaits : AwaitsProbe round o) :
    let opened := o.step smallest (.done (round + 4) .failure 0)
    opened.breaker.state = .open ∧ opened.breaker.openedAt = 0 ∧ opened.epoch = o.epoch + 1 ∧
    opened.breaker.generation = o.breaker.generation + 1 ∧
    opened.permits = o.permits.set (round + 4) ⟨⟨.halfOpen, o.breaker.generation, true⟩,
      o.epoch⟩ := by
  intro opened
  have shape : opened = _ := awaits.done_eq .failure 0
  rw [shape]
  refine ⟨rfl, rfl, ?_, ?_, rfl⟩
  · simp [Ledger.moved, Ledger.mark, completeHalfOpen, awaits.state]
  · simp [Ledger.moved, completeHalfOpen]

theorem allow_after_opening {o : Ledger} (opened : o.breaker.state = .open)
    (zero : o.breaker.openedAt = 0) :
    let probing := o.step smallest (.allow 1)
    probing.breaker.state = .halfOpen ∧ probing.breaker.halfOpenPassed = 0 ∧
      probing.epoch = o.epoch + 1 ∧
    probing.breaker.generation = o.breaker.generation + 1 ∧
    probing.permits =
      o.permits ++ [⟨⟨.halfOpen, o.breaker.generation + 1, false⟩, o.epoch + 1⟩] := by
  intro probing
  have advances : advanceLocked smallest 1 o.breaker =
      (transitionLocked 1 .halfOpen o.breaker, true) := by
    rcases advanceLocked_cases smallest 1 o.breaker with ⟨_, early⟩ | ⟨_, _, advances⟩
    · have due := early opened
      rw [zero] at due
      exact absurd due (by decide)
    · exact advances
  have room : ¬ Full smallest (transitionLocked 1 .halfOpen o.breaker) := by
    simp [Full, transitionLocked, smallest]
  rcases allow_cases smallest 1 o.breaker with ⟨full, _, _⟩ | ⟨_, breaker, permit⟩
  · rw [advances] at full
    exact absurd full room
  · rw [advances] at breaker permit
    have shape : probing = (o.moved (occupied (transitionLocked 1 .halfOpen o.breaker))).issue
        ⟨.halfOpen, o.breaker.generation + 1, false⟩ := by
      simp only [probing, Ledger.step, breaker, permit]
      rfl
    have epoch : (o.moved (occupied (transitionLocked 1 .halfOpen o.breaker))).epoch =
        o.epoch + 1 := by
      simp [Ledger.moved, occupied, transitionLocked, opened]
    rw [shape]
    exact ⟨rfl, rfl, epoch, rfl, by rw [Ledger.issue, epoch]; rfl⟩

theorem failedProbe_awaits {round : Nat} {o : Ledger} (awaits : AwaitsProbe round o) :
    AwaitsProbe (round + 1) (o.run smallest (failedProbe round)) := by
  obtain ⟨opened, zero, epoch, generation, permits⟩ := awaits.failed
  obtain ⟨state, passed, epoch', generation', permits'⟩ := allow_after_opening opened zero
  have width := awaits.length
  change AwaitsProbe (round + 1) ((o.step smallest (.done (round + 4) .failure 0)).step smallest
    (.allow 1))
  rw [permits, generation, epoch] at permits'
  refine ⟨state, passed, ?_, ?_, ?_, ?_, ?_⟩
  · rw [epoch', epoch, awaits.epoch]; omega
  · rw [generation', generation, epoch', epoch, awaits.generation, UInt64.ofNat_add,
      UInt64.ofNat_add]; rfl
  · rw [permits']; simp [width]
  · rw [permits', generation', generation, epoch', epoch, List.getElem?_append_right
      (by simp [width])]
    simp [width]
  · rw [permits', List.getElem?_append_left (by simp [width]), List.getElem?_set_ne (by omega)]
    exact awaits.held

theorem failedProbes_awaits (rounds : Nat) :
    AwaitsProbe rounds (Ledger.start.run smallest (opening ++ failedProbes rounds)) := by
  induction rounds with
  | zero => simpa [failedProbes] using opening_awaits
  | succ rounds ih =>
      have next := failedProbe_awaits ih
      rwa [← Ledger.run_append, List.append_assoc] at next

theorem closing_closes (rounds : Nat) :
    let o := Ledger.start.run smallest (closing rounds)
    o.breaker.state = .closed ∧ o.breaker.outcomes = [] ∧ o.breaker.failures = 0 ∧
    o.breaker.generation = UInt64.ofNat (2 * rounds + 6) ∧ o.epoch = 2 * rounds + 6 ∧
    o.permits[0]? = some ⟨⟨.closed, 0, false⟩, 0⟩ := by
  have awaits := failedProbes_awaits rounds
  rw [closing, Ledger.run_append, Ledger.run_singleton]
  generalize Ledger.start.run smallest (opening ++ failedProbes rounds) = o at awaits ⊢
  rw [awaits.done_eq .success 1]
  have passed : (passedOne o.breaker).halfOpenPassed = 1 := by simp [passedOne, awaits.passed]
  have generation : (passedOne o.breaker).generation = o.breaker.generation := vacated_generation _
  have closed := completeHalfOpen_success smallest 1 o.breaker
  rw [if_pos (by rw [passed]; decide)] at closed
  rw [closed]
  refine ⟨rfl, rfl, rfl, ?_, ?_, ?_⟩
  · simp only [Ledger.moved, transitionLocked_generation, generation, awaits.generation,
      awaits.epoch]
    rw [show 2 * rounds + 6 = 2 * rounds + 5 + 1 from rfl, UInt64.ofNat_add (2 * rounds + 5) 1]
    rfl
  · simp [Ledger.moved, Ledger.mark, awaits.state, awaits.epoch]
  · simp only [Ledger.moved, Ledger.mark]
    rw [List.getElem?_set_ne (by omega)]
    exact awaits.held

theorem failure_trips {b : Breaker} (outcomes : b.outcomes = []) (failures : b.failures = 0) :
    tripped smallest (recordLocked smallest false b) = true := by
  have recorded : recordLocked smallest false b =
      { b with outcomes := [false], failures := 1 } := by
    simp [recordLocked, outcomes, failures, smallest]
  rw [recorded]
  change (decide ((1 : Int) ≥ 1) && (Float64.ofRat 1).le
    (.ofRat (((1 : Int) : ℚ) / ((1 : Nat) : ℚ)))) = true
  decide +kernel

/-- When the epoch is a multiple of `2 ^ 64`, the first permit counts again. -/
theorem late_permit_trips {rounds : Nat} (wraps : 2 * rounds + 6 = 2 ^ 64) :
    ¬ (Ledger.start.run smallest (closing rounds)).TripsExactly smallest 1 0 .failure 0 := by
  intro exactly
  obtain ⟨closed, outcomes, failures, generation, epoch, held⟩ := closing_closes rounds
  generalize Ledger.start.run smallest (closing rounds) =
    o at closed outcomes failures generation epoch held exactly
  rw [wraps] at generation epoch
  have opens : (o.step smallest (.done 0 .failure 0)).breaker.state = .open := by
    have current : ¬ ((0 : UInt64) ≠ o.breaker.generation ∨ State.closed ≠ o.breaker.state) := by
      rw [generation, closed]
      decide
    simp only [Ledger.step, Ledger.finish, held, Bool.false_eq_true, if_false]
    rw [complete_closed current _ closed, completeClosed_of_counts (by decide)]
    exact congrArg Breaker.state (if_pos (failure_trips outcomes failures))
  obtain ⟨⟨_, issued, found, _, current⟩, _⟩ := (exactly closed).mp opens
  rw [held] at found
  cases found
  rw [epoch] at current
  exact absurd current (by decide)

/-- Over runs of any length the refinement fails: a permit of the first closed
period opens the breaker `2 ^ 64` transitions later, on an empty window. -/
theorem not_closed_refines_window : ¬ ∀ (options : Options) (b : Breaker) (ratio : ℚ), New options =
      .ok b → options.failureRatio.toRat? = some ratio →
    ∀ calls, (Ledger.start.run options calls).WindowExact options ∧
    ∀ index outcome now, (Ledger.start.run options calls).TripsExactly options ratio index
      outcome now := by
  intro refines
  have wraps : 2 * (2 ^ 63 - 3) + 6 = 2 ^ 64 := by decide
  exact late_permit_trips wraps ((refines smallest initialBreaker 1 (by decide +kernel)
    (Float64.toRat_ofRat 1) (closing (2 ^ 63 - 3))).2 0 .failure 0)

end ModelGate.CircuitBreaker
