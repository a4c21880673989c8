import ModelGate.CircuitBreaker.Invariant

/-! Admission and half-open accounting, over every run with fewer than
`2 ^ 64` transitions. Clock readings are unconstrained: none of the results
needs them to be monotone.
-/

set_option autoImplicit false

namespace ModelGate.CircuitBreaker

def Call.now : Call → Int
  | .allow now => now
  | .state now => now
  | .available now => now
  | .done _ _ now => now

theorem allow_isSome_iff (options : Options) (now : Int) (b : Breaker) :
    (allow options now b).2.1.isSome = true ↔ ¬ Full options (advanceLocked options now b).1 := by
  rcases allow_cases options now b with ⟨full, _, refused⟩ | ⟨room, _, permit⟩
  · simp [refused, full]
  · simp [permit, room]

/-- `Allow` and `Available` ask the same question of the same reading. -/
theorem allow_iff_available (options : Options) (now : Int) (b : Breaker) :
    (allow options now b).2.1.isSome = true ↔ (available options now b).2.1 = true := by
  rw [allow_isSome_iff, available_eq]

/-- The saturating difference of `Time.Sub` does not reach a positive timeout early. -/
theorem due_of_timeSub {now opened timeout : Int} (positive : 0 < timeout)
    (due : timeout ≤ timeSub now opened) : opened + timeout ≤ now := by
  unfold timeSub minDuration maxDuration at due
  omega

theorem advanceLocked_of_early {options : Options} (positive : 0 < options.openTimeout)
    {b : Breaker} {now : Int} (early : now < b.openedAt + options.openTimeout) :
    advanceLocked options now b = (b, false) := by
  rcases advanceLocked_cases options now b with ⟨still, _⟩ | ⟨_, due, _⟩
  · exact still
  · have := due_of_timeSub positive due
    omega

namespace Ledger

/-- The permit is of the current epoch and its `Done` has not been called. -/
def Current (o : Ledger) (index : Nat) : Prop :=
  ∃ issued, o.permits[index]? = some issued ∧ issued.permit.spent = false ∧ issued.epoch = o.epoch

theorem allow_state (options : Options) (o : Ledger) (now : Int) :
    (o.step options (.allow now)).breaker.state =
      (advanceLocked options now o.breaker).1.state := by
  rcases allow_cases options now o.breaker with ⟨_, breaker, refused⟩ | ⟨_, breaker, permit⟩
  · simp only [step, refused, breaker, moved]
  · simp only [step, permit, breaker, moved, issue]
    exact occupied_state _

theorem leaves_open {options : Options} (accepted : options.Accepted) {o : Ledger}
    (opened : o.breaker.state = .open) {call : Call}
    (left : (o.step options call).breaker.state ≠ .open) :
    (o.step options call).breaker.state = .halfOpen ∧
    o.breaker.openedAt + options.openTimeout ≤ call.now := by
  have advances : ∀ now, (advanceLocked options now o.breaker).1.state ≠ .open →
      (advanceLocked options now o.breaker).1.state = .halfOpen ∧
        o.breaker.openedAt + options.openTimeout ≤ now := by
    intro now moved
    rcases advanceLocked_cases options now o.breaker with ⟨still, _⟩ | ⟨_, due, entered⟩
    · rw [still] at moved
      exact absurd opened moved
    · rw [entered]
      exact ⟨rfl, due_of_timeSub accepted.timeout due⟩
  cases call with
  | state now => exact advances now left
  | available now => exact advances now left
  | allow now =>
      rw [allow_state] at left ⊢
      exact advances now left
  | done index outcome now =>
      -- Completions in the open state are stale or fall through the switch.
      refine absurd ?_ left
      simp only [step, finish]
      split
      · exact opened
      · next issued found =>
        split
        · exact opened
        · by_cases current : issued.permit.generation ≠ o.breaker.generation ∨
            issued.permit.state ≠ o.breaker.state
          · rw [complete_stale _ current]; exact opened
          · rw [complete_open current _ opened]; exact opened

theorem current_active {options : Options} {o : Ledger} (holds : o.ProbesHold options) {index : Nat}
    (current : o.Current index) : 0 < o.breaker.halfOpenActive := by
  obtain ⟨issued, found, unspent, epoch⟩ := current
  rw [holds.active]
  exact List.countP_pos_iff.mpr ⟨issued, List.mem_of_getElem? found, by simp [unspent, epoch]⟩

theorem finish_halfOpen_state {options : Options} {o : Ledger} (valid : o.Valid options)
    (half : o.breaker.state = .halfOpen) (index : Nat) (outcome : Outcome) (now : Int)
    (timely : o.Timely (.done index outcome now)) :
    (¬ o.Current index ∧ (o.step options (.done index outcome now)).breaker.state = .halfOpen) ∨
    (o.Current index ∧ (o.step options (.done index outcome now)).breaker.state =
      match outcome with
      | .failure => .open
      | .ignored => .halfOpen
      | .success =>
          if ((o.completedWith .success : Int) + 1) ≥ options.halfOpenMaxRequests then .closed
          else .halfOpen) := by
  simp only [step, finish]
  cases found : o.permits[index]? with
  | none => exact Or.inl ⟨by simp [Current, found], half⟩
  | some issued =>
      by_cases spent : issued.permit.spent = true
      · exact Or.inl ⟨by simp [Current, found, spent], by simpa [spent] using half⟩
      have unspent : issued.permit.spent = false := Bool.not_eq_true _ ▸ spent
      have test := current_iff valid.tracked found (timely issued found unspent)
      simp only [spent, if_false, Bool.false_eq_true]
      -- The source compares the wrapped generation and the state; up to 2^64 transitions that
      -- is to compare epochs.
      by_cases epoch : issued.epoch = o.epoch
      · refine Or.inr ⟨⟨issued, found, unspent, epoch⟩, ?_⟩
        have holds := valid.probes half
        have slot := (vacated_of_probe holds found unspent epoch outcome).1
        rw [complete_halfOpen (mt test.mp (not_not.mpr epoch)) _ half]
        cases outcome with
        | failure => rfl
        | ignored =>
            change (vacated o.breaker).state = .halfOpen
            rw [slot]
            exact half
        | success =>
            have passed : ((passedOne o.breaker).halfOpenPassed : Int) =
                (o.completedWith .success : Int) + 1 := by
              rw [passedOne, slot, ← holds.passed]
              rfl
            have state : (passedOne o.breaker).state = .halfOpen := by
              rw [passedOne, slot]
              exact half
            simp only [moved]
            rw [completeHalfOpen_success, passed]
            split
            · rfl
            · exact state
      · rw [complete_stale _ (test.mpr epoch)]
        exact Or.inl ⟨by simp [Current, found, epoch], half⟩

theorem halfOpen_stays {options : Options} {o : Ledger} (half : o.breaker.state = .halfOpen)
    {call : Call} (other : ∀ index outcome now, call ≠ .done index outcome now) :
    (o.step options call).breaker.state = .halfOpen := by
  have still : ∀ now, (advanceLocked options now o.breaker).1.state = .halfOpen := by
    intro now
    rw [advanceLocked_of_not_open (by rw [half]; decide)]
    exact half
  cases call with
  | state now => exact still now
  | available now => exact still now
  | allow now => rw [allow_state]; exact still now
  | done index outcome now => exact absurd rfl (other index outcome now)

/-- What every reachable ledger promises about admission and about probes. -/
structure Admits (options : Options) (o : Ledger) : Prop where
  /-- `Allow` returns a permit iff `Available` at the same reading is true. -/
  allow_available : ∀ now, (allow options now o.breaker).2.1.isSome = true ↔
    (available options now o.breaker).2.1 = true
  refuses_early : o.breaker.state = .open → ∀ now, now < o.breaker.openedAt + options.openTimeout →
    (allow options now o.breaker).2.1 = none
  leaves_open : o.breaker.state = .open → ∀ call, (o.step options call).breaker.state ≠ .open →
    (o.step options call).breaker.state = .halfOpen ∧
    o.breaker.openedAt + options.openTimeout ≤ call.now
  active : o.breaker.state = .halfOpen → o.breaker.halfOpenActive = o.outstanding
  active_le : o.breaker.state = .halfOpen →
    (o.breaker.halfOpenActive : Int) ≤ options.halfOpenMaxRequests
  /-- The `halfOpenActive > 0` guard of `complete` never fails. -/
  guarded : o.breaker.state = .halfOpen → ∀ index, o.Current index → 0 < o.breaker.halfOpenActive
  passed : o.breaker.state = .halfOpen → o.breaker.halfOpenPassed = o.completedWith .success
  unfailed : o.breaker.state = .halfOpen → o.completedWith .failure = 0
  reopens : o.breaker.state = .halfOpen → ∀ call, (o.step options call).breaker.state = .open ↔
    ∃ index now, call = .done index .failure now ∧ o.Current index
  closes : o.breaker.state = .halfOpen → ∀ call, (o.step options call).breaker.state = .closed ↔
    ∃ index now, call = .done index .success now ∧ o.Current index ∧
      (o.completedWith .success : Int) + 1 = options.halfOpenMaxRequests
  /-- With every current permit completed a half-open breaker admits a probe. -/
  recovers : o.breaker.state = .halfOpen → o.outstanding = 0 → ∀ now,
    (allow options now o.breaker).2.1.isSome = true ∧ (available options now o.breaker).2.1 = true

theorem reopens_iff {options : Options} {o : Ledger} (valid : o.Valid options)
    (half : o.breaker.state = .halfOpen) (few : o.epoch < 2 ^ 64) (call : Call) :
    (o.step options call).breaker.state = .open ↔ ∃ index now, call = .done index .failure now ∧
    o.Current index := by
  by_cases completion : ∃ index outcome now, call = .done index outcome now
  · obtain ⟨index, outcome, now, rfl⟩ := completion
    have timely : o.Timely (.done index outcome now) :=
      fun issued _ _ => Nat.lt_of_lt_of_le few (Nat.le_add_left _ _)
    rcases finish_halfOpen_state valid half index outcome now timely with ⟨stale, state⟩ |
      ⟨current, state⟩
    · simp [state, stale]
    · cases outcome with
      | failure => simp [state, current]
      | ignored => simp [state]
      | success =>
          rw [state]
          simp only
          split <;> simp
  · simp only [not_exists] at completion
    rw [halfOpen_stays half completion]
    constructor
    · intro opened; cases opened
    · rintro ⟨index, now, same, _⟩
      exact absurd same (completion index .failure now)

theorem closes_iff {options : Options} {o : Ledger} (valid : o.Valid options)
    (half : o.breaker.state = .halfOpen) (few : o.epoch < 2 ^ 64) (call : Call) :
    (o.step options call).breaker.state = .closed ↔ ∃ index now, call = .done index .success now ∧
    o.Current index ∧ (o.completedWith .success : Int) + 1 = options.halfOpenMaxRequests := by
  by_cases completion : ∃ index outcome now, call = .done index outcome now
  · obtain ⟨index, outcome, now, rfl⟩ := completion
    have timely : o.Timely (.done index outcome now) :=
      fun issued _ _ => Nat.lt_of_lt_of_le few (Nat.le_add_left _ _)
    have pending := (valid.probes half).pending
    rw [(valid.probes half).passed] at pending
    rcases finish_halfOpen_state valid half index outcome now timely with ⟨stale, state⟩ |
      ⟨current, state⟩
    · simp [state, stale]
    · cases outcome with
      | failure => simp [state]
      | ignored => simp [state]
      | success =>
          rw [state]
          simp only
          split
          · next reached => simp [current]; omega
          · next below => simp [current]; omega
  · simp only [not_exists] at completion
    rw [halfOpen_stays half completion]
    constructor
    · intro closed; cases closed
    · rintro ⟨index, now, same, _⟩
      exact absurd same (completion index .success now)

end Ledger

/-- Breaker admission and half-open accounting in every reachable state. -/
theorem run_admits {options : Options} {b : Breaker} (built : New options = .ok b)
    (calls : List Call) (few : (Ledger.start.run options calls).epoch < 2 ^ 64) :
    (Ledger.start.run options calls).Admits options := by
  have accepted := (accepted_of_new built).1
  have valid := Ledger.run_valid accepted calls (Ledger.start_valid accepted)
    (Ledger.timelyRun_of_epoch_lt calls few)
  -- From here on only validity of the reached ledger is used.
  generalize Ledger.start.run options calls = o at valid few
  exact {
    allow_available := fun now => allow_iff_available options now o.breaker
    refuses_early := by
      intro opened now early
      have still := advanceLocked_of_early accepted.timeout early
      rcases allow_cases options now o.breaker with ⟨_, _, refused⟩ | ⟨room, _, _⟩
      · exact refused
      · rw [still] at room
        exact absurd (Or.inl opened) room
    leaves_open := fun opened call left => Ledger.leaves_open accepted opened left
    active := fun half => (valid.probes half).active
    active_le := fun half => (valid.probes half).bounded
    guarded := fun half index current => Ledger.current_active (valid.probes half) current
    passed := fun half => (valid.probes half).passed
    unfailed := fun half => (valid.probes half).unfailed
    reopens := fun half call => Ledger.reopens_iff valid half few call
    closes := fun half call => Ledger.closes_iff valid half few call
    recovers := by
      intro half idle now
      have none := (valid.probes half).active
      have room : (allow options now o.breaker).2.1.isSome = true := by
        rw [allow_isSome_iff, advanceLocked_of_not_open (by rw [half]; decide)]
        have positive := accepted.probes
        simp only [Full, half, none, idle]
        simp
        omega
      exact ⟨room, (allow_iff_available options now o.breaker).mp room⟩ }

/-- A breaker that opened on one failure and, a timeout later, probes. -/
theorem run_admits_probing :
    (Ledger.start.run smallest [.allow 0, .done 0 .failure 0, .allow 1]).breaker.state = .halfOpen ∧
    (Ledger.start.run smallest [.allow 0, .done 0 .failure 0, .allow 1]).Admits smallest :=
  ⟨by decide +kernel, run_admits (b := initialBreaker) (by decide +kernel) _ (by decide +kernel)⟩

end ModelGate.CircuitBreaker
