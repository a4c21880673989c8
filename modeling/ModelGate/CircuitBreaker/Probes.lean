import ModelGate.CircuitBreaker.Admission
import ModelGate.CircuitBreaker.Slots

/-! The probes outstanding at once, over all half-open periods.

A period counts only its own probes: the slots are freed when the breaker
leaves the half-open state, while probes of the period may still be running.
The slots bound all of them as long as no period ends before its probes do,
which a single slot enforces by itself.
-/

set_option autoImplicit false

namespace ModelGate.CircuitBreaker

namespace Ledger

/-- Permits issued in the half-open state, in any generation, whose `Done` has not been called. -/
def probing (o : Ledger) : Nat :=
  o.permits.countP fun issued => decide (issued.permit.state = .halfOpen) && !issued.permit.spent

/-- A call that is about to end a half-open period completes the one probe outstanding. -/
def Drains (options : Options) (o : Ledger) (call : Call) : Prop :=
  o.breaker.state = .halfOpen → o.moves options call = true → o.probing = 1

def DrainedRun (options : Options) : Ledger → List Call → Prop
  | _, [] => True
  | o, call :: calls => o.Drains options call ∧ DrainedRun options (o.step options call) calls

/-- Every outstanding probe belongs to the current period and takes one of its slots. -/
structure Slotted (options : Options) (o : Ledger) : Prop where
  live : ∀ issued ∈ o.permits, issued.permit.state = .halfOpen → issued.permit.spent = false →
    o.breaker.state = .halfOpen ∧ issued.permit.generation = o.breaker.generation
  slots : o.breaker.state = .halfOpen → o.probing = o.breaker.halfOpenActive
  room : o.breaker.state = .halfOpen →
    (o.breaker.halfOpenActive : Int) ≤ options.halfOpenMaxRequests

theorem probing_eq_zero_iff {o : Ledger} : o.probing = 0 ↔
    ∀ issued ∈ o.permits, issued.permit.state = .halfOpen → issued.permit.spent = true := by
  unfold probing
  rw [List.countP_eq_zero]
  simp

theorem Slotted.idle {options : Options} {o : Ledger} (slotted : o.Slotted options)
    (other : o.breaker.state ≠ .halfOpen) : o.probing = 0 := by
  rw [probing_eq_zero_iff]
  intro issued member half
  by_contra live
  exact other (slotted.live issued member half (Bool.not_eq_true _ ▸ live)).1

theorem Slotted.bounded {options : Options} (accepted : options.Accepted) {o : Ledger}
    (slotted : o.Slotted options) : (o.probing : Int) ≤ options.halfOpenMaxRequests := by
  by_cases half : o.breaker.state = .halfOpen
  · rw [slotted.slots half]
    exact slotted.room half
  · have positive := accepted.probes
    rw [slotted.idle half]
    exact_mod_cast Int.le_of_lt positive

theorem slotted_of_drained {options : Options} (accepted : options.Accepted) {o : Ledger}
    (drained : o.probing = 0) (free : o.breaker.halfOpenActive = 0) : o.Slotted options := by
  have positive := accepted.probes
  refine ⟨fun issued member half live => ?_, fun _ => drained.trans free.symm, fun _ => ?_⟩
  · rw [probing_eq_zero_iff.mp drained issued member half] at live
    cases live
  · rw [free]
    exact_mod_cast Int.le_of_lt positive

theorem transitionLocked_halfOpenActive (now : Int) (target : State) (b : Breaker) :
    (transitionLocked now target b).halfOpenActive = 0 := by
  cases target <;> rfl

theorem start_slotted {options : Options} (accepted : options.Accepted) : start.Slotted options :=
  slotted_of_drained accepted rfl rfl

theorem advance_slotted {options : Options} (accepted : options.Accepted) {o : Ledger}
    (slotted : o.Slotted options) (now : Int) :
    (o.moved (advanceLocked options now o.breaker).1).Slotted options := by
  rcases advanceLocked_cases options now o.breaker with ⟨still, _⟩ | ⟨opened, _, entered⟩
  · rw [still, moved_of_state rfl]
    exact slotted
  · rw [entered]
    have drained : o.probing = 0 := slotted.idle (by rw [opened]; decide)
    exact slotted_of_drained accepted drained (transitionLocked_halfOpenActive _ _ _)

theorem issue_slotted {options : Options} {o : Ledger} (slotted : o.Slotted options)
    (room : ¬ Full options o.breaker) :
    ({ o with breaker := occupied o.breaker }.issue ⟨o.breaker.state, o.breaker.generation,
        false⟩).Slotted options := by
  by_cases half : o.breaker.state = .halfOpen
  · have slot : occupied o.breaker =
      { o.breaker with halfOpenActive := o.breaker.halfOpenActive + 1 } := if_pos half
    have below : (o.breaker.halfOpenActive : Int) < options.halfOpenMaxRequests := by
      by_contra full
      exact room (.inr ⟨half, not_lt.mp full⟩)
    refine ⟨fun issued member probe live => ?_, fun _ => ?_, fun _ => ?_⟩
    · simp only [issue, slot, List.mem_append, List.mem_singleton] at member ⊢
      rcases member with old | rfl
      · exact slotted.live issued old probe live
      · exact ⟨half, rfl⟩
    · have before := slotted.slots half
      unfold probing at before
      simp [issue, slot, probing, List.countP_append, half, before]
    · simp only [issue, slot]
      omega
  · have same : occupied o.breaker = o.breaker := if_neg half
    refine ⟨fun issued member probe live => ?_, fun now => ?_, fun now => ?_⟩
    · simp only [issue, same, List.mem_append, List.mem_singleton] at member ⊢
      rcases member with old | rfl
      · exact slotted.live issued old probe live
      · exact absurd probe half
    · rw [issue, same] at now
      exact absurd now half
    · rw [issue, same] at now
      exact absurd now half

theorem probing_mark {o : Ledger} {index : Nat} {issued : Issued}
    (found : o.permits[index]? = some issued) (unspent : issued.permit.spent = false)
    (outcome : Outcome) :
    o.probing = (o.mark index issued outcome).probing + (if issued.permit.state = .halfOpen then 1
      else 0) := by
  have counts := countP_mark (fun issued => decide (issued.permit.state = .halfOpen)) found
    outcome unspent
  simp only [decide_eq_true_eq] at counts
  exact counts

theorem live_mark {o : Ledger} {index : Nat} {issued : Issued} (outcome : Outcome) {b : Breaker}
    (live : ∀ issued ∈ o.permits, issued.permit.state = .halfOpen → issued.permit.spent = false →
      b.state = .halfOpen ∧ issued.permit.generation = b.generation) :
    ∀ other ∈ (o.mark index issued outcome).permits, other.permit.state = .halfOpen →
    other.permit.spent = false → b.state = .halfOpen ∧ other.permit.generation = b.generation := by
  intro other member probe unspent
  rcases List.mem_or_eq_of_mem_set member with old | rfl
  · exact live other old probe unspent
  · cases unspent

/-- Completing a probe returns its slot; a period that ends with it has no other. -/
theorem finish_probe_slotted {options : Options} (accepted : options.Accepted) {o : Ledger}
    (slotted : o.Slotted options) {index : Nat} {issued : Issued}
    (found : o.permits[index]? = some issued) (unspent : issued.permit.spent = false)
    (probe : issued.permit.state = .halfOpen) {outcome : Outcome} {now : Int}
    (drains : ((o.mark index issued outcome).moved
        (complete options now issued.permit.state issued.permit.generation outcome
        o.breaker).1).breaker.state ≠ .halfOpen → (o.mark index issued outcome).probing = 0) :
    ((o.mark index issued outcome).moved
        (complete options now issued.permit.state issued.permit.generation outcome
          o.breaker).1).Slotted options := by
  obtain ⟨half, generation⟩ := slotted.live issued (List.mem_of_getElem? found) probe unspent
  have marked := probing_mark found unspent outcome
  rw [if_pos probe, slotted.slots half] at marked
  rcases complete_effect options now issued.permit.state issued.permit.generation outcome
    o.breaker with
    stays | ⟨target, left, changes, _, enters⟩
  · have returned := stays.returned ⟨generation, probe.trans half.symm⟩ half
    have room := slotted.room half
    rw [moved_of_state (o := o.mark index issued outcome) stays.state]
    refine ⟨?_, fun _ => ?_, fun _ => ?_⟩
    · refine live_mark outcome fun probe member state live => ?_
      rw [stays.state, stays.generation]
      exact slotted.live probe member state live
    · have slots : (o.mark index issued outcome).probing =
          (complete options now issued.permit.state issued.permit.generation outcome
            o.breaker).1.halfOpenActive := by
        omega
      exact slots
    · simp only
      omega
  · rw [enters] at drains ⊢
    rw [half] at changes
    have left := drains (by rw [moved, transitionLocked_state]; exact changes)
    exact slotted_of_drained accepted left (transitionLocked_halfOpenActive _ _ _)

theorem finish_other_slotted {options : Options} (accepted : options.Accepted) {o : Ledger}
    (slotted : o.Slotted options) {index : Nat} {issued : Issued}
    (found : o.permits[index]? = some issued) (unspent : issued.permit.spent = false)
    (other : issued.permit.state ≠ .halfOpen) (outcome : Outcome) (now : Int) :
    ((o.mark index issued outcome).moved
        (complete options now issued.permit.state issued.permit.generation outcome
          o.breaker).1).Slotted options := by
  have marked := probing_mark found unspent outcome
  rw [if_neg other, Nat.add_zero] at marked
  by_cases half : o.breaker.state = .halfOpen
  · have stale : issued.permit.state ≠ o.breaker.state := by rwa [half]
    rw [complete_stale outcome (.inr stale)]
    dsimp only
    rw [moved_of_state (o := o.mark index issued outcome) (b := o.breaker) rfl]
    exact ⟨live_mark outcome slotted.live, fun _ => marked.symm.trans (slotted.slots half),
      slotted.room⟩
  · have drained := marked.symm.trans (slotted.idle half)
    rcases complete_effect options now issued.permit.state issued.permit.generation outcome
      o.breaker with
      stays | ⟨target, left, _, _, enters⟩
    · rw [moved_of_state (o := o.mark index issued outcome) stays.state]
      have outside : (complete options now issued.permit.state issued.permit.generation outcome
          o.breaker).1.state ≠ .halfOpen := by
        rwa [stays.state]
      refine ⟨?_, fun inside => absurd inside outside, fun inside => absurd inside outside⟩
      intro probe member state live
      rw [probing_eq_zero_iff.mp drained probe member state] at live
      cases live
    · rw [enters]
      exact slotted_of_drained accepted drained (transitionLocked_halfOpenActive _ _ _)

theorem finish_slotted {options : Options} (accepted : options.Accepted) {o : Ledger}
    (slotted : o.Slotted options) {index : Nat} {outcome : Outcome} {now : Int}
    (drains : o.Drains options (.done index outcome now)) :
    (o.finish options now outcome index).Slotted options := by
  have changes := step_state_ne_iff options o (.done index outcome now)
  unfold step finish at changes
  unfold finish
  cases found : o.permits[index]? with
  | none => exact slotted
  | some issued =>
      simp only [found] at changes ⊢
      split
      · exact slotted
      · rename_i live
        have unspent : issued.permit.spent = false := Bool.not_eq_true _ ▸ live
        rw [if_neg live] at changes
        by_cases probe : issued.permit.state = .halfOpen
        · have half := (slotted.live issued (List.mem_of_getElem? found) probe unspent).1
          refine finish_probe_slotted accepted slotted found unspent probe fun left => ?_
          have last := drains half (changes.mp (by rw [half]; exact left))
          have marked := probing_mark found unspent outcome
          rw [if_pos probe] at marked
          omega
        · exact finish_other_slotted accepted slotted found unspent probe outcome now

theorem step_slotted {options : Options} (accepted : options.Accepted) {o : Ledger}
    (slotted : o.Slotted options) {call : Call} (drains : o.Drains options call) :
    (o.step options call).Slotted options := by
  cases call with
  | state now => exact advance_slotted accepted slotted now
  | available now => exact advance_slotted accepted slotted now
  | done index outcome now => exact finish_slotted accepted slotted drains
  | allow now =>
      have advanced := advance_slotted accepted slotted now
      rcases allow_cases options now o.breaker with ⟨_, breaker, refused⟩ | ⟨room, breaker, permit⟩
      · simp only [step, refused, breaker]
        exact advanced
      · simp only [step, permit, breaker]
        simpa [moved, issue] using issue_slotted advanced room

theorem run_slotted {options : Options} (accepted : options.Accepted) (calls : List Call)
    {o : Ledger} (slotted : o.Slotted options) (drained : DrainedRun options o calls) :
    (o.run options calls).Slotted options := by
  induction calls generalizing o with
  | nil => exact slotted
  | cons call calls ih => exact ih (step_slotted accepted slotted drained.1) drained.2

theorem probing_pos_of_moves {options : Options} {o : Ledger} (half : o.breaker.state = .halfOpen)
    {call : Call} (moves : o.moves options call = true) : 0 < o.probing := by
  have notDue (now : Int) : due options now o.breaker = false := by simp [due, half]
  cases call with
  | state now => exact absurd moves (by simp [Ledger.moves, notDue])
  | available now => exact absurd moves (by simp [Ledger.moves, notDue])
  | allow now => exact absurd moves (by simp [Ledger.moves, notDue])
  | done index outcome now =>
      simp only [Ledger.moves] at moves
      cases found : o.permits[index]? with
      | none => simp [found] at moves
      | some issued =>
          simp only [found, turns, half, Bool.and_eq_true, decide_eq_true_eq,
            Bool.not_eq_true'] at moves
          obtain ⟨unspent, ⟨_, probe⟩, _⟩ := moves
          exact List.countP_pos_iff.mpr
            ⟨issued, List.mem_of_getElem? found, by simp [probe, unspent]⟩

/-- The one probe of a single slot ends the period it belongs to. -/
theorem drains_of_single {options : Options} (single : options.halfOpenMaxRequests = 1) {o : Ledger}
    (slotted : o.Slotted options) (call : Call) : o.Drains options call := by
  intro half moves
  have outstanding := probing_pos_of_moves half moves
  have slots := slotted.slots half
  have room := slotted.room half
  omega

theorem drainedRun_of_single {options : Options} (accepted : options.Accepted)
    (single : options.halfOpenMaxRequests = 1) (calls : List Call) {o : Ledger}
    (slotted : o.Slotted options) : DrainedRun options o calls := by
  induction calls generalizing o with
  | nil => trivial
  | cons call calls ih =>
      have drains := drains_of_single single slotted call
      exact ⟨drains, ih (step_slotted accepted slotted drains)⟩

end Ledger

/-- Probes never exceed the slots if there is only one, or if no half-open period ends
before its probes. -/
theorem probes_bounded {options : Options} {b : Breaker} (built : New options = .ok b)
    (calls : List Call)
    (apart : options.halfOpenMaxRequests = 1 ∨ Ledger.DrainedRun options .start calls) :
    ((Ledger.start.run options calls).probing : Int) ≤ options.halfOpenMaxRequests := by
  have accepted := (accepted_of_new built).1
  have started := Ledger.start_slotted accepted
  have drained : Ledger.DrainedRun options .start calls :=
    apart.elim (fun single => Ledger.drainedRun_of_single accepted single calls started) id
  exact (Ledger.run_slotted accepted calls started drained).bounded accepted

/-- Two periods of a breaker with two slots, the second after both probes of the first are done. -/
theorem probes_bounded_two_periods :
    let options : Options := ⟨1, 1, .ofRat 1, 1, 2⟩
    let calls : List Call := [.allow 0, .done 0 .failure 0, .allow 1, .allow 1, .done 1 .success 1,
      .done 2 .failure 1, .allow 2, .allow 2]
    (Ledger.start.run options calls).probing = 2 ∧
      ((Ledger.start.run options calls).probing : Int) ≤ options.halfOpenMaxRequests := by
  refine ⟨by decide +kernel, probes_bounded (b := initialBreaker) (by decide +kernel) _ (.inr ?_)⟩
  simp only [Ledger.DrainedRun, Ledger.Drains]
  decide +kernel

/-- A probe fails while another of its period is outstanding; the next period admits two
more, with two slots in all. -/
theorem not_probes_bounded :
    let options : Options := ⟨1, 1, .ofRat 1, 1, 2⟩
    let calls : List Call :=
      [.allow 0, .done 0 .failure 0, .allow 1, .allow 1, .done 1 .failure 1, .allow 2, .allow 2]
    New options = .ok initialBreaker ∧ (calls.map Call.now).Pairwise (· ≤ ·) ∧
      options.halfOpenMaxRequests < ((Ledger.start.run options calls).probing : Int) := by
  decide +kernel

end ModelGate.CircuitBreaker
