import ModelGate.CircuitBreaker.Slots
import ModelGate.Config.Values

/-! A provider that only fails opens its breaker.

The property is about the breaker alone and needs nothing of the permits: it
holds along runs with any clock and any number of transitions. It needs the
failure ratio to be a number, which neither of the two range checks asks for.
-/

set_option autoImplicit false

namespace ModelGate.CircuitBreaker

open Config Data Numeric

/-- A window large enough for the trip test in which every outcome is a failure. -/
def AllFailed (options : Options) (b : Breaker) : Prop :=
  options.minimumRequests ≤ b.outcomes.length ∧ ∀ outcome ∈ b.outcomes, outcome = false

instance (options : Options) (b : Breaker) : Decidable (AllFailed options b) :=
  inferInstanceAs (Decidable (_ ∧ _))

/-- What a closed breaker keeps: a window with its failures counted, not all of them failures. -/
structure Watchful (options : Options) (b : Breaker) : Prop where
  window : ∃ history, b.window.Represents options.size history
  failures : b.failures = (b.outcomes.countP (!·) : Int)
  alarm : ¬ AllFailed options b

section Trips

variable {options : Options} {ratio : ℚ} (window : 0 < options.windowSize)
  (minimum : 0 < options.minimumRequests) (denotes : options.failureRatio.toRat? = some ratio)
  (small : ratio ≤ 1)

include minimum denotes small in
theorem tripped_of_allFailed {b : Breaker} (failures : b.failures = (b.outcomes.countP (!·) : Int))
    (failed : AllFailed options b) : tripped options b = true := by
  have everyOne : b.outcomes.countP (!·) = b.outcomes.length := by
    rw [List.countP_eq_length]
    intro outcome member
    rw [failed.2 outcome member]
    rfl
  have nonempty : (b.outcomes.length : ℚ) ≠ 0 := by
    have := failed.1
    exact_mod_cast (by omega : b.outcomes.length ≠ 0)
  have full : (b.failures : ℚ) / (b.outcomes.length : ℚ) = 1 := by
    rw [failures, everyOne, Int.cast_natCast]
    exact div_self nonempty
  rw [tripped, Bool.and_eq_true, decide_eq_true_eq, full, Float64.le_of_toRat denotes
    (Float64.toRat_ofRat 1), decide_eq_true_eq]
  exact ⟨failed.1, small⟩

include window minimum in
theorem watchful_empty {b : Breaker} (outcomes : b.outcomes = []) (next : b.next = 0)
    (failures : b.failures = 0) : Watchful options b := by
  have positive : 0 < options.size := by
    unfold Options.size
    omega
  refine ⟨⟨[], ?_⟩, ?_, fun failed => ?_⟩
  · rw [Breaker.window, outcomes, next]
    exact Window.empty_represents positive
  · rw [failures, outcomes]
    rfl
  · have enough := failed.1
    rw [outcomes, List.length_nil] at enough
    omega

include window minimum denotes small

theorem completeClosed_watchful (now : Int) (outcome : Outcome) {b : Breaker}
    (watchful : Watchful options b)
    (closed : (completeClosed options now outcome b).1.state = .closed) :
    Watchful options (completeClosed options now outcome b).1 := by
  by_cases ignored : outcome = .ignored
  · rw [completeClosed, if_pos ignored]
    exact watchful
  · rw [completeClosed_of_counts ignored] at closed ⊢
    obtain ⟨history, represents⟩ := watchful.window
    have recorded :=
      recordLocked_represents window represents watchful.failures (outcome = .success)
    split at closed
    · rw [transitionLocked_state] at closed
      cases closed
    · rename_i calm
      rw [if_neg calm]
      refine ⟨⟨_, recorded.1⟩, recorded.2, fun failed => calm ?_⟩
      exact tripped_of_allFailed minimum denotes small recorded.2 failed

theorem complete_watchful (now : Int) (permitState : State) (generation : UInt64)
    (outcome : Outcome) (b : Breaker) (watchful : b.state = .closed → Watchful options b) :
    (complete options now permitState generation outcome b).1.state = .closed →
    Watchful options (complete options now permitState generation outcome b).1 := by
  intro closed
  by_cases stale : generation ≠ b.generation ∨ permitState ≠ b.state
  · rw [complete_stale outcome stale] at closed ⊢
    exact watchful closed
  · cases state : b.state with
    | closed =>
        rw [complete_closed stale outcome state] at closed ⊢
        exact completeClosed_watchful window minimum denotes small now outcome
          (watchful state) closed
    | «open» =>
        rw [complete_open stale outcome state] at closed ⊢
        exact watchful closed
    | halfOpen =>
        rw [complete_halfOpen stale outcome state] at closed ⊢
        -- Only enough successful probes lead back to the closed state, and with an empty window.
        cases outcome with
        | ignored =>
            have kept := (vacated_stays True b).state.symm.trans closed
            rw [state] at kept
            cases kept
        | failure => cases closed
        | success =>
            rw [completeHalfOpen_success] at closed ⊢
            split at closed
            · rename_i reached
              rw [if_pos reached]
              exact watchful_empty window minimum rfl rfl rfl
            · have kept := (vacated_stays True b).state.symm.trans closed
              rw [state] at kept
              cases kept

theorem run_watchful (calls : List Call) :
    (Ledger.start.run options calls).breaker.state = .closed →
      Watchful options (Ledger.start.run options calls).breaker := by
  refine Ledger.run_breaker (motive := fun b => b.state = .closed → Watchful options b) ?_ ?_
    ?_ calls ?_
  · intro now b watchful closed
    rcases advanceLocked_cases options now b with ⟨still, _⟩ | ⟨_, _, entered⟩
    · rw [still] at closed ⊢
      exact watchful closed
    · rw [entered, transitionLocked_state] at closed
      cases closed
  · intro b watchful closed
    unfold occupied at closed ⊢
    split at closed
    · rename_i half
      rw [show b.state = .closed from closed] at half
      cases half
    · rename_i other
      rw [if_neg other]
      exact watchful closed
  · exact complete_watchful window minimum denotes small
  · intro _
    exact watchful_empty window minimum rfl rfl rfl

end Trips

namespace Ledger

/-- The outcome a call adds to the window of a closed breaker. -/
def records (o : Ledger) : Call → Option Bool
  | .done index outcome _ =>
      match o.permits[index]? with
      | none => none
      | some issued =>
          if issued.permit.spent ∨ issued.permit.generation ≠ o.breaker.generation ∨
            issued.permit.state ≠ o.breaker.state ∨ o.breaker.state ≠ .closed ∨
            outcome = .ignored then none
          else some (decide (outcome = .success))
  | _ => none

def recorded (options : Options) : Ledger → List Call → List Bool
  | _, [] => []
  | o, call :: calls => (o.records call).toList ++ recorded options (o.step options call) calls

theorem step_of_records_none (options : Options) {o : Ledger} (closed : o.breaker.state = .closed)
    {call : Call} (nothing : o.records call = none) :
    (o.step options call).breaker = o.breaker := by
  have still (now : Int) : (advanceLocked options now o.breaker).1 = o.breaker :=
    congrArg Prod.fst (advanceLocked_of_not_open (by rw [closed]; decide) now)
  cases call with
  | state now => exact still now
  | available now => exact still now
  | allow now =>
      rcases allow_cases options now o.breaker with ⟨_, breaker, refused⟩ | ⟨_, breaker, permit⟩
      · simp only [step, refused, breaker]
        exact still now
      · simp only [step, permit, breaker, still now, occupied, closed]
        rfl
  | done index outcome now =>
      simp only [step, finish]
      simp only [records] at nothing
      cases found : o.permits[index]? with
      | none => rfl
      | some issued =>
          by_cases spent : issued.permit.spent = true
          · simp only [spent, if_true]
          · simp only [found, spent, closed, ne_eq, not_true_eq_false, false_or] at nothing
            simp only [spent, moved, mark]
            by_cases stale : issued.permit.generation ≠ o.breaker.generation ∨
              issued.permit.state ≠ o.breaker.state
            · rw [complete_stale outcome stale]
              rfl
            · rw [complete_closed stale outcome closed]
              by_cases ignored : outcome = .ignored
              · rw [completeClosed, if_pos ignored]
                rfl
              · rw [not_or, not_not, not_not, closed] at stale
                simp [stale, ignored] at nothing

theorem step_of_records_some {options : Options} {o : Ledger} {call : Call} {success : Bool}
    (adds : o.records call = some success)
    (room : (o.breaker.outcomes.length : Int) < options.windowSize) :
    (o.step options call).breaker.state = .open ∨
    ((o.step options call).breaker.state = .closed ∧
      (o.step options call).breaker.outcomes = o.breaker.outcomes ++ [success]) := by
  cases call with
  | state now => cases adds
  | available now => cases adds
  | allow now => cases adds
  | done index outcome now =>
      simp only [records] at adds
      split at adds
      · cases adds
      · rename_i issued found
        split at adds
        · cases adds
        · rename_i test
          cases adds
          simp only [not_or, Bool.not_eq_true, not_not, ne_eq] at test
          obtain ⟨unspent, generation, state, closed, counts⟩ := test
          have fresh : ¬ (issued.permit.generation ≠ o.breaker.generation ∨
              issued.permit.state ≠ o.breaker.state) := by
            simp [generation, state]
          have grown : (recordLocked options (decide (outcome = .success)) o.breaker).outcomes =
              o.breaker.outcomes ++ [decide (outcome = .success)] := by
            rw [recordLocked, if_pos room]
          simp only [step, finish, found, unspent, Bool.false_eq_true, if_false, moved]
          rw [complete_closed fresh outcome closed, completeClosed_of_counts counts]
          split
          · exact .inl (transitionLocked_state _ _ _)
          · exact .inr ⟨(recordLocked_state _ _ _).trans closed, grown⟩

theorem step_opens_or_appends {options : Options} {o : Ledger} (closed : o.breaker.state = .closed)
    (call : Call)
    (room : (o.breaker.outcomes.length : Int) + (o.records call).toList.length ≤
      options.windowSize) :
    (o.step options call).breaker.state = .open ∨
      ((o.step options call).breaker.state = .closed ∧
        (o.step options call).breaker.outcomes =
        o.breaker.outcomes ++ (o.records call).toList) := by
  cases adds : o.records call with
  | none =>
      rw [step_of_records_none options closed adds]
      exact .inr ⟨closed, (List.append_nil _).symm⟩
  | some success =>
      rw [adds, Option.toList_some, List.length_singleton] at room
      exact step_of_records_some adds (by omega)

/-- While nothing is evicted, a run from a closed breaker opens it or appends what it adds
to the window. -/
theorem opens_or_appends {options : Options} (calls : List Call) {o : Ledger}
    (closed : o.breaker.state = .closed)
    (room : (o.breaker.outcomes.length : Int) + (o.recorded options calls).length ≤
      options.windowSize) :
    (∃ early, early <+: calls ∧ (o.run options early).breaker.state = .open) ∨
    ((o.run options calls).breaker.state = .closed ∧
      (o.run options calls).breaker.outcomes = o.breaker.outcomes ++ o.recorded options calls) := by
  induction calls generalizing o with
  | nil => exact .inr ⟨closed, (List.append_nil _).symm⟩
  | cons call calls ih =>
      rw [recorded, List.length_append] at room
      have first : (o.breaker.outcomes.length : Int) + (o.records call).toList.length ≤
          options.windowSize := by
        omega
      rcases step_opens_or_appends closed call first with opened | ⟨stays, outcomes⟩
      · exact .inl ⟨[call], List.prefix_append [call] calls, opened⟩
      · rcases ih stays (by rw [outcomes, List.length_append]; omega) with ⟨early, start, opened⟩ |
          ⟨final, window⟩
        · exact .inl ⟨call :: early, (List.prefix_cons_inj call).mpr start, opened⟩
        · rw [outcomes, List.append_assoc] at window
          exact .inr ⟨final, window⟩

end Ledger

theorem minimum_le_of_new {options : Options} {b : Breaker} (built : New options = .ok b) :
    options.minimumRequests ≤ options.windowSize := by
  unfold New at built
  split at built
  · cases built
  split at built
  · cases built
  omega

/-- With a ratio that is a number a breaker is never closed over a large enough window of
failures only, and as many counted failures as the minimum, the first of them into an empty
window, open it. -/
theorem all_failing_opens {source : Source} {name : String} {fallback : Float64} {options : Options}
    {b : Breaker}
    (loaded : positiveRatio source name fallback = .ok options.failureRatio)
    (built : New options = .ok b)
    (number : options.failureRatio ≠ .nan) (calls : List Call) :
    let o := Ledger.start.run options calls
    ¬ (o.breaker.state = .closed ∧ AllFailed options o.breaker) ∧
    ∀ more, o.breaker.state = .closed → o.breaker.outcomes = [] →
      o.recorded options more = List.replicate options.minimumRequests.toNat false →
      ∃ early, early <+: more ∧ (o.run options early).breaker.state = .open := by
  intro o
  have accepted := (accepted_of_new built).1
  obtain ⟨positive, small⟩ := positiveRatio_ok loaded
  obtain ⟨ratio, denotes, _, atMost⟩ := ratio_of_accepted positive small number
  have watches (calls : List Call) :=
    run_watchful accepted.window accepted.minimum denotes atMost calls
  refine ⟨fun closed => (watches calls closed.1).alarm closed.2,
    fun more closed empty failures => ?_⟩
  have minimum := accepted.minimum
  have fits := minimum_le_of_new built
  have room : (o.breaker.outcomes.length : Int) + (o.recorded options more).length ≤
      options.windowSize := by
    rw [empty, failures, List.length_nil, List.length_replicate]
    omega
  rcases Ledger.opens_or_appends more closed room with opened | ⟨final, window⟩
  · exact opened
  · -- The run would end in a closed breaker over failures only.
    rw [empty, failures, List.nil_append] at window
    rw [← Ledger.run_append] at final window
    refine absurd ⟨?_, ?_⟩ (watches (calls ++ more) final).alarm
    · rw [window, List.length_replicate]
      omega
    · rw [window]
      exact fun outcome member => List.eq_of_mem_replicate member

def ratioSource (ratio : String) : Source where
  Getenv name := if name = "CIRCUIT_BREAKER_FAILURE_RATIO" then utf8 ratio else []
  ParseFloat := ratioValue
  FormatFloat := ratioText
  ParseDuration _ := none

/-- Two counted failures open a breaker that asks for two requests and a ratio of one half. -/
theorem all_failing_opens_pair :
    ∃ early, early <+: [Call.allow 0, .allow 0, .done 0 .failure 0, .done 1 .failure 0] ∧
      (Ledger.start.run ⟨3, 2, .ofRat (1 / 2), 1, 1⟩ early).breaker.state = .open := by
  have loaded : positiveRatio (ratioSource " 0.5 ") "CIRCUIT_BREAKER_FAILURE_RATIO"
      (.ofRat (1 / 2)) = .ok (.ofRat (1 / 2)) := by
    decide +kernel
  have built : New ⟨3, 2, .ofRat (1 / 2), 1, 1⟩ = .ok initialBreaker := by decide +kernel
  exact (all_failing_opens loaded built (by decide) []).2 _ rfl rfl (by decide +kernel)

/-- Neither check rejects NaN, and with it a failure leaves the breaker closed. -/
theorem not_all_failing_opens :
    let options : Options := ⟨1, 1, .nan, 1, 1⟩
    let o := Ledger.start.run options [.allow 0, .done 0 .failure 0]
    positiveRatio (ratioSource "NaN") "CIRCUIT_BREAKER_FAILURE_RATIO" (.ofRat (1 / 2)) =
        .ok options.failureRatio ∧ New options = .ok initialBreaker ∧ o.breaker.state = .closed ∧
      AllFailed options o.breaker := by
  decide +kernel

end ModelGate.CircuitBreaker
