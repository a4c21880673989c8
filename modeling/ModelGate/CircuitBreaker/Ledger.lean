import ModelGate.CircuitBreaker.Breaker

/-! Runs of one breaker and the permits it has issued.

A ledger keeps, beside the breaker, every permit with the number of state
changes before its issue, and the first completion of each permit in order.
The bookkeeping only observes: no field of the breaker or of a permit depends
on it. The epoch counts without bound what `generation` counts modulo `2 ^ 64`.
-/

set_option autoImplicit false

namespace ModelGate.CircuitBreaker

open Data Numeric

structure Issued where
  permit : Permit
  epoch : Nat
  deriving DecidableEq

structure Completion where
  epoch : Nat
  outcome : Outcome
  deriving DecidableEq

structure Ledger where
  breaker : Breaker
  permits : List Issued
  epoch : Nat
  finished : List Completion
  deriving DecidableEq

inductive Call where
  | allow (now : Int)
  | state (now : Int)
  | available (now : Int)
  | done (permit : Nat) (outcome : Outcome) (now : Int)

namespace Ledger

def start : Ledger := ⟨initialBreaker, [], 0, []⟩

/-- Every transition enters a state other than the one it leaves. -/
def moved (o : Ledger) (b : Breaker) : Ledger :=
  { o with breaker := b, epoch := if b.state = o.breaker.state then o.epoch else o.epoch + 1 }

def issue (o : Ledger) (permit : Permit) : Ledger :=
  { o with permits := o.permits ++ [⟨permit, o.epoch⟩] }

def mark (o : Ledger) (index : Nat) (issued : Issued) (outcome : Outcome) : Ledger :=
  { o with
    permits := o.permits.set index { issued with permit.spent := true }
    finished := o.finished ++ [⟨issued.epoch, outcome⟩] }

/-- `Permit.Done`: later calls on the same permit find the once spent. -/
def finish (options : Options) (now : Int) (outcome : Outcome) (o : Ledger) (index : Nat) :
    Ledger :=
  match o.permits[index]? with
  | none => o
  | some issued =>
      if issued.permit.spent then o
      else (o.mark index issued outcome).moved
        (complete options now issued.permit.state issued.permit.generation outcome o.breaker).1

def step (options : Options) (o : Ledger) : Call → Ledger
  | .allow now =>
      let (b, permit, _) := allow options now o.breaker
      match permit with
      | none => o.moved b
      | some permit => (o.moved b).issue permit
  | .state now => o.moved (currentState options now o.breaker).1
  | .available now => o.moved (available options now o.breaker).1
  | .done index outcome now => o.finish options now outcome index

def run (options : Options) (o : Ledger) (calls : List Call) : Ledger :=
  calls.foldl (step options) o

theorem run_append (options : Options) (o : Ledger) (first second : List Call) :
    o.run options (first ++ second) = (o.run options first).run options second :=
  List.foldl_append

theorem run_singleton (options : Options) (o : Ledger) (call : Call) :
    o.run options [call] = o.step options call := rfl

/-- No permit is first completed `2 ^ 64` or more transitions after its issue.
Later calls of its `Done` may come at any time. -/
def Timely (o : Ledger) : Call → Prop
  | .done index _ _ => ∀ issued, o.permits[index]? = some issued → issued.permit.spent = false →
      o.epoch < issued.epoch + 2 ^ 64
  | _ => True

def TimelyRun (options : Options) : Ledger → List Call → Prop
  | _, [] => True
  | o, call :: calls => o.Timely call ∧ TimelyRun options (o.step options call) calls

theorem epoch_le_moved (o : Ledger) (b : Breaker) : o.epoch ≤ (o.moved b).epoch := by
  unfold moved
  split <;> simp

theorem epoch_le_step (options : Options) (o : Ledger) (call : Call) :
    o.epoch ≤ (o.step options call).epoch := by
  cases call with
  | state now => exact epoch_le_moved _ _
  | available now => exact epoch_le_moved _ _
  | allow now =>
      simp only [step]
      split
      · exact epoch_le_moved _ _
      · exact epoch_le_moved o _
  | done index outcome now =>
      simp only [step, finish]
      split
      · exact Nat.le_refl _
      · split
        · exact Nat.le_refl _
        · exact epoch_le_moved (o.mark _ _ _) _

theorem epoch_le_run (options : Options) (calls : List Call) (o : Ledger) :
    o.epoch ≤ (o.run options calls).epoch := by
  induction calls generalizing o with
  | nil => exact Nat.le_refl _
  | cons call calls ih => exact Nat.le_trans (epoch_le_step options o call) (ih _)

theorem timelyRun_of_epoch_lt {options : Options} (calls : List Call) {o : Ledger}
    (few : (o.run options calls).epoch < 2 ^ 64) : TimelyRun options o calls := by
  induction calls generalizing o with
  | nil => trivial
  | cons call calls ih =>
      refine ⟨?_, ih few⟩
      have now := Nat.le_trans (epoch_le_step options o call) (epoch_le_run options calls _)
      cases call with
      | done index outcome time =>
          intro issued _ _
          exact Nat.lt_of_lt_of_le (Nat.lt_of_le_of_lt now few) (Nat.le_add_left _ _)
      | _ => trivial

/-- A completion counts in its own epoch only, and not when it is ignored. -/
def countedIn (epoch : Nat) (finished : List Completion) : List Bool :=
  finished.filterMap fun completion =>
    if completion.epoch = epoch ∧ completion.outcome ≠ .ignored then
      some (decide (completion.outcome = .success))
    else none

/-- The outcomes that count for the closed state: the first completions of
the permits issued since the last transition, in the order they came. -/
def counted (o : Ledger) : List Bool := countedIn o.epoch o.finished

def outstanding (o : Ledger) : Nat :=
  o.permits.countP fun issued => decide (issued.epoch = o.epoch) && !issued.permit.spent

def completedWith (o : Ledger) (outcome : Outcome) : Nat := o.finished.count ⟨o.epoch, outcome⟩

end Ledger

/-! What one method can do -/

theorem advanceLocked_cases (options : Options) (now : Int) (b : Breaker) :
    (advanceLocked options now b = (b, false) ∧
      (b.state = .open → timeSub now b.openedAt < options.openTimeout)) ∨
    (b.state = .open ∧ options.openTimeout ≤ timeSub now b.openedAt ∧
      advanceLocked options now b = (transitionLocked now .halfOpen b, true)) := by
  unfold advanceLocked
  by_cases early : b.state ≠ .open ∨ timeSub now b.openedAt < options.openTimeout
  · refine Or.inl ⟨if_pos early, fun opened => ?_⟩
    exact early.resolve_left (fun closed => closed opened)
  · obtain ⟨opened, due⟩ := not_or.mp early
    exact Or.inr ⟨not_not.mp opened, not_lt.mp due, if_neg early⟩

theorem advanceLocked_of_not_open {options : Options} {b : Breaker} (other : b.state ≠ .open)
    (now : Int) : advanceLocked options now b = (b, false) :=
  if_pos (.inl other)

@[simp] theorem transitionLocked_state (now : Int) (target : State) (b : Breaker) :
    (transitionLocked now target b).state = target := by
  cases target <;> rfl

@[simp] theorem transitionLocked_generation (now : Int) (target : State) (b : Breaker) :
    (transitionLocked now target b).generation = b.generation + 1 := by
  cases target <;> rfl

@[simp] theorem recordLocked_state (options : Options) (success : Bool) (b : Breaker) :
    (recordLocked options success b).state = b.state := by
  unfold recordLocked
  split <;> rfl

@[simp] theorem recordLocked_generation (options : Options) (success : Bool) (b : Breaker) :
    (recordLocked options success b).generation = b.generation := by
  unfold recordLocked
  split <;> rfl

/-- The refusal test of `Allow`, on the breaker that has already advanced. -/
def Full (options : Options) (b : Breaker) : Prop :=
  b.state = .open ∨ (b.state = .halfOpen ∧ (b.halfOpenActive : Int) ≥ options.halfOpenMaxRequests)

def occupied (b : Breaker) : Breaker :=
  if b.state = .halfOpen then { b with halfOpenActive := b.halfOpenActive + 1 } else b

@[simp] theorem occupied_state (b : Breaker) : (occupied b).state = b.state := by
  unfold occupied
  split <;> rfl

@[simp] theorem occupied_generation (b : Breaker) : (occupied b).generation = b.generation := by
  unfold occupied
  split <;> rfl

@[simp] theorem vacated_state (b : Breaker) : (vacated b).state = b.state := by
  unfold vacated
  split <;> rfl

@[simp] theorem vacated_generation (b : Breaker) : (vacated b).generation = b.generation := by
  unfold vacated
  split <;> rfl

@[simp] theorem vacated_passed (b : Breaker) : (vacated b).halfOpenPassed = b.halfOpenPassed := by
  unfold vacated
  split <;> rfl

theorem allow_cases (options : Options) (now : Int) (b : Breaker) :
    let advanced := (advanceLocked options now b).1
    (Full options advanced ∧ (allow options now b).1 = advanced ∧
      (allow options now b).2.1 = none) ∨
    (¬ Full options advanced ∧ (allow options now b).1 = occupied advanced ∧
      (allow options now b).2.1 = some ⟨advanced.state, advanced.generation, false⟩) := by
  intro advanced
  by_cases full : Full options advanced
  · refine Or.inl ⟨full, ?_, ?_⟩ <;> simp only [allow, Full,
      advanced] at full ⊢ <;> rw [if_pos full]
  · refine Or.inr ⟨full, ?_, ?_⟩
    · simp only [allow, Full, advanced] at full ⊢
      rw [if_neg full]
      rfl
    · simp only [allow, Full, advanced] at full ⊢
      rw [if_neg full]
      simp only
      split <;> rfl

theorem available_eq (options : Options) (now : Int) (b : Breaker) :
    (available options now b).2.1 = true ↔ ¬ Full options (advanceLocked options now b).1 := by
  simp only [available, Full, decide_eq_true_eq]
  cases (advanceLocked options now b).1.state <;> simp

section Complete

variable {options : Options} {now : Int} {permitState : State} {generation : UInt64}

theorem complete_stale {b : Breaker} (outcome : Outcome)
    (stale : generation ≠ b.generation ∨ permitState ≠ b.state) :
    complete options now permitState generation outcome b = (b, none) := by
  unfold complete
  exact if_pos stale

variable {b : Breaker} (current : ¬ (generation ≠ b.generation ∨ permitState ≠ b.state))
include current

theorem complete_closed (outcome : Outcome) (closed : b.state = .closed) :
    complete options now permitState generation outcome b =
      completeClosed options now outcome b := by
  rw [complete, if_neg current]
  simp only [closed]

theorem complete_open (outcome : Outcome) (opened : b.state = .open) :
    complete options now permitState generation outcome b = (b, none) := by
  rw [complete, if_neg current]
  simp only [opened]

theorem complete_halfOpen (outcome : Outcome) (half : b.state = .halfOpen) :
    complete options now permitState generation outcome b =
      completeHalfOpen options now outcome b := by
  rw [complete, if_neg current]
  simp only [half]

end Complete

theorem completeClosed_of_counts {options : Options}
    {outcome : Outcome} (counts : outcome ≠ .ignored)
    (now : Int) (b : Breaker) :
    (completeClosed options now outcome b).1 =
      if tripped options (recordLocked options (outcome = .success) b) then
        transitionLocked now .open (recordLocked options (outcome = .success) b)
      else recordLocked options (outcome = .success) b := by
  rw [completeClosed, if_neg counts]
  simp only
  split <;> rfl

def passedOne (b : Breaker) : Breaker :=
  { vacated b with halfOpenPassed := (vacated b).halfOpenPassed + 1 }

theorem completeHalfOpen_success (options : Options) (now : Int) (b : Breaker) :
    (completeHalfOpen options now .success b).1 =
      if ((passedOne b).halfOpenPassed : Int) ≥ options.halfOpenMaxRequests then
        transitionLocked now .closed (passedOne b)
      else passedOne b := by
  simp only [completeHalfOpen]
  split <;> rename_i reached
  · rw [if_pos (show ((passedOne b).halfOpenPassed : Int) ≥ _ from reached)]
    rfl
  · rw [if_neg (show ¬ ((passedOne b).halfOpenPassed : Int) ≥ _ from reached)]
    rfl

/-! Which calls change the state, told from the ledger before them -/

def due (options : Options) (now : Int) (b : Breaker) : Bool :=
  decide (b.state = .open) && decide (options.openTimeout ≤ timeSub now b.openedAt)

/-- The first failed probe ends the half-open period, and so does the last success it asks for. -/
def endsPeriod (options : Options) (b : Breaker) : Outcome → Bool
  | .failure => true
  | .success => decide ((b.halfOpenPassed : Int) + 1 ≥ options.halfOpenMaxRequests)
  | .ignored => false

/-- A completion that is current and trips the closed breaker or ends the half-open period. -/
def turns (options : Options) (permit : Permit) (outcome : Outcome) (b : Breaker) : Bool :=
  decide (permit.generation = b.generation) && decide (permit.state = b.state) &&
    match b.state with
    | .closed =>
        decide (outcome ≠ .ignored) && tripped options (recordLocked options (outcome = .success) b)
    | .open => false
    | .halfOpen => endsPeriod options b outcome

def Ledger.moves (options : Options) (o : Ledger) : Call → Bool
  | .allow now | .state now | .available now => due options now o.breaker
  | .done index outcome _ =>
      match o.permits[index]? with
      | none => false
      | some issued => !issued.permit.spent && turns options issued.permit outcome o.breaker

theorem advanceLocked_state_ne_iff (options : Options) (now : Int) (b : Breaker) :
    (advanceLocked options now b).1.state ≠ b.state ↔ due options now b = true := by
  rw [due, Bool.and_eq_true, decide_eq_true_eq, decide_eq_true_eq]
  rcases advanceLocked_cases options now b with ⟨still, early⟩ | ⟨opened, late, entered⟩
  · rw [still]
    exact ⟨fun changed => absurd rfl changed, fun expired => absurd expired.2
      (not_le.mpr (early expired.1))⟩
  · rw [entered, transitionLocked_state, opened]
    exact ⟨fun _ => ⟨rfl, late⟩, fun _ => by decide⟩

theorem completeClosed_state_ne_iff (options : Options) (now : Int) (outcome : Outcome)
    {b : Breaker} (closed : b.state = .closed) :
    (completeClosed options now outcome b).1.state ≠ b.state ↔ outcome ≠ .ignored ∧
    tripped options (recordLocked options (outcome = .success) b) = true := by
  by_cases ignored : outcome = .ignored
  · simp [completeClosed, ignored]
  · rw [completeClosed_of_counts ignored]
    split <;> rename_i trips <;> simp [closed, ignored, trips]

theorem completeHalfOpen_state_ne_iff (options : Options) (now : Int) (outcome : Outcome)
    {b : Breaker} (half : b.state = .halfOpen) :
    (completeHalfOpen options now outcome b).1.state ≠ b.state ↔
    endsPeriod options b outcome = true := by
  cases outcome with
  | ignored => simp [completeHalfOpen, endsPeriod]
  | failure => simp [completeHalfOpen, endsPeriod, half]
  | success =>
      have passed : ((passedOne b).halfOpenPassed : Int) = (b.halfOpenPassed : Int) + 1 := by
        simp [passedOne]
      rw [completeHalfOpen_success, passed]
      split <;> rename_i reached <;> simp [passedOne, endsPeriod, half, reached]

theorem complete_state_ne_iff (options : Options) (now : Int) (permit : Permit) (outcome : Outcome)
    (b : Breaker) :
    (complete options now permit.state permit.generation outcome b).1.state ≠ b.state ↔
    turns options permit outcome b = true := by
  by_cases stale : permit.generation ≠ b.generation ∨ permit.state ≠ b.state
  · rw [complete_stale outcome stale]
    rcases stale with other | other <;> simp [turns, other]
  · have current := stale
    rw [not_or, not_not, not_not] at current
    cases state : b.state with
    | closed =>
        rw [complete_closed stale outcome state, ← state,
          completeClosed_state_ne_iff options now outcome state]
        simp [turns, current, state]
    | «open» =>
        rw [complete_open stale outcome state]
        simp [turns, state]
    | halfOpen =>
        rw [complete_halfOpen stale outcome state, ← state,
          completeHalfOpen_state_ne_iff options now outcome state]
        simp [turns, current, state]

theorem Ledger.step_state_ne_iff (options : Options) (o : Ledger) (call : Call) :
    (o.step options call).breaker.state ≠ o.breaker.state ↔ o.moves options call = true := by
  cases call with
  | state now => exact advanceLocked_state_ne_iff options now o.breaker
  | available now => exact advanceLocked_state_ne_iff options now o.breaker
  | allow now =>
      have advances := advanceLocked_state_ne_iff options now o.breaker
      rcases allow_cases options now o.breaker with ⟨_, breaker, refused⟩ | ⟨_, breaker, permit⟩
      · simp only [step, refused, breaker]
        exact advances
      · simp only [step, permit, breaker, issue, moved, occupied_state]
        exact advances
  | done index outcome now =>
      simp only [step, finish, moves]
      cases o.permits[index]? with
      | none => simp
      | some issued =>
          cases spent : issued.permit.spent with
          | true => simp [spent]
          | false =>
              simp only [spent, Bool.false_eq_true, if_false, Bool.not_false, Bool.true_and]
              exact complete_state_ne_iff options now issued.permit outcome o.breaker

/-! A property of the breaker alone holds along runs when its methods keep it. -/

section BreakerRule

variable {options : Options} {motive : Breaker → Prop}
  (advance : ∀ now b, motive b → motive (advanceLocked options now b).1)
  (occupy : ∀ b, motive b → motive (occupied b))
  (completes : ∀ now state generation outcome b, motive b →
    motive (complete options now state generation outcome b).1)
include advance occupy completes

theorem Ledger.step_breaker {o : Ledger} (before : motive o.breaker) (call : Call) :
    motive (o.step options call).breaker := by
  cases call with
  | state now => exact advance now _ before
  | available now => exact advance now _ before
  | allow now =>
      rcases allow_cases options now o.breaker with ⟨_, breaker, refused⟩ | ⟨_, breaker, permit⟩
      · simp only [step, refused, breaker]
        exact advance now _ before
      · simp only [step, permit, breaker]
        exact occupy _ (advance now _ before)
  | done index outcome now =>
      simp only [step, finish]
      split
      · exact before
      · split
        · exact before
        · exact completes now _ _ outcome _ before

theorem Ledger.run_breaker (calls : List Call) {o : Ledger} (before : motive o.breaker) :
    motive (o.run options calls).breaker := by
  induction calls generalizing o with
  | nil => exact before
  | cons call calls ih => exact ih (step_breaker advance occupy completes before call)

end BreakerRule

/-- The breaker of one request that trips on its first failure and recovers on one probe. -/
def smallest : Options := ⟨1, 1, .ofRat 1, 1, 1⟩

end ModelGate.CircuitBreaker
