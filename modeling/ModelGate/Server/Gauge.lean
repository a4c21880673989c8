import ModelGate.CircuitBreaker.Ledger

/-! The exported circuit gauge of a provider.

`buildProviderRouter` installs a callback that reads the breaker's state and
exports what it read. Each breaker operation is one step of its thread. An
operation that changed the state then runs a callback on the same thread, whose
read and export are two further steps; the read is an operation of the breaker
itself and may run a callback of its own before it returns.
-/

set_option autoImplicit false

namespace ModelGate.CircuitBreaker

/-- What a call hands to `OnStateChange`. -/
def Ledger.notification (options : Options) (o : Ledger) : Call → Option State
  | .allow now => (allow options now o.breaker).2.2
  | .state now => (currentState options now o.breaker).2.2
  | .available now => (available options now o.breaker).2.2
  | .done index outcome now =>
      match o.permits[index]? with
      | none => none
      | some issued =>
          if issued.permit.spent then none
          else (complete options now issued.permit.state issued.permit.generation outcome
            o.breaker).2

theorem advanceLocked_unchanged {options : Options} {now : Int} {b : Breaker}
    (same : (advanceLocked options now b).2 = false) : (advanceLocked options now b).1 = b := by
  rcases advanceLocked_cases options now b with ⟨still, _⟩ | ⟨_, _, entered⟩
  · rw [still]
  · rw [entered] at same
    cases same

theorem notify_eq_none {changed : Bool} {b : Breaker} (quiet : notify changed b = none) :
    changed = false := by
  cases changed with
  | false => rfl
  | true => cases quiet

theorem completeClosed_silent {options : Options} {now : Int} {outcome : Outcome} {b : Breaker}
    (quiet : (completeClosed options now outcome b).2 = none) :
    (completeClosed options now outcome b).1.state = b.state := by
  unfold completeClosed at quiet ⊢
  split
  · rfl
  · rename_i counts
    rw [if_neg counts] at quiet
    dsimp only at quiet ⊢
    split
    · rename_i trips
      rw [if_pos trips] at quiet
      cases quiet
    · exact recordLocked_state _ _ _

theorem completeHalfOpen_silent {options : Options} {now : Int} {outcome : Outcome} {b : Breaker}
    (quiet : (completeHalfOpen options now outcome b).2 = none) :
    (completeHalfOpen options now outcome b).1.state = b.state := by
  have vacates := vacated_state b
  cases outcome with
  | ignored => exact vacates
  | failure => cases quiet
  | success =>
      simp only [completeHalfOpen] at quiet ⊢
      split
      · rename_i reached
        rw [if_pos reached] at quiet
        cases quiet
      · exact vacates

theorem complete_silent {options : Options} {now : Int} {permitState : State} {generation : UInt64}
    {outcome : Outcome} {b : Breaker}
    (quiet : (complete options now permitState generation outcome b).2 = none) :
    (complete options now permitState generation outcome b).1.state = b.state := by
  by_cases stale : generation ≠ b.generation ∨ permitState ≠ b.state
  · rw [complete_stale outcome stale]
  · cases state : b.state with
    | closed =>
        rw [complete_closed stale outcome state] at quiet ⊢
        exact (completeClosed_silent quiet).trans state
    | «open» =>
        rw [complete_open stale outcome state]
        exact state
    | halfOpen =>
        rw [complete_halfOpen stale outcome state] at quiet ⊢
        exact (completeHalfOpen_silent quiet).trans state

theorem Ledger.step_silent {options : Options} {o : Ledger} {call : Call}
    (quiet : o.notification options call = none) :
    (o.step options call).breaker.state = o.breaker.state := by
  cases call with
  | state now =>
      exact congrArg Breaker.state (advanceLocked_unchanged (notify_eq_none quiet))
  | available now =>
      exact congrArg Breaker.state (advanceLocked_unchanged (notify_eq_none quiet))
  | allow now =>
      have same : (advanceLocked options now o.breaker).1 = o.breaker := by
        apply advanceLocked_unchanged
        simp only [notification, allow] at quiet
        split at quiet <;> exact notify_eq_none quiet
      rcases allow_cases options now o.breaker with ⟨_, breaker, refused⟩ | ⟨_, breaker, permit⟩
      · simp only [step, refused, breaker]
        exact congrArg Breaker.state same
      · simp only [step, permit, breaker, same]
        exact occupied_state o.breaker
  | done index outcome now =>
      simp only [notification] at quiet
      simp only [step, finish]
      split
      · rfl
      · rename_i issued found
        simp only [found] at quiet
        split
        · rfl
        · rename_i live
          rw [if_neg live] at quiet
          exact complete_silent quiet

end ModelGate.CircuitBreaker

namespace ModelGate.Server

open CircuitBreaker

/-- A callback that has yet to read the state, or yet to export what it read. -/
inductive Frame where
  | reading
  | writing (value : State)
  deriving DecidableEq

/-- The breaker, the gauge and, for every thread, its callbacks from the innermost out. -/
structure World where
  ledger : Ledger
  gauge : State
  frames : Nat → List Frame

inductive Action where
  /-- A thread outside any callback calls the breaker. -/
  | call (thread : Nat) (call : Call)
  /-- A thread goes on with its innermost callback. -/
  | proceed (thread : Nat) (now : Int)

def Action.thread : Action → Nat
  | .call thread _ => thread
  | .proceed thread _ => thread

def started (notification : Option State) : List Frame :=
    if notification.isSome then [.reading] else []

namespace World

/-- The gauge is set to closed before the provider is used. -/
def start : World := ⟨.start, .closed, fun _ => []⟩

def SetCircuitState (w : World) (value : State) : World := { w with gauge := value }

def operate (options : Options) (w : World) (thread : Nat) (call : Call) (rest : List Frame) :
    World :=
  { w with
    ledger := w.ledger.step options call
    frames := Function.update w.frames thread
      (started (w.ledger.notification options call) ++ rest) }

def step (options : Options) (w : World) : Action → World
  | .call thread call => if w.frames thread = [] then w.operate options thread call [] else w
  | .proceed thread now =>
      match w.frames thread with
      | [] => w
      | .reading :: rest =>
          let value := (currentState options now w.ledger.breaker).2.1
          w.operate options thread (.state now) (.writing value :: rest)
      | .writing value :: rest =>
          { w.SetCircuitState value with frames := Function.update w.frames thread rest }

def run (options : Options) (w : World) (actions : List Action) : World :=
  actions.foldl (step options) w

theorem step_frames (options : Options) (w : World) {action : Action} {other : Nat}
    (apart : action.thread ≠ other) : (w.step options action).frames other = w.frames other := by
  cases action with
  | call thread call =>
      simp only [step]
      split
      · exact Function.update_of_ne apart.symm _ _
      · rfl
  | proceed thread now =>
      simp only [step]
      split
      · rfl
      · exact Function.update_of_ne apart.symm _ _
      · exact Function.update_of_ne apart.symm _ _

theorem run_frames (options : Options) (actions : List Action) {w : World} {other : Nat}
    (apart : ∀ action ∈ actions, action.thread ≠ other) :
    (w.run options actions).frames other = w.frames other := by
  induction actions generalizing w with
  | nil => rfl
  | cons action actions ih =>
      obtain ⟨first, rest⟩ := List.forall_mem_cons.mp apart
      exact (ih rest).trans (step_frames options w first)

def Quiescent (w : World) : Prop := ∀ thread, w.frames thread = []

def NoneWriting (w : World) : Prop := ∀ thread value, .writing value ∉ w.frames thread

/-- The actions that change the stored state, told from the world before them. -/
def moves (options : Options) (w : World) : Action → Bool
  | .call thread call => decide (w.frames thread = []) && w.ledger.moves options call
  | .proceed thread now =>
      decide ((w.frames thread).head? = some .reading) && w.ledger.moves options (.state now)

/-- A change of the stored state finds no callback between its read and its export. -/
def Calm (options : Options) (w : World) (action : Action) : Prop :=
  w.moves options action = true → w.NoneWriting

def CalmRun (options : Options) : World → List Action → Prop
  | _, [] => True
  | w, action :: actions => w.Calm options action ∧ CalmRun options (w.step options action) actions

/-- What is about to be exported is the stored state, and a gauge that differs has a
callback coming. -/
structure Fresh (w : World) : Prop where
  writes : ∀ thread value, .writing value ∈ w.frames thread → value = w.ledger.breaker.state
  owed : w.gauge = w.ledger.breaker.state ∨ ∃ thread, w.frames thread ≠ []

theorem start_fresh : start.Fresh where
  writes _ _ pending := absurd pending List.not_mem_nil
  owed := .inl rfl

theorem Fresh.settled {w : World} (fresh : w.Fresh) (quiescent : w.Quiescent) :
    w.gauge = w.ledger.breaker.state := by
  rcases fresh.owed with same | ⟨thread, pending⟩
  · exact same
  · exact absurd (quiescent thread) pending

theorem mem_update_frames {w : World} {thread other : Nat} {frames : List Frame} {frame : Frame}
    (pending : frame ∈ Function.update w.frames thread frames other) :
    frame ∈ frames ∨ frame ∈ w.frames other := by
  by_cases same : other = thread
  · subst same
    rw [Function.update_self] at pending
    exact .inl pending
  · rw [Function.update_of_ne same] at pending
    exact .inr pending

theorem writing_notMem_started (notification : Option State) (value : State) :
    .writing value ∉ started notification := by
  unfold started
  split <;> simp

theorem operate_fresh {options : Options} {w : World} (fresh : w.Fresh) {thread : Nat} {call : Call}
    {rest : List Frame} (calm : w.ledger.moves options call = true → w.NoneWriting)
    (writes : ∀ value, .writing value ∈ rest →
      value = (w.ledger.step options call).breaker.state ∨ .writing value ∈ w.frames thread)
    (kept : w.frames thread ≠ [] → rest ≠ []) : (w.operate options thread call rest).Fresh := by
  constructor
  · -- An older read is still current: the state has not changed since, or nothing was read.
    have old (other : Nat) (value : State) (pending : .writing value ∈ w.frames other) :
        value = (w.ledger.step options call).breaker.state := by
      by_cases same : (w.ledger.step options call).breaker.state = w.ledger.breaker.state
      · rw [same]
        exact fresh.writes other value pending
      · exact absurd pending (calm ((Ledger.step_state_ne_iff options _ _).mp same) other value)
    intro other value pending
    rcases mem_update_frames pending with here | there
    · rcases List.mem_append.mp here with new | below
      · exact absurd new (writing_notMem_started _ value)
      · exact (writes value below).elim id (old thread value)
    · exact old other value there
  · by_cases quiet : w.ledger.notification options call = none
    · have same := Ledger.step_silent quiet
      rcases fresh.owed with current | ⟨other, pending⟩
      · exact .inl (current.trans same.symm)
      · refine .inr ⟨other, ?_⟩
        by_cases mine : other = thread
        · subst mine
          simp only [operate, Function.update_self]
          exact List.append_ne_nil_of_right_ne_nil _ (kept pending)
        · simp only [operate, Function.update_of_ne mine]
          exact pending
    · refine .inr ⟨thread, ?_⟩
      simp [operate, started, Option.isSome_iff_ne_none.mpr quiet]

theorem step_fresh {options : Options} {w : World} (fresh : w.Fresh) {action : Action}
    (calm : w.Calm options action) : (w.step options action).Fresh := by
  cases action with
  | call thread call =>
      simp only [step]
      split
      · rename_i idle
        refine operate_fresh fresh (fun moves => calm ?_) (fun value pending => nomatch pending)
          fun busy => absurd idle busy
        simpa [World.moves, idle] using moves
      · exact fresh
  | proceed thread now =>
      simp only [step]
      cases frames : w.frames thread with
      | nil => exact fresh
      | cons frame rest =>
          cases frame with
          | reading =>
              refine operate_fresh fresh (fun moves => calm ?_) (fun value pending => ?_)
                fun _ => List.cons_ne_nil _ _
              · simpa [World.moves, frames] using moves
              · rcases List.mem_cons.mp pending with read | below
                · cases read
                  exact .inl rfl
                · exact .inr (frames ▸ List.mem_cons_of_mem _ below)
          | writing value =>
              have read := fresh.writes thread value (frames ▸ List.mem_cons_self)
              refine ⟨fun other next pending => ?_, .inl read⟩
              rcases mem_update_frames pending with here | there
              · exact fresh.writes thread next (frames ▸ List.mem_cons_of_mem _ here)
              · exact fresh.writes other next there

theorem run_fresh {options : Options} (actions : List Action) {w : World} (fresh : w.Fresh)
    (calm : CalmRun options w actions) : (w.run options actions).Fresh := by
  induction actions generalizing w with
  | nil => exact fresh
  | cons action actions ih => exact ih (step_fresh fresh calm.1) calm.2

end World

/-- When no transition falls between a callback's read and its export, the gauge of every
quiescent state is the stored state. -/
theorem gauge_current {options : Options} (actions : List Action)
    (calm : World.CalmRun options .start actions)
    (quiescent : (World.start.run options actions).Quiescent) :
    (World.start.run options actions).gauge =
      (World.start.run options actions).ledger.breaker.state :=
  (World.run_fresh actions World.start_fresh calm).settled quiescent

theorem World.Quiescent.noneWriting {w : World} (quiescent : w.Quiescent) : w.NoneWriting := by
  intro thread value
  rw [quiescent thread]
  exact List.not_mem_nil

theorem World.quiescent_of_idle (options : Options) (actions : List Action) (first second : Nat)
    (only : ∀ action ∈ actions, action.thread = first ∨ action.thread = second)
    (one : (World.start.run options actions).frames first = [])
    (two : (World.start.run options actions).frames second = []) :
    (World.start.run options actions).Quiescent := by
  intro thread
  by_cases mine : thread = first
  · rw [mine, one]
  · by_cases other : thread = second
    · rw [other, two]
    · refine World.run_frames options actions fun action member same => ?_
      rcases only action member with here | here
      · exact mine (same.symm.trans here)
      · exact other (same.symm.trans here)

/-- A failure on one thread opens the breaker and its callback exports that.
Then a read on another thread makes it half-open, and its callback exports that. -/
theorem gauge_current_opened :
    let actions : List Action :=
    [.call 1 (.allow 0), .call 1 (.done 0 .failure 0), .proceed 1 0, .proceed 1 0,
      .call 2 (.state 1), .proceed 2 1, .proceed 2 1]
    (World.start.run smallest actions).gauge = .halfOpen ∧
      (World.start.run smallest actions).gauge =
        (World.start.run smallest actions).ledger.breaker.state := by
  intro actions
  have still {w : World} {action : Action} (same : w.moves smallest action = false) :
      w.Calm smallest action :=
    fun moves => absurd (same.symm.trans moves) Bool.false_ne_true
  have idle (taken : List Action) (only : ∀ action ∈ taken, action.thread = 1 ∨
      action.thread = 2) :=
    World.quiescent_of_idle smallest taken 1 2 only
  refine ⟨by decide +kernel, gauge_current actions ⟨still ?_, fun _ => ?_, still ?_, still ?_,
    fun _ => ?_, still ?_, still ?_, trivial⟩ ?_⟩
  · decide +kernel
  · exact (idle [.call 1 (.allow 0)] (by decide) (by decide +kernel)
      (by decide +kernel)).noneWriting
  · decide +kernel
  · decide +kernel
  · exact (idle [.call 1 (.allow 0), .call 1 (.done 0 .failure 0), .proceed 1 0, .proceed 1 0]
      (by decide) (by decide +kernel) (by decide +kernel)).noneWriting
  · decide +kernel
  · decide +kernel
  · exact idle actions (by decide) (by decide +kernel) (by decide +kernel)

/-- A callback that read `open` exports it after another thread's transition to half-open
has been exported. -/
theorem not_gauge_current :
    let actions : List Action :=
    [.call 1 (.allow 0), .call 1 (.done 0 .failure 0), .proceed 1 0, .call 2 (.state 1),
      .proceed 2 1, .proceed 2 1, .proceed 1 1]
    New smallest = .ok initialBreaker ∧ (World.start.run smallest actions).Quiescent ∧
      (World.start.run smallest actions).gauge = .open ∧
      (World.start.run smallest actions).ledger.breaker.state = .halfOpen := by
  intro actions
  have quiescent := World.quiescent_of_idle smallest actions 1 2 (by decide) (by decide +kernel)
    (by decide +kernel)
  exact ⟨by decide +kernel, quiescent, by decide +kernel, by decide +kernel⟩

end ModelGate.Server
