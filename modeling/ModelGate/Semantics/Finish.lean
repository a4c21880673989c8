import ModelGate.Semantics.Pool

/-! Programs of bounded length, and pools in which some thread can always go on.

In such a pool every thread can be brought to its end, whatever the others have
done so far and without new tasks.
-/

set_option autoImplicit false

namespace ModelGate.Semantics

variable {S : Signature} {α : Type}

namespace Program

/-- At most `bound` operations are left, whatever they are answered. -/
def Within : Nat → Program S α → Prop
  | _, .done _ => True
  | _, .abort _ => True
  | 0, .perform _ _ => False
  | bound + 1, .perform _ next => ∀ reply, (next reply).Within bound

@[simp] theorem within_done {bound : Nat} {value : α} :
    (done value : Program S α).Within bound := by
  cases bound <;> trivial

@[simp] theorem within_abort {bound : Nat} {reason : String} :
    (abort reason : Program S α).Within bound := by
  cases bound <;> trivial

theorem within_call_bind {bound : Nat} {op : S.Op} {next : S.Reply op → Program S α}
    (rest : ∀ reply, (next reply).Within bound) : (call op >>= next).Within (bound + 1) := rest

theorem Within.mono {bound larger : Nat} {program : Program S α} (within : program.Within bound)
    (fits : bound ≤ larger) : program.Within larger := by
  induction program generalizing bound larger with
  | done value => exact within_done
  | abort reason => exact within_abort
  | perform op next ih =>
      cases bound with
      | zero => exact within.elim
      | succ bound =>
          obtain ⟨larger, rfl⟩ := Nat.exists_eq_succ_of_ne_zero
            (Nat.ne_of_gt (Nat.lt_of_lt_of_le (Nat.succ_pos bound) fits))
          exact fun reply => ih reply (within reply) (Nat.le_of_succ_le_succ fits)

theorem Within.ensuring_call {bound : Nat} {body : Program S α} {op : S.Op}
    {next : S.Reply op → Unit} (within : body.Within bound) :
    (body.ensuring (.perform op fun reply => .done (next reply))).Within (bound + 1) := by
  induction body generalizing bound with
  | done value => exact fun _ => within_done
  | abort reason => exact fun _ => within_abort
  | perform op' rest ih =>
      cases bound with
      | zero => exact within.elim
      | succ bound => exact fun reply => ih reply (within reply)

end Program

variable {State Task : Type} {A : System S State Task α}

namespace Pool

/-- Some thread takes its next operation. -/
def Advances (pool next : Pool A) : Prop :=
  ∃ (index : Nat) (thread : Thread A) (op : S.Op) (rest : S.Reply op → Program S α)
    (reply : S.Reply op) (shared : State),
    pool.threads[index]? = some thread ∧ thread.rest = .perform op rest ∧
      A.handles index pool.shared op reply shared ∧
      next = ⟨shared, pool.threads.set index (thread.advance ⟨op, reply⟩ (rest reply))⟩

theorem Advances.step {pool next : Pool A} (advances : pool.Advances next) : pool.Step next := by
  obtain ⟨index, thread, op, rest, reply, shared, found, waits, handled, rfl⟩ := advances
  exact .perform found waits handled

theorem advances_of_answered {pool : Pool A} {index : Nat} {thread : Thread A}
    (found : pool.threads[index]? = some thread) (running : thread.exit = none)
    (answered : ∀ op, thread.current = some op →
      ∃ reply shared, A.handles index pool.shared op reply shared) :
    ∃ next, pool.Advances next := by
  cases rest : thread.rest with
  | done value => simp [Thread.exit, rest] at running
  | abort reason => simp [Thread.exit, rest] at running
  | perform op next =>
      obtain ⟨reply, shared, handled⟩ := answered op (Thread.current_of_rest rest)
      exact ⟨_, index, thread, op, next, reply, shared, found, rest, handled, rfl⟩

/-- Every thread keeps within the bound of its task, with what it has done counted. -/
def InTime (bound : Task → Nat) (pool : Pool A) : Prop :=
  ∀ thread ∈ pool.threads, thread.past.length ≤ bound thread.task ∧
    thread.rest.Within (bound thread.task - thread.past.length)

section Bounded

variable {bound : Task → Nat} (bounded : ∀ task, (A.body task).Within (bound task))

theorem advance_inTime {thread : Thread A} {op : S.Op} {next : S.Reply op → Program S α}
    (waits : thread.rest = .perform op next)
    (timely : thread.past.length ≤ bound thread.task ∧
      thread.rest.Within (bound thread.task - thread.past.length))
    (reply : S.Reply op) :
    thread.past.length + 1 ≤ bound thread.task ∧
    (next reply).Within (bound thread.task - (thread.past.length + 1)) := by
  obtain ⟨within, rest⟩ := timely
  rw [waits] at rest
  cases left : bound thread.task - thread.past.length with
  | zero =>
      rw [left] at rest
      exact rest.elim
  | succ less =>
      rw [left] at rest
      refine ⟨by omega, ?_⟩
      have smaller : bound thread.task - (thread.past.length + 1) = less := by omega
      rw [smaller]
      exact rest reply

include bounded in
theorem inTime_step {pool next : Pool A} (timely : pool.InTime bound) (step : pool.Step next) :
    next.InTime bound := by
  intro thread member
  cases step with
  | spawn admitted =>
      rcases List.mem_append.mp member with old | new
      · exact timely thread old
      · obtain rfl := List.mem_singleton.mp new
        exact ⟨Nat.zero_le _, bounded _⟩
  | perform found waits handled =>
      rcases List.mem_or_eq_of_mem_set member with old | rfl
      · exact timely thread old
      · have later := advance_inTime waits (timely _ (List.mem_of_getElem? found)) (by assumption)
        rw [Thread.advance, List.length_append, List.length_singleton]
        exact later
  | move moved => exact timely thread member

include bounded in
theorem inTime_steps {shared : State} {pool : Pool A} (steps : (Pool.initial shared).Steps pool) :
    pool.InTime bound := by
  induction steps with
  | refl => exact fun _ member => absurd member List.not_mem_nil
  | tail _ step ih => exact inTime_step bounded ih step

def left (bound : Task → Nat) : List (Thread A) → Nat
  | [] => 0
  | thread :: threads => bound thread.task - thread.past.length + left bound threads

theorem left_set_lt {threads : List (Thread A)} {index : Nat} {thread : Thread A}
    (found : threads[index]? = some thread) (event : Event S) (rest : Program S α)
    (early : thread.past.length + 1 ≤ bound thread.task) :
    left bound (threads.set index (thread.advance event rest)) < left bound threads := by
  induction threads generalizing index with
  | nil => cases found
  | cons first threads ih =>
      cases index with
      | zero =>
          obtain rfl := Option.some.inj found
          simp only [List.set_cons_zero, left, Thread.advance, List.length_append,
            List.length_singleton]
          omega
      | succ index => exact Nat.add_lt_add_left (ih found) _

theorem Advances.left_lt {pool next : Pool A} (timely : pool.InTime bound)
    (advances : pool.Advances next) : left bound next.threads < left bound pool.threads := by
  obtain ⟨index, thread, op, rest, reply, shared, found, waits, handled, rfl⟩ := advances
  exact left_set_lt found _ _
    (advance_inTime waits (timely thread (List.mem_of_getElem? found)) reply).1

include bounded in
/-- A pool that cannot get stuck can be brought to its end. -/
theorem finishes {Inv : Pool A → Prop}
    (kept : ∀ {pool next}, Inv pool → pool.Advances next → Inv next)
    (live : ∀ {pool}, Inv pool → ∀ thread ∈ pool.threads, thread.exit = none →
      ∃ next, pool.Advances next)
    {pool : Pool A} (starts : Inv pool) (timely : pool.InTime bound) :
    ∃ last, Relation.ReflTransGen Advances pool last ∧ Inv last ∧
    ∀ thread ∈ last.threads, thread.exit ≠ none := by
  induction size : left bound pool.threads using Nat.strongRecOn generalizing pool with
  | ind size ih =>
      by_cases running : ∃ thread ∈ pool.threads, thread.exit = none
      · obtain ⟨thread, member, unfinished⟩ := running
        obtain ⟨next, advances⟩ := live starts thread member unfinished
        obtain ⟨last, rest, inv, ended⟩ := ih _ (size ▸ advances.left_lt timely)
          (kept starts advances) (inTime_step bounded timely advances.step) rfl
        exact ⟨last, .head advances rest, inv, ended⟩
      · exact ⟨pool, .refl, starts, fun thread member unfinished =>
          running ⟨thread, member, unfinished⟩⟩

end Bounded

section Schedule

variable (answer : State → (op : S.Op) → Option (S.Reply op × State))

/-- The next operation of one thread, if it is answered. -/
def attempt (pool : Pool A) (index : Nat) : Pool A :=
  match pool.threads[index]? with
  | none => pool
  | some thread =>
      match thread.rest with
      | .done _ | .abort _ => pool
      | .perform op next =>
          match answer pool.shared op with
          | none => pool
          | some (reply, shared) =>
              ⟨shared, pool.threads.set index (thread.advance ⟨op, reply⟩ (next reply))⟩

/-- Threads take turns; one that is not answered waits. -/
def schedule (pool : Pool A) (turns : List Nat) : Pool A := turns.foldl (attempt answer) pool

variable {answer} (sound : ∀ {index state op reply shared}, answer state op = some (reply, shared) →
  A.handles index state op reply shared)
include sound

theorem attempt_steps (pool : Pool A) (index : Nat) : pool.Steps (pool.attempt answer index) := by
  unfold attempt
  split
  · exact .refl
  · rename_i thread found
    split
    · exact .refl
    · exact .refl
    · rename_i op next waits
      split
      · exact .refl
      · rename_i reply shared answered
        exact .single (.perform found waits (sound answered))

theorem schedule_steps (pool : Pool A) (turns : List Nat) :
    pool.Steps (pool.schedule answer turns) := by
  induction turns generalizing pool with
  | nil => exact .refl
  | cons index turns ih =>
      exact .trans (attempt_steps sound pool index) (ih (pool.attempt answer index))

end Schedule

theorem spawn_steps {shared : State} (tasks : List Task)
    (admitted : ∀ task ∈ tasks, A.admits shared task) (threads : List (Thread A)) :
    (Pool.mk shared threads).Steps ⟨shared, threads ++ tasks.map .start⟩ := by
  induction tasks generalizing threads with
  | nil => rw [List.map_nil, List.append_nil]; exact .refl
  | cons task tasks ih =>
      obtain ⟨first, others⟩ := List.forall_mem_cons.mp admitted
      have rest := ih others (threads ++ [.start task])
      rw [List.append_assoc] at rest
      exact .head (.spawn first) rest

end Pool

end ModelGate.Semantics
