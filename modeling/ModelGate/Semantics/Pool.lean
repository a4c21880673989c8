import Mathlib.Data.List.Count
import Mathlib.Logic.Relation
import ModelGate.Semantics.Program

/-! Any number of programs over one shared state, interleaved by operations.

A thread keeps its task, the events it has performed and the program left. The
invariant rule asks for the shared state and the phase of each thread only:
once every task's program obeys a protocol, its text is not looked at again.
-/

set_option autoImplicit false

namespace ModelGate.Semantics

/-- What runs in a pool. `handles` also sees the number of the calling thread;
`moves` are the steps that no thread takes. -/
structure System (S : Signature) (State Task α : Type) where
  body : Task → Program S α
  admits : State → Task → Prop
  handles : Nat → State → (op : S.Op) → S.Reply op → State → Prop
  moves : State → State → Prop

theorem getElem?_set_some {β : Type} {items : List β} {index position : Nat} {item found : β}
    (located : (items.set index item)[position]? = some found) :
    (position = index ∧ found = item) ∨ (position ≠ index ∧ items[position]? = some found) := by
  by_cases same : index = position
  · subst same
    rw [List.getElem?_set_self'] at located
    obtain ⟨_, _, rfl⟩ := Option.map_eq_some_iff.mp located
    exact .inl ⟨rfl, rfl⟩
  · rw [List.getElem?_set_ne same] at located
    exact .inr ⟨Ne.symm same, located⟩

theorem getElem?_concat_some {β : Type} {items : List β} {position : Nat} {item found : β}
    (located : (items ++ [item])[position]? = some found) :
    items[position]? = some found ∨ found = item := by
  rw [List.getElem?_append] at located
  split at located
  · exact .inl located
  · exact .inr (List.mem_singleton.mp (List.mem_of_getElem? located))

theorem set_of_getElem? {β : Type} {items : List β} {index : Nat} {item : β}
    (located : items[index]? = some item) : items.set index item = items := by
  obtain ⟨bound, rfl⟩ := List.getElem?_eq_some_iff.mp located
  exact List.set_getElem_self bound

variable {S : Signature} {State Task α : Type}

structure Thread (A : System S State Task α) where
  task : Task
  past : List (Event S)
  rest : Program S α

structure Pool (A : System S State Task α) where
  shared : State
  threads : List (Thread A)

namespace Thread

variable {A : System S State Task α}

def start (task : Task) : Thread A := ⟨task, [], A.body task⟩

def advance (thread : Thread A) (event : Event S) (rest : Program S α) : Thread A :=
  ⟨thread.task, thread.past ++ [event], rest⟩

def exit (thread : Thread A) : Option (Exit α) :=
  match thread.rest with
  | .done value => some (.returned value)
  | .abort reason => some (.aborted reason)
  | .perform _ _ => none

def current (thread : Thread A) : Option S.Op :=
  match thread.rest with
  | .perform op _ => some op
  | _ => none

theorem current_of_rest {thread : Thread A} {op : S.Op} {next : S.Reply op → Program S α}
    (waits : thread.rest = .perform op next) : thread.current = some op := by
  rw [current, waits]

theorem current_of_exit {thread : Thread A} (running : thread.exit = none) :
    ∃ op, thread.current = some op := by
  unfold exit at running
  split at running
  · cases running
  · cases running
  · rename_i op next waits
    exact ⟨op, current_of_rest waits⟩

end Thread

namespace Pool

variable {A : System S State Task α}

inductive Step : Pool A → Pool A → Prop where
  | spawn {pool : Pool A} {task : Task} (admitted : A.admits pool.shared task) :
      Step pool ⟨pool.shared, pool.threads ++ [.start task]⟩
  | perform {pool : Pool A} {index : Nat} {thread : Thread A} {op : S.Op}
      {next : S.Reply op → Program S α}
      {reply : S.Reply op} {shared : State} (found : pool.threads[index]? = some thread)
      (waits : thread.rest = .perform op next)
        (handled : A.handles index pool.shared op reply shared) :
      Step pool ⟨shared, pool.threads.set index (thread.advance ⟨op, reply⟩ (next reply))⟩
  | move {pool : Pool A} {shared : State} (moved : A.moves pool.shared shared) :
      Step pool ⟨shared, pool.threads⟩

/-- What any number of steps leads to. -/
def Steps : Pool A → Pool A → Prop := Relation.ReflTransGen Step

def initial (shared : State) : Pool A := ⟨shared, []⟩

/-- A scheduler's choice. -/
inductive Turn (State Task : Type) where
  | spawn (task : Task)
  | run (index : Nat)
  | move (shared : State)

/-- The next operation of one thread, with the replies given by a function. -/
def run (respond : Nat → State → (op : S.Op) → S.Reply op × State) (pool : Pool A) (index : Nat) :
    Pool A :=
  match pool.threads[index]? with
  | none => pool
  | some thread =>
      match thread.rest with
      | .done _ | .abort _ => pool
      | .perform op next =>
          let answer := respond index pool.shared op
          ⟨answer.2, pool.threads.set index (thread.advance ⟨op, answer.1⟩ (next answer.1))⟩

def turn (respond : Nat → State → (op : S.Op) → S.Reply op × State) (pool : Pool A) :
    Turn State Task → Pool A
  | .spawn task => ⟨pool.shared, pool.threads ++ [.start task]⟩
  | .run index => pool.run respond index
  | .move shared => ⟨shared, pool.threads⟩

def play (respond : Nat → State → (op : S.Op) → S.Reply op × State) (pool : Pool A)
    (turns : List (Turn State Task)) : Pool A :=
  turns.foldl (turn respond) pool

def Legal (respond : Nat → State → (op : S.Op) → S.Reply op × State) (pool : Pool A) :
    Turn State Task → Prop
  | .spawn task => A.admits pool.shared task
  | .run index => ∀ op, pool.threads[index]?.bind Thread.current = some op →
      A.handles index pool.shared op (respond index pool.shared op).1
        (respond index pool.shared op).2
  | .move shared => A.moves pool.shared shared

def LegalAll (respond : Nat → State → (op : S.Op) → S.Reply op × State) :
    Pool A → List (Turn State Task) → Prop
  | _, [] => True
  | pool, choice :: turns =>
      pool.Legal respond choice ∧ LegalAll respond (pool.turn respond choice) turns

section Play

variable {respond : Nat → State → (op : S.Op) → S.Reply op × State}

theorem run_steps {pool : Pool A} {index : Nat} (legal : pool.Legal respond (.run index)) :
    pool.Steps (pool.run respond index) := by
  unfold run
  split
  · exact .refl
  · rename_i thread found
    split
    · exact .refl
    · exact .refl
    · rename_i op next waits
      refine .single (.perform found waits (legal op ?_))
      rw [found]
      exact Thread.current_of_rest waits

theorem play_steps {turns : List (Turn State Task)} {pool : Pool A}
    (legal : pool.LegalAll respond turns) : pool.Steps (pool.play respond turns) := by
  induction turns generalizing pool with
  | nil => exact .refl
  | cons choice turns ih =>
      refine .trans ?_ (ih legal.2)
      cases choice with
      | spawn task => exact .single (.spawn legal.1)
      | run index => exact run_steps legal.1
      | move shared => exact .single (.move legal.1)

end Play

end Pool

/-- The phase each task starts in. -/
structure Discipline (A : System S State Task α) (Phase : Type) where
  protocol : Protocol S Phase
  first : Task → Phase
  post : Exit α → Phase → Prop
  obeyed : ∀ shared task, A.admits shared task → Obeys protocol post (A.body task) (first task)

namespace Discipline

variable {A : System S State Task α} {Phase : Type} (D : Discipline A Phase)

def phase (thread : Thread A) : Phase := D.protocol.advance (D.first thread.task) thread.past

def phases (pool : Pool A) : List Phase := pool.threads.map D.phase

@[simp] theorem phase_start (task : Task) : D.phase (.start task) = D.first task := rfl

theorem phase_advance (thread : Thread A) (event : Event S) (rest : Program S α) :
    D.phase (thread.advance event rest) = D.protocol.after (D.phase thread) event.op event.reply :=
  D.protocol.advance_concat _ _ _

/-- What a shared invariant has to survive. A thread in some phase does only
what its protocol allows there, and the answer it gets has to be expected. -/
structure Preserves (Inv : State → List Phase → Prop) : Prop where
  spawn : ∀ {shared phases task}, Inv shared phases → A.admits shared task →
    Inv shared (phases ++ [D.first task])
  perform : ∀ {shared phases index phase op reply next}, Inv shared phases →
    phases[index]? = some phase → D.protocol.may phase op → A.handles index shared op reply next →
    D.protocol.answers phase op reply ∧
    Inv next (phases.set index (D.protocol.after phase op reply))
  move : ∀ {shared phases next}, Inv shared phases → A.moves shared next → Inv next phases

/-- The invariant and the obedience of every thread. -/
def Holds (Inv : State → List Phase → Prop) (pool : Pool A) : Prop :=
  Inv pool.shared (D.phases pool) ∧ ∀ thread ∈ pool.threads, Obeys D.protocol D.post thread.rest
      (D.phase thread)

theorem phases_getElem? {pool : Pool A} {index : Nat} {thread : Thread A}
    (found : pool.threads[index]? = some thread) :
    (D.phases pool)[index]? = some (D.phase thread) := by
  simp [phases, found]

theorem thread_of_phase {pool : Pool A} {index : Nat} {phase : Phase}
    (located : (D.phases pool)[index]? = some phase) :
    ∃ thread, pool.threads[index]? = some thread ∧ D.phase thread = phase := by
  rw [phases, List.getElem?_map] at located
  exact Option.map_eq_some_iff.mp located

theorem mem_phases {pool : Pool A} {thread : Thread A} (member : thread ∈ pool.threads) :
    D.phase thread ∈ D.phases pool :=
  List.mem_map_of_mem member

variable {D} in
theorem Holds.may_of_current {Inv : State → List Phase → Prop} {pool : Pool A}
    (holds : D.Holds Inv pool) {thread : Thread A} (member : thread ∈ pool.threads) {op : S.Op}
    (current : thread.current = some op) : D.protocol.may (D.phase thread) op := by
  have obeys := holds.2 thread member
  unfold Thread.current at current
  split at current
  · rename_i rest
    rw [rest, obeys_perform] at obeys
    obtain rfl := Option.some.inj current
    exact obeys.1
  · cases current

variable {D} in
theorem Holds.post_of_exit {Inv : State → List Phase → Prop} {pool : Pool A}
    (holds : D.Holds Inv pool) {thread : Thread A} (member : thread ∈ pool.threads) {exit : Exit α}
    (ended : thread.exit = some exit) : D.post exit (D.phase thread) := by
  have obeys := holds.2 thread member
  unfold Thread.exit at ended
  split at ended <;> rename_i rest
  · obtain rfl := Option.some.inj ended
    rw [rest, obeys_done] at obeys
    exact obeys
  · obtain rfl := Option.some.inj ended
    rw [rest, obeys_abort] at obeys
    exact obeys
  · cases ended

theorem holds_initial {Inv : State → List Phase → Prop} {shared : State} (starts : Inv shared []) :
    D.Holds Inv (.initial shared) :=
  ⟨starts, fun _ member => absurd member List.not_mem_nil⟩

variable {D} {Inv : State → List Phase → Prop} (preserves : D.Preserves Inv)
include preserves

theorem Preserves.holds_step {pool next : Pool A} (holds : D.Holds Inv pool)
    (step : pool.Step next) :
    D.Holds Inv next := by
  obtain ⟨inv, obeys⟩ := holds
  cases step with
  | spawn admitted =>
      refine ⟨?_, fun thread member => ?_⟩
      · simpa only [phases, List.map_append, List.map_cons, List.map_nil, phase_start] using
          preserves.spawn inv admitted
      · rcases List.mem_append.mp member with old | new
        · exact obeys thread old
        · obtain rfl := List.mem_singleton.mp new
          exact D.obeyed _ _ admitted
  | @perform index thread op rest reply shared found waits handled =>
      have obedient := obeys thread (List.mem_of_getElem? found)
      rw [waits, obeys_perform] at obedient
      obtain ⟨answered, kept⟩ := preserves.perform inv (D.phases_getElem? found) obedient.1 handled
      refine ⟨?_, fun other member => ?_⟩
      · simpa only [phases, List.map_set, phase_advance] using kept
      · rcases List.mem_or_eq_of_mem_set member with old | rfl
        · exact obeys other old
        · rw [phase_advance]
          exact obedient.2 reply answered
  | move moved => exact ⟨preserves.move inv moved, obeys⟩

theorem Preserves.holds_steps {pool last : Pool A} (holds : D.Holds Inv pool)
    (steps : pool.Steps last) : D.Holds Inv last := by
  induction steps with
  | refl => exact holds
  | tail _ step ih => exact preserves.holds_step ih step

/-- What a thread cannot leave by itself it keeps whatever the others do. -/
theorem Preserves.stays {Q : Phase → Prop}
    (closed : ∀ phase op reply, Q phase → D.protocol.may phase op →
      Q (D.protocol.after phase op reply))
    {pool last : Pool A} (holds : D.Holds Inv pool) (steps : pool.Steps last) {index : Nat}
    {thread : Thread A} (found : pool.threads[index]? = some thread) (stays : Q (D.phase thread)) :
    ∃ later, last.threads[index]? = some later ∧ Q (D.phase later) := by
  induction steps with
  | refl => exact ⟨thread, found, stays⟩
  | tail before step ih =>
      obtain ⟨later, located, kept⟩ := ih
      have obeys := (preserves.holds_steps holds before).2
      -- Only a step of the thread itself changes its phase.
      cases step with
      | spawn admitted =>
          refine ⟨later, ?_, kept⟩
          rw [List.getElem?_append_left (List.getElem?_eq_some_iff.mp located).1]
          exact located
      | @perform position actor op next reply shared inside waits handled =>
          by_cases same : position = index
          · subst same
            rw [located] at inside
            obtain rfl := Option.some.inj inside
            have obedient := obeys later (List.mem_of_getElem? located)
            rw [waits, obeys_perform] at obedient
            refine ⟨_, List.getElem?_set_self (List.getElem?_eq_some_iff.mp located).1, ?_⟩
            rw [phase_advance]
            exact closed _ _ _ kept obedient.1
          · refine ⟨later, ?_, kept⟩
            rw [List.getElem?_set_ne same]
            exact located
      | move moved => exact ⟨later, located, kept⟩

end Discipline

end ModelGate.Semantics
