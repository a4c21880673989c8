import Mathlib.Logic.Equiv.Defs

/-! Programs as trees of operations with every possible reply.

A program ends with a value, aborts (a panic that unwinds), or performs an
operation and continues with the reply. Nothing here fixes what an operation
does: the trace relation allows every reply, and a protocol constrains them.
-/

set_option autoImplicit false

namespace ModelGate.Semantics

/-- The operations of a component, each with the type of its reply. -/
structure Signature where
  Op : Type
  Reply : Op → Type

namespace Signature

abbrev sum (S T : Signature) : Signature where
  Op := S.Op ⊕ T.Op
  Reply
    | .inl op => S.Reply op
    | .inr op => T.Reply op

abbrev indexed (S : Signature) (ι : Type) : Signature where
  Op := ι × S.Op
  Reply op := S.Reply op.2

end Signature

/-- The operations of `S` among those of `T`. -/
structure Embedding (S T : Signature) where
  op : S.Op → T.Op
  reply : (o : S.Op) → T.Reply (op o) ≃ S.Reply o

namespace Embedding

def inr (S T : Signature) : Embedding T (S.sum T) := ⟨.inr, fun _ => .refl _⟩
def member (S : Signature) {ι : Type} (index : ι) : Embedding S (S.indexed ι) :=
  ⟨fun op => (index, op), fun _ => .refl _⟩

end Embedding

inductive Program (S : Signature) (α : Type) : Type where
  | done (value : α)
  | abort (reason : String)
  | perform (op : S.Op) (next : S.Reply op → Program S α)

/-- How a program ended. -/
inductive Exit (α : Type) where
  | returned (value : α)
  | aborted (reason : String)

def Exit.map {α β : Type} (f : α → β) : Exit α → Exit β
  | .returned value => .returned (f value)
  | .aborted reason => .aborted reason

/-- A cleanup that panics does so in place of what it cleans up after. -/
def Exit.andThen {α β : Type} : Exit α → Exit β → Exit β
  | .returned _, exit => exit
  | .aborted reason, _ => .aborted reason

structure Event (S : Signature) where
  op : S.Op
  reply : S.Reply op

variable {S T : Signature} {α β : Type}

def Exit.program : Exit α → Program S α
  | .returned value => .done value
  | .aborted reason => .abort reason

namespace Program

def bind (first : Program S α) (next : α → Program S β) : Program S β :=
  match first with
  | .done value => next value
  | .abort reason => .abort reason
  | .perform op rest => .perform op fun reply => (rest reply).bind next

instance : Monad (Program S) where
  pure := .done
  bind := bind

@[simp] theorem pure_eq (value : α) : (pure value : Program S α) = .done value := rfl

@[simp] theorem done_bind (value : α) (next : α → Program S β) :
    (done value : Program S α) >>= next = next value :=
  rfl

@[simp] theorem perform_bind (op : S.Op) (rest : S.Reply op → Program S α)
    (next : α → Program S β) :
    perform op rest >>= next = .perform op fun reply => rest reply >>= next := rfl

theorem bind_assoc {γ : Type} (first : Program S α) (second : α → Program S β)
    (third : β → Program S γ) :
    first >>= second >>= third = first >>= fun value => second value >>= third := by
  induction first with
  | done value => rfl
  | abort reason => rfl
  | perform op rest ih =>
      simp only [perform_bind]
      congr 1
      exact funext ih

theorem bind_done (program : Program S α) : program >>= done = program := by
  induction program with
  | done value => rfl
  | abort reason => rfl
  | perform op rest ih =>
      simp only [perform_bind]
      congr 1
      exact funext ih

def call (op : S.Op) : Program S (S.Reply op) := .perform op .done

/-- The cleanup runs after the body however it ends, before it returns or
unwinds further. -/
def ensuring (body : Program S α) (cleanup : Program S Unit) : Program S α :=
  match body with
  | .done value => cleanup >>= fun _ => .done value
  | .abort reason => cleanup >>= fun _ => .abort reason
  | .perform op rest => .perform op fun reply => (rest reply).ensuring cleanup

/-- A deferred call that recovers from a panic of the body. -/
def recovering (body : Program S α) (handler : String → Program S α) : Program S α :=
  match body with
  | .done value => .done value
  | .abort reason => handler reason
  | .perform op rest => .perform op fun reply => (rest reply).recovering handler

/-- How the body ended, to a caller that survives its panics. -/
def caught (body : Program S α) : Program S (Exit α) :=
  (body >>= fun value => .done (.returned value)).recovering fun reason => .done (.aborted reason)

/-- A program of one component as a program of a larger one. -/
def along (e : Embedding S T) : Program S α → Program T α
  | .done value => .done value
  | .abort reason => .abort reason
  | .perform op rest => .perform (e.op op) fun reply => (rest (e.reply op reply)).along e

/-- The program left of `first` after the events of a trace. -/
inductive Leads : Program S α → List (Event S) → Program S α → Prop where
  | refl (program : Program S α) : Leads program [] program
  | step {op : S.Op} {next : S.Reply op → Program S α} {reply : S.Reply op} {trace : List (Event S)}
      {rest : Program S α} : Leads (next reply) trace rest →
        Leads (.perform op next) (⟨op, reply⟩ :: trace) rest

def Runs (program : Program S α) (trace : List (Event S)) (exit : Exit α) : Prop :=
  program.Leads trace exit.program

/-- The one execution in which every operation is answered by a function. -/
def run (env : (op : S.Op) → S.Reply op) : Program S α → List (Event S) × Exit α
  | .done value => ([], .returned value)
  | .abort reason => ([], .aborted reason)
  | .perform op next =>
      let rest := (next (env op)).run env
      (⟨op, env op⟩ :: rest.1, rest.2)

theorem run_runs (env : (op : S.Op) → S.Reply op) (program : Program S α) :
    program.Runs (program.run env).1 (program.run env).2 := by
  induction program with
  | done value => exact .refl _
  | abort reason => exact .refl _
  | perform op next ih => exact .step (ih (env op))

theorem run_replies (env : (op : S.Op) → S.Reply op) (program : Program S α) :
    ∀ event ∈ (program.run env).1, event.reply = env event.op := by
  induction program with
  | done value => exact fun _ member => absurd member List.not_mem_nil
  | abort reason => exact fun _ member => absurd member List.not_mem_nil
  | perform op next ih =>
      intro event member
      rcases List.mem_cons.mp member with rfl | later
      · rfl
      · exact ih (env op) event later

end Program

/-- The phases a program goes through: what it may do in each, what it may be
answered, and where each reply takes it. -/
structure Protocol (S : Signature) (Phase : Type) where
  may : Phase → S.Op → Prop
  answers : Phase → (op : S.Op) → S.Reply op → Prop
  after : Phase → (op : S.Op) → S.Reply op → Phase

variable {Phase : Type}

/-- Every completion from a phase obeys the protocol and ends in `post`. -/
def Obeys (P : Protocol S Phase) (post : Exit α → Phase → Prop) : Program S α → Phase → Prop
  | .done value, phase => post (.returned value) phase
  | .abort reason, phase => post (.aborted reason) phase
  | .perform op next, phase =>
      P.may phase op ∧ ∀ reply, P.answers phase op reply →
        Obeys P post (next reply) (P.after phase op reply)

namespace Protocol

def along (P : Protocol T Phase) (e : Embedding S T) : Protocol S Phase where
  may phase op := P.may phase (e.op op)
  answers phase op reply := P.answers phase (e.op op) ((e.reply op).symm reply)
  after phase op reply := P.after phase (e.op op) ((e.reply op).symm reply)

def advance (P : Protocol S Phase) (phase : Phase) (trace : List (Event S)) : Phase :=
  trace.foldl (fun phase event => P.after phase event.op event.reply) phase

/-- Every reply of a trace is one the protocol expects. -/
def Answered (P : Protocol S Phase) : Phase → List (Event S) → Prop
  | _, [] => True
  | phase, event :: trace =>
      P.answers phase event.op event.reply ∧ P.Answered (P.after phase event.op event.reply) trace

/-- An operation a phase allows and is not changed by. -/
def Ignores (P : Protocol S Phase) (phase : Phase) (op : S.Op) : Prop :=
  P.may phase op ∧ ∀ reply, P.after phase op reply = phase

theorem advance_concat (P : Protocol S Phase) (phase : Phase) (trace : List (Event S))
    (event : Event S) :
    P.advance phase (trace ++ [event]) = P.after (P.advance phase trace) event.op event.reply := by
  simp [advance]

theorem advance_append (P : Protocol S Phase) (phase : Phase) (first rest : List (Event S)) :
    P.advance phase (first ++ rest) = P.advance (P.advance phase first) rest := List.foldl_append

theorem answered_append {P : Protocol S Phase} {phase : Phase} {first rest : List (Event S)} :
    P.Answered phase (first ++ rest) ↔ P.Answered phase first ∧
    P.Answered (P.advance phase first) rest := by
  induction first generalizing phase with
  | nil => exact (and_iff_right trivial).symm
  | cons event first ih => exact (and_congr_right fun _ => ih).trans and_assoc.symm

theorem answered_of_forall {P : Protocol S Phase} {trace : List (Event S)}
    (fit : ∀ event ∈ trace, ∀ phase, P.answers phase event.op event.reply) (phase : Phase) :
    P.Answered phase trace := by
  induction trace generalizing phase with
  | nil => exact trivial
  | cons event trace ih =>
      obtain ⟨here, later⟩ := List.forall_mem_cons.mp fit
      exact ⟨here phase, ih later _⟩

/-- What the rest of a sequence asks of its first part. -/
def followed (P : Protocol S Phase) (next : α → Program S β) (post : Exit β → Phase → Prop) :
    Exit α → Phase → Prop
  | .returned value, phase => Obeys P post (next value) phase
  | .aborted reason, phase => post (.aborted reason) phase

/-- What a cleanup asks of the body it follows. -/
def cleaned (P : Protocol S Phase) (cleanup : Program S Unit) (post : Exit α → Phase → Prop)
    (exit : Exit α) (phase : Phase) : Prop :=
  Obeys P (fun
    | .returned _, phase => post exit phase
    | .aborted reason, phase => post (.aborted reason) phase) cleanup phase

end Protocol

section Rules

variable {P : Protocol S Phase} {post : Exit α → Phase → Prop} {phase : Phase}

@[simp] theorem obeys_done {value : α} :
    Obeys P post (.done value) phase ↔ post (.returned value) phase :=
  Iff.rfl

@[simp] theorem obeys_abort {reason : String} :
    Obeys P post (.abort reason) phase ↔ post (.aborted reason) phase := Iff.rfl

@[simp] theorem obeys_perform {op : S.Op} {next : S.Reply op → Program S α} :
    Obeys P post (.perform op next) phase ↔ P.may phase op ∧ ∀ reply, P.answers phase op reply →
    Obeys P post (next reply) (P.after phase op reply) :=
  Iff.rfl

@[simp] theorem obeys_call {op : S.Op} {post : Exit (S.Reply op) → Phase → Prop} :
    Obeys P post (Program.call op) phase ↔ P.may phase op ∧ ∀ reply, P.answers phase op reply →
    post (.returned reply) (P.after phase op reply) :=
  Iff.rfl

@[simp] theorem followed_returned {next : α → Program S β} {post : Exit β → Phase → Prop}
    {value : α} : P.followed next post (.returned value) phase ↔ Obeys P post (next value) phase :=
  Iff.rfl

@[simp] theorem followed_aborted {next : α → Program S β} {post : Exit β → Phase → Prop}
    {reason : String} :
    P.followed next post (.aborted reason) phase ↔ post (.aborted reason) phase :=
  Iff.rfl

@[simp] theorem obeys_bind {first : Program S α} {next : α → Program S β}
    {post : Exit β → Phase → Prop} :
    Obeys P post (first >>= next) phase ↔ Obeys P (P.followed next post) first phase := by
  induction first generalizing phase with
  | done value => rfl
  | abort reason => rfl
  | perform op rest ih =>
      simp only [Program.perform_bind, obeys_perform]
      exact and_congr_right fun _ => forall_congr' fun reply => imp_congr_right fun _ => ih reply

theorem obeys_call_bind {op : S.Op} {next : S.Reply op → Program S α} (allowed : P.may phase op)
    (rest : ∀ reply, P.answers phase op reply →
      Obeys P post (next reply) (P.after phase op reply)) :
    Obeys P post (Program.call op >>= next) phase :=
  ⟨allowed, rest⟩

theorem obeys_ignored {op : S.Op} {next : S.Reply op → Program S α} (ignored : P.Ignores phase op)
    (rest : ∀ reply, P.answers phase op reply → Obeys P post (next reply) phase) :
    Obeys P post (Program.call op >>= next) phase := by
  refine ⟨ignored.1, fun reply answered => ?_⟩
  rw [ignored.2]
  exact rest reply answered

theorem obeys_ensuring {body : Program S α} {cleanup : Program S Unit} :
    Obeys P post (body.ensuring cleanup) phase ↔ Obeys P (P.cleaned cleanup post) body phase := by
  induction body generalizing phase with
  | done value =>
      simp only [Program.ensuring, obeys_bind, obeys_done, Protocol.cleaned]
      exact Iff.of_eq (congrArg (Obeys P · cleanup phase)
        (funext fun exit => by cases exit <;> rfl))
  | abort reason =>
      simp only [Program.ensuring, obeys_bind, obeys_abort, Protocol.cleaned]
      exact Iff.of_eq (congrArg (Obeys P · cleanup phase)
        (funext fun exit => by cases exit <;> rfl))
  | perform op rest ih =>
      simp only [Program.ensuring, obeys_perform]
      exact and_congr_right fun _ => forall_congr' fun reply => imp_congr_right fun _ => ih reply

theorem obeys_caught {body : Program S α} {post : Exit (Exit α) → Phase → Prop} :
    Obeys P post body.caught phase ↔ Obeys P (fun exit => post (.returned exit)) body phase := by
  induction body generalizing phase with
  | done value => rfl
  | abort reason => rfl
  | perform op rest ih =>
      exact and_congr_right fun _ => forall_congr' fun reply => imp_congr_right fun _ => ih reply

theorem Obeys.mono {out : Exit α → Phase → Prop} {program : Program S α}
    (obeys : Obeys P post program phase) (implies : ∀ exit last, post exit last → out exit last) :
    Obeys P out program phase := by
  induction program generalizing phase with
  | done value => exact implies _ _ obeys
  | abort reason => exact implies _ _ obeys
  | perform op next ih => exact ⟨obeys.1, fun reply answered => ih reply (obeys.2 reply answered)⟩

/-- A program that obeys one protocol obeys every other one whose steps follow it. -/
theorem Obeys.simulate {Ghost : Type} {Q : Protocol S Ghost} {R : Phase → Ghost → Prop}
    (follows : ∀ phase ghost op, R phase ghost → P.may phase op → Q.may ghost op ∧
      ∀ reply, Q.answers ghost op reply → P.answers phase op reply ∧
      R (P.after phase op reply) (Q.after ghost op reply))
    {program : Program S α} (obeys : Obeys P post program phase) {ghost : Ghost}
    (related : R phase ghost) :
    Obeys Q (fun exit last => ∃ phase, R phase last ∧ post exit phase) program ghost := by
  induction program generalizing phase ghost with
  | done value => exact ⟨phase, related, obeys⟩
  | abort reason => exact ⟨phase, related, obeys⟩
  | perform op next ih =>
      obtain ⟨allowed, answers⟩ := follows phase ghost op related obeys.1
      refine ⟨allowed, fun reply answered => ?_⟩
      obtain ⟨expected, kept⟩ := answers reply answered
      exact ih reply (obeys.2 reply expected) kept

/-- A component obeys a protocol of the whole when it obeys the part it sees. -/
theorem obeys_along {P : Protocol T Phase} {e : Embedding S T} {post : Exit α → Phase → Prop}
    {phase : Phase} {program : Program S α} :
    Obeys P post (program.along e) phase ↔ Obeys (P.along e) post program phase := by
  induction program generalizing phase with
  | done value => rfl
  | abort reason => rfl
  | perform op next ih =>
      simp only [Program.along, obeys_perform]
      refine and_congr_right fun _ =>
        ⟨fun holds reply answered => ?_, fun holds reply answered => ?_⟩
      · have := holds ((e.reply op).symm reply) answered
        rw [Equiv.apply_symm_apply] at this
        exact ih _ |>.mp this
      · have := holds (e.reply op reply)
        simp only [Protocol.along, Equiv.symm_apply_apply] at this
        exact ih _ |>.mpr (this answered)

theorem Obeys.leads {program rest : Program S α} {trace : List (Event S)}
    (obeys : Obeys P post program phase) (leads : program.Leads trace rest)
    (answered : P.Answered phase trace) : Obeys P post rest (P.advance phase trace) := by
  induction leads generalizing phase with
  | refl program => exact obeys
  | step _ ih => exact ih (obeys.2 _ answered.1) answered.2

theorem Obeys.runs {program : Program S α} {trace : List (Event S)} {exit : Exit α}
    (obeys : Obeys P post program phase) (runs : program.Runs trace exit)
    (answered : P.Answered phase trace) : post exit (P.advance phase trace) := by
  have last := obeys.leads runs answered
  cases exit <;> exact last

/-- What a program does after the events before it, its protocol allows then. -/
theorem Obeys.allowed_after {program rest : Program S α} {before after : List (Event S)}
    {event : Event S} (obeys : Obeys P post program phase)
    (leads : program.Leads (before ++ event :: after) rest)
    (answered : P.Answered phase (before ++ event :: after)) :
    P.may (P.advance phase before) event.op := by
  induction before generalizing program phase with
  | nil =>
      cases leads with
      | step _ => exact obeys.1
  | cons first before ih =>
      cases leads with
      | step later => exact ih (obeys.2 _ answered.1) later answered.2

/-- A program under a protocol that allows everything is known by its executions. -/
theorem obeys_of_runs {program : Program S α} (free : ∀ phase op, P.may phase op)
    (ends : ∀ trace exit, program.Runs trace exit → P.Answered phase trace →
      post exit (P.advance phase trace)) : Obeys P post program phase := by
  induction program generalizing phase with
  | done value => exact ends [] (.returned value) (.refl _) trivial
  | abort reason => exact ends [] (.aborted reason) (.refl _) trivial
  | perform op next ih =>
      refine ⟨free phase op, fun reply answered => ih reply fun trace exit runs later => ?_⟩
      exact ends (⟨op, reply⟩ :: trace) exit (.step runs) ⟨answered, later⟩

/-- What its executions say besides. -/
theorem Obeys.and_runs {program : Program S α} {more : Exit α → Phase → Prop}
    (obeys : Obeys P post program phase)
    (ends : ∀ trace exit, program.Runs trace exit → P.Answered phase trace →
      more exit (P.advance phase trace)) :
    Obeys P (fun exit last => post exit last ∧ more exit last) program phase := by
  induction program generalizing phase with
  | done value => exact ⟨obeys, ends [] (.returned value) (.refl _) trivial⟩
  | abort reason => exact ⟨obeys, ends [] (.aborted reason) (.refl _) trivial⟩
  | perform op next ih =>
      refine ⟨obeys.1, fun reply answered => ih reply (obeys.2 reply answered)
        fun trace exit runs later => ?_⟩
      exact ends (⟨op, reply⟩ :: trace) exit (.step runs) ⟨answered, later⟩

end Rules

-- Elaboration would otherwise run the program of every goal.
attribute [irreducible] Obeys

end ModelGate.Semantics
