import ModelGate.Semantics.Program

/-! Executions of composed programs, taken apart. -/

set_option autoImplicit false

namespace ModelGate.Semantics

variable {S T : Signature} {α β : Type}

def Event.along (e : Embedding S T) (event : Event S) : Event T :=
  ⟨e.op event.op, (e.reply event.op).symm event.reply⟩

namespace Program

theorem runs_done {value : α} {trace : List (Event S)} {exit : Exit α} :
    (done value : Program S α).Runs trace exit ↔ trace = [] ∧ exit = .returned value := by
  constructor
  · intro runs
    unfold Runs at runs
    cases exit with
    | returned other =>
        cases runs
        exact ⟨rfl, rfl⟩
    | aborted reason => cases runs
  · rintro ⟨rfl, rfl⟩
    exact .refl _

theorem runs_abort {reason : String} {trace : List (Event S)} {exit : Exit α} :
    (abort reason : Program S α).Runs trace exit ↔ trace = [] ∧ exit = .aborted reason := by
  constructor
  · intro runs
    unfold Runs at runs
    cases exit with
    | returned other => cases runs
    | aborted other =>
        cases runs
        exact ⟨rfl, rfl⟩
  · rintro ⟨rfl, rfl⟩
    exact .refl _

theorem runs_perform {op : S.Op} {next : S.Reply op → Program S α} {trace : List (Event S)}
    {exit : Exit α} :
    (perform op next).Runs trace exit ↔ ∃ reply rest, trace = ⟨op, reply⟩ :: rest ∧
    (next reply).Runs rest exit := by
  constructor
  · intro runs
    unfold Runs at runs
    generalize last : exit.program = final at runs
    cases runs with
    | refl => cases exit <;> cases last
    | step rest =>
        subst last
        exact ⟨_, _, rfl, rest⟩
  · rintro ⟨reply, rest, rfl, runs⟩
    exact .step runs

/-- A sequence runs its first part to the end, or aborts in it. -/
theorem Runs.bind {first : Program S α} {next : α → Program S β} {trace : List (Event S)}
    {exit : Exit β} (runs : (first >>= next).Runs trace exit) :
    (∃ early late value, trace = early ++ late ∧ first.Runs early (.returned value) ∧
      (next value).Runs late exit) ∨ ∃ reason, first.Runs trace (.aborted reason) ∧
    exit = .aborted reason := by
  induction first generalizing trace with
  | done value => exact .inl ⟨[], trace, value, rfl, .refl _, runs⟩
  | abort reason =>
      obtain ⟨rfl, rfl⟩ := runs_abort.mp runs
      exact .inr ⟨reason, .refl _, rfl⟩
  | perform op rest ih =>
      obtain ⟨reply, later, rfl, goes⟩ := runs_perform.mp runs
      rcases ih reply goes with ⟨early, late, value, rfl, one, two⟩ | ⟨reason, one, rfl⟩
      · exact .inl ⟨⟨op, reply⟩ :: early, late, value, rfl,
          runs_perform.mpr ⟨reply, early, rfl, one⟩, two⟩
      · exact .inr ⟨reason, runs_perform.mpr ⟨reply, later, rfl, one⟩, rfl⟩

theorem Runs.call {op : S.Op} {next : S.Reply op → Program S α} {trace : List (Event S)}
    {exit : Exit α} (runs : (Program.call op >>= next).Runs trace exit) :
    ∃ reply rest, trace = ⟨op, reply⟩ :: rest ∧ (next reply).Runs rest exit :=
  runs_perform.mp runs

theorem Runs.map {program : Program S α} {trace : List (Event S)} {exit : Exit α}
    (runs : program.Runs trace exit) (f : α → β) :
    (program >>= fun value => .done (f value)).Runs trace (exit.map f) := by
  induction program generalizing trace with
  | done value =>
      obtain ⟨rfl, rfl⟩ := runs_done.mp runs
      exact .refl _
  | abort reason =>
      obtain ⟨rfl, rfl⟩ := runs_abort.mp runs
      exact .refl _
  | perform op rest ih =>
      obtain ⟨reply, later, rfl, goes⟩ := runs_perform.mp runs
      exact runs_perform.mpr ⟨reply, later, rfl, ih reply goes⟩

theorem Runs.unmap {program : Program S α} {f : α → β} {trace : List (Event S)} {exit : Exit β}
    (runs : (program >>= fun value => .done (f value)).Runs trace exit) :
    ∃ first, program.Runs trace first ∧ exit = first.map f := by
  rcases runs.bind with ⟨early, late, value, rfl, goes, ends⟩ | ⟨reason, stuck, rfl⟩
  · obtain ⟨rfl, rfl⟩ := runs_done.mp ends
    rw [List.append_nil]
    exact ⟨.returned value, goes, rfl⟩
  · exact ⟨.aborted reason, stuck, rfl⟩

/-- The cleanup runs after the body, however that ends. -/
theorem Runs.ensuring {body : Program S α} {cleanup : Program S Unit} {trace : List (Event S)}
    {exit : Exit α} (runs : (body.ensuring cleanup).Runs trace exit) :
    ∃ early late first, trace = early ++ late ∧ body.Runs early first ∧
    (cleanup >>= fun _ => (first.program : Program S α)).Runs late exit := by
  induction body generalizing trace with
  | done value => exact ⟨[], trace, .returned value, rfl, .refl _, runs⟩
  | abort reason => exact ⟨[], trace, .aborted reason, rfl, .refl _, runs⟩
  | perform op rest ih =>
      obtain ⟨reply, later, rfl, goes⟩ := runs_perform.mp runs
      obtain ⟨early, late, first, rfl, one, two⟩ := ih reply goes
      exact ⟨⟨op, reply⟩ :: early, late, first, rfl, runs_perform.mpr ⟨reply, early, rfl, one⟩, two⟩

/-- What a recovered program does: the body, and the handler when the body panics. -/
theorem Runs.recovering {body : Program S α} {handler : String → Program S α}
    {trace : List (Event S)} {exit : Exit α} (runs : (body.recovering handler).Runs trace exit) :
    (∃ value, exit = .returned value ∧ body.Runs trace exit) ∨
    ∃ early late reason, trace = early ++ late ∧ body.Runs early (.aborted reason) ∧
    (handler reason).Runs late exit := by
  induction body generalizing trace with
  | done value =>
      obtain ⟨rfl, rfl⟩ := runs_done.mp runs
      exact .inl ⟨value, rfl, .refl _⟩
  | abort reason => exact .inr ⟨[], trace, reason, rfl, .refl _, runs⟩
  | perform op rest ih =>
      obtain ⟨reply, later, rfl, goes⟩ := runs_perform.mp runs
      rcases ih reply goes with ⟨value, rfl, returns⟩ | ⟨early, late, reason, rfl, one, two⟩
      · exact .inl ⟨value, rfl, runs_perform.mpr ⟨reply, later, rfl, returns⟩⟩
      · exact .inr ⟨⟨op, reply⟩ :: early, late, reason, rfl,
          runs_perform.mpr ⟨reply, early, rfl, one⟩, two⟩

theorem Runs.caught {body : Program S α} {trace : List (Event S)} {exit : Exit (Exit α)}
    (runs : body.caught.Runs trace exit) :
    ∃ first, exit = .returned first ∧ body.Runs trace first := by
  induction body generalizing trace with
  | done value =>
      obtain ⟨rfl, rfl⟩ := runs_done.mp runs
      exact ⟨.returned value, rfl, .refl _⟩
  | abort reason =>
      obtain ⟨rfl, rfl⟩ := runs_done.mp runs
      exact ⟨.aborted reason, rfl, .refl _⟩
  | perform op rest ih =>
      obtain ⟨reply, later, rfl, goes⟩ := runs_perform.mp runs
      obtain ⟨first, rfl, one⟩ := ih reply goes
      exact ⟨first, rfl, runs_perform.mpr ⟨reply, later, rfl, one⟩⟩

theorem runs_exit {first exit : Exit α} {trace : List (Event S)}
    (runs : (first.program : Program S α).Runs trace exit) : trace = [] ∧ exit = first := by
  cases first with
  | returned value => exact runs_done.mp runs
  | aborted reason => exact runs_abort.mp runs

/-- A component runs by itself inside the whole. -/
theorem Runs.along {e : Embedding S T} {program : Program S α} {trace : List (Event T)}
    {exit : Exit α} (runs : (program.along e).Runs trace exit) :
    ∃ inner, trace = inner.map (Event.along e) ∧ program.Runs inner exit := by
  induction program generalizing trace with
  | done value =>
      obtain ⟨rfl, rfl⟩ := runs_done.mp runs
      exact ⟨[], rfl, .refl _⟩
  | abort reason =>
      obtain ⟨rfl, rfl⟩ := runs_abort.mp runs
      exact ⟨[], rfl, .refl _⟩
  | perform op rest ih =>
      obtain ⟨reply, later, rfl, goes⟩ := runs_perform.mp runs
      obtain ⟨inner, rfl, own⟩ := ih (e.reply op reply) goes
      refine ⟨⟨op, e.reply op reply⟩ :: inner, ?_, runs_perform.mpr ⟨_, inner, rfl, own⟩⟩
      simp [Event.along]

theorem Runs.embed {e : Embedding S T} {program : Program S α} {inner : List (Event S)}
    {exit : Exit α} (runs : program.Runs inner exit) :
    (program.along e).Runs (inner.map (Event.along e)) exit := by
  induction program generalizing inner with
  | done value =>
      obtain ⟨rfl, rfl⟩ := runs_done.mp runs
      exact .refl _
  | abort reason =>
      obtain ⟨rfl, rfl⟩ := runs_abort.mp runs
      exact .refl _
  | perform op rest ih =>
      obtain ⟨reply, later, rfl, goes⟩ := runs_perform.mp runs
      apply runs_perform.mpr
      refine ⟨(e.reply op).symm reply, _, rfl, ?_⟩
      rw [Equiv.apply_symm_apply]
      exact ih reply goes

theorem Runs.along_bind {e : Embedding S T} {first : Program S α} {next : α → Program T β}
    {trace : List (Event T)} {exit : Exit β}
    (returns : ∀ events reason, ¬first.Runs events (.aborted reason))
    (runs : (first.along e >>= next).Runs trace exit) :
    ∃ events value rest, first.Runs events (.returned value) ∧
    trace = events.map (Event.along e) ++ rest ∧ (next value).Runs rest exit := by
  rcases runs.bind with ⟨early, late, value, rfl, goes, rest⟩ | ⟨reason, stuck, -⟩
  · obtain ⟨events, rfl, own⟩ := goes.along
    exact ⟨events, value, late, own, rfl, rest⟩
  · obtain ⟨events, -, own⟩ := stuck.along
    exact absurd own (returns events reason)

theorem Runs.bind_from {first : Program S α} {next : α → Program S β} {trace early : List (Event S)}
    {exit : Exit β} {value : α} (runs : (first >>= next).Runs trace exit)
    (begins : first.Runs early (.returned value)) (leads : early <+: trace) :
    ∃ late, trace = early ++ late ∧ (next value).Runs late exit := by
  induction first generalizing trace early with
  | done other =>
      obtain ⟨rfl, same⟩ := runs_done.mp begins
      cases same
      exact ⟨trace, rfl, runs⟩
  | abort reason => cases (runs_abort.mp begins).2
  | perform op rest ih =>
      obtain ⟨reply, later, rfl, goes⟩ := runs_perform.mp runs
      obtain ⟨other, tail, rfl, begun⟩ := runs_perform.mp begins
      obtain ⟨same, within⟩ := List.cons_prefix_cons.mp leads
      cases same
      obtain ⟨late, rfl, continues⟩ := ih reply goes begun within
      exact ⟨late, rfl, continues⟩

end Program

/-! Observations of a component inside the whole -/

/-- An observation of the component behind another. -/
def behind {γ : Type} (sees : Event T → Option γ) : Event (S.sum T) → Option γ
  | ⟨.inl _, _⟩ => none
  | ⟨.inr op, reply⟩ => sees ⟨op, reply⟩

theorem behind_passed {γ : Type} (sees : Event T → Option γ) (events : List (Event T)) :
    (events.map (Event.along (.inr S T))).filterMap (behind sees) = events.filterMap sees := by
  rw [List.filterMap_map]
  rfl

end ModelGate.Semantics
