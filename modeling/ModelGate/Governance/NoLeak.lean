import ModelGate.Governance.Balance

/-! What a governed provider holds in every state of every run. -/

set_option autoImplicit false

namespace ModelGate.Governance

open Data Semantics ModelGate.Provider
open CircuitBreaker (Outcome Ledger)
open Concurrency (Semaphore)

namespace Stage

def acquired : Stage → Bool
  | .admitted _ | .refused _ | .trying _ _ | .completed _ _ _ | .left _ _ | .handed _ => true
  | _ => false

/-- The stream a call has seen to its end: it heard EOF, an error or `Close`,
and the slot has been released since. -/
def endOf : Stage → Option Nat
  | .vacated m _ | .gone m _ => some m.once
  | _ => none

end Stage

variable {p : Provider upstreamCalls} {options : CircuitBreaker.Options}

def stageOf (thread : Thread (governedSystem p options)) : Stage :=
  conduct.advance thread.task.first thread.past

/-- A call of `Chat` or `ChatStream` past `Acquire` that has not returned. -/
def inProgress (thread : Thread (governedSystem p options)) : Bool :=
  thread.exit.isNone && (stageOf thread).acquired

def Live (stages : List Stage) (stream : Nat) : Bool :=
  stages.all fun stage => stage.endOf != some stream

/-- The streams with no terminal event yet. -/
def liveStreams (pool : Pool (governedSystem p options)) : Nat :=
  (List.range pool.shared.streams.length).countP (Live (pool.threads.map stageOf))

def Governed.completionsOf (s : Governed) (permit : Nat) : List (Nat × Outcome) :=
  s.completions.filter fun completion => completion.1 == permit

structure NoLeak (pool : Pool (governedSystem p options)) : Prop where
  occupied : pool.shared.semaphore.InFlight = pool.threads.countP inProgress + liveStreams pool
  bounded : pool.shared.semaphore.InFlight ≤ pool.shared.semaphore.capacity
  /-- No call ends in a panic, and each completes its permit by its error. -/
  concluded : ∀ thread ∈ pool.threads, ∀ exit, thread.exit = some exit →
    Concluded exit (stageOf thread)
  /-- No permit is completed twice, or with another outcome than that of its call or stream. -/
  once : ∀ permit, (pool.shared.completionsOf permit).length ≤ 1
  told : ∀ thread ∈ pool.threads, ∀ permit outcome, (stageOf thread).completion =
      some (permit, outcome) → pool.shared.completionsOf permit = [(permit, outcome)]
  /-- A permit that is not completed belongs to a call in progress or to a live stream. -/
  pending : ∀ permit < pool.shared.ledger.permits.length, pool.shared.completionsOf permit = [] →
    (∃ thread ∈ pool.threads, inProgress thread = true ∧
      ∃ slot, stageOf thread = .trying slot permit) ∨
    ∃ stream handle, pool.shared.streams[stream]? = some handle ∧ handle.circuit = permit ∧
    Live (pool.threads.map stageOf) stream = true
  /-- The permit of a stream that has ended is completed by the call that ran its `once`. -/
  ended : ∀ stream handle, pool.shared.streams[stream]? = some handle →
    Live (pool.threads.map stageOf) stream = false →
    ∃ thread ∈ pool.threads, ∃ m outcome, m.once = stream ∧
    (stageOf thread = .vacated m outcome ∨ stageOf thread = .gone m (some outcome)) ∧
    pool.shared.completionsOf handle.circuit = [(handle.circuit, outcome)]
  quiescent : (∀ thread ∈ pool.threads, thread.exit.isSome = true) →
    (∀ stream < pool.shared.streams.length, Live (pool.threads.map stageOf) stream = false) →
    pool.shared.semaphore.InFlight = 0 ∧
      (pool.shared.ledger.breaker.state = .halfOpen → pool.shared.ledger.breaker.halfOpenActive = 0)

/-! Counting the holders of a slot -/

def Stage.holding : Stage → Bool
  | .admitted _ | .refused _ | .trying _ _ | .completed _ _ _ => true
  | _ => false

section Counting

variable {s : Governed} {stages : List Stage} (balanced : Balanced s stages)

theorem live_iff {stream : Nat} :
    Live stages stream = true ↔ ∀ stage ∈ stages, stage.endOf ≠ some stream := by
  simp [Live]

theorem not_live_iff {stream : Nat} :
    Live stages stream = false ↔ ∃ stage ∈ stages, stage.endOf = some stream := by
  simp [Live]

include balanced

theorem nodup_runners : (stages.filterMap Stage.runner).Nodup := by
  apply balanced.runners.nodup_iff.mpr
  have positions : ((entries s.streams).map Prod.fst).Nodup := by
    rw [entries_map_fst]
    exact List.nodup_range
  apply List.pairwise_filterMap.mpr
  apply (List.pairwise_map.mp positions).imp
  intro first second apart one here two there
  unfold runningAt at here there
  split at here <;> split at there <;> simp_all

theorem live_of_fresh {stream : Nat} {handle : Handle} (located : s.streams[stream]? = some handle)
    (fresh : handle.once = .fresh) : Live stages stream = true := by
  apply live_iff.mpr
  intro stage member ends
  have contradicts {other : Handle} (there : s.streams[stream]? = some other)
      (begun : other.once ≠ .fresh) : False := by
    obtain rfl := Option.some.inj (located.symm.trans there)
    exact begun fresh
  cases stage with
  | vacated m outcome =>
      obtain rfl := Option.some.inj ends
      obtain ⟨other, there, running⟩ := balanced.running member rfl
      exact contradicts there (by rw [running]; nofun)
  | gone m completion =>
      obtain rfl := Option.some.inj ends
      obtain ⟨other, there, spent⟩ := balanced.gone _ member m completion rfl
      exact contradicts there (by rw [spent]; nofun)
  | _ => cases ends

theorem live_of_runner {stage : Stage} (member : stage ∈ stages) {stream : Nat}
    (runs : stage.runner = some stream) (going : stage.endOf = none) :
    Live stages stream = true := by
  apply live_iff.mpr
  intro other inside ends
  have differs : stage ≠ other := by
    rintro rfl
    rw [going] at ends
    cases ends
  cases other with
  | vacated m outcome =>
      exact differs (eq_of_nodup_filterMap (nodup_runners balanced) member inside runs ends)
  | gone m completion =>
      obtain rfl := Option.some.inj ends
      obtain ⟨handle, located, running⟩ := balanced.running member runs
      obtain ⟨same, there, spent⟩ := balanced.gone _ inside m completion rfl
      obtain rfl := Option.some.inj (located.symm.trans there)
      rw [running] at spent
      cases spent
  | _ => cases ends

theorem not_live_of_spent {stream : Nat} {handle : Handle}
    (located : s.streams[stream]? = some handle) (spent : handle.once = .spent) :
    Live stages stream = false := by
  obtain ⟨stage, member, m, outcome, rfl, rfl⟩ := balanced.won located spent
  exact not_live_iff.mpr ⟨_, member, rfl⟩

theorem held_by_calls :
    (stages.filterMap Stage.slotClaim).countP (fun claim => !claim.2) =
      stages.countP Stage.holding + (stages.filterMap Stage.runner).countP (Live stages) := by
  rw [List.countP_filterMap]
  apply countP_eq_add
  intro stage member
  have live {stream : Nat} (runs : stage.runner = some stream) (going : stage.endOf = none) :
      Live stages stream = true := live_of_runner balanced member runs going
  cases stage with
  | entered m outcome => simp [Stage.slotClaim, Stage.holding, Stage.runner, live rfl rfl]
  | canceled m outcome => simp [Stage.slotClaim, Stage.holding, Stage.runner, live rfl rfl]
  | settled m outcome => simp [Stage.slotClaim, Stage.holding, Stage.runner, live rfl rfl]
  | vacated m outcome =>
      have ended : Live stages m.once = false := not_live_iff.mpr ⟨_, member, rfl⟩
      simp [Stage.slotClaim, Stage.holding, Stage.runner, ended]
  | _ => rfl

theorem live_streams :
    (List.range s.streams.length).countP (Live stages) =
      (s.streams.filterMap Handle.slotClaim).countP (fun claim => !claim.2) +
        (stages.filterMap Stage.runner).countP (Live stages) := by
  have split : (entries s.streams).countP (fun entry => Live stages entry.1) =
      (entries s.streams).countP (fun entry => decide (entry.2.once = .fresh)) +
        ((entries s.streams).filterMap runningAt).countP (Live stages) := by
    apply countP_eq_add
    intro ⟨stream, handle⟩ member
    have located := mem_entries.mp member
    cases once : handle.once with
    | fresh => simp [runningAt, once, live_of_fresh balanced located once]
    | running => simp [runningAt, once]
    | spent => simp [runningAt, once, not_live_of_spent balanced located once]
  have fresh : (s.streams.filterMap Handle.slotClaim).countP (fun claim => !claim.2) =
      (entries s.streams).countP (fun entry => decide (entry.2.once = .fresh)) := by
    rw [List.countP_filterMap, Custody.countP (List.Perm.refl _) fun handle : Handle => decide
      (handle.once = .fresh)]
    apply List.countP_congr
    intro handle _
    unfold Handle.slotClaim
    cases handle.once <;> simp
  rw [← entries_map_fst, List.countP_map, fresh, balanced.runners.countP_eq]
  exact split

theorem slots_eq : s.semaphore.slots =
    stages.countP Stage.holding + (List.range s.streams.length).countP (Live stages) := by
  have claims := balanced.slots.countP (!·)
  rw [List.countP_append, held_by_calls balanced] at claims
  rw [balanced.occupied, live_streams balanced, ← claims]
  omega

theorem completionsOf_length (permit : Nat) :
    (s.completionsOf permit).length = if (spentPermits s.ledger)[permit]? = some true then 1
    else 0 := by
  rw [Governed.completionsOf, ← List.countP_eq_length_filter]
  exact balanced.completed permit

theorem completionsOf_told {stage : Stage} (member : stage ∈ stages) {permit : Nat}
    {outcome : Outcome} (made : stage.completion = some (permit, outcome)) :
    s.completionsOf permit = [(permit, outcome)] := by
  have inside : (permit, outcome) ∈ s.completionsOf permit :=
    List.mem_filter.mpr ⟨balanced.told stage member _ made, beq_self_eq_true permit⟩
  have length := completionsOf_length balanced permit
  have single : (s.completionsOf permit).length ≤ 1 := by
    rw [length]
    split <;> omega
  match completions : s.completionsOf permit with
  | [] =>
      rw [completions] at inside
      cases inside
  | [only] =>
      rw [completions] at inside
      rw [List.mem_singleton.mp inside]
  | _ :: _ :: _ =>
      rw [completions] at single
      simp at single

theorem holder_of_unspent {permit : Nat} (unspent : (spentPermits s.ledger)[permit]? = some false) :
    (∃ slot, .trying slot permit ∈ stages) ∨ ∃ stream handle, s.streams[stream]? = some handle ∧
    handle.circuit = permit ∧ Live stages stream = true := by
  have onStream {stage : Stage} (member : stage ∈ stages) {m : Managed upstreamCalls}
        (on : stage.stream = some m) (runs : stage.runner = some m.once)
        (going : stage.endOf = none) (mine : m.circuit = permit) :
      ∃ stream handle, s.streams[stream]? = some handle ∧ handle.circuit = permit ∧
      Live stages stream = true := by
    obtain ⟨_, handle, located, fields⟩ := balanced.allocated stage member m on
    exact ⟨m.once, handle, located, fields.circuit.trans mine,
      live_of_runner balanced member runs going⟩
  -- Every permit that is not completed is claimed once, by a call or by a stream.
  rcases List.mem_append.mp (balanced.permits.claimed unspent) with call | stream
  · obtain ⟨stage, member, claim⟩ := List.mem_filterMap.mp call
    cases stage with
    | trying slot mine =>
        cases claim
        exact .inl ⟨slot, member⟩
    | entered m outcome =>
        cases claim
        exact .inr (onStream member rfl rfl rfl rfl)
    | canceled m outcome =>
        cases claim
        exact .inr (onStream member rfl rfl rfl rfl)
    | left slot completion => cases completion <;> cases claim
    | _ => cases claim
  · obtain ⟨handle, member, claim⟩ := List.mem_filterMap.mp stream
    obtain ⟨position, located⟩ := List.getElem?_of_mem member
    unfold Handle.permitClaim at claim
    split at claim
    · rename_i fresh
      cases claim
      exact .inr ⟨position, handle, located, rfl, live_of_fresh balanced located fresh⟩
    · cases claim
    · cases claim

theorem winner_of_ended {stream : Nat} {handle : Handle}
    (located : s.streams[stream]? = some handle) (ended : Live stages stream = false) :
    ∃ stage ∈ stages, ∃ m outcome, m.once = stream ∧
    (stage = .vacated m outcome ∨ stage = .gone m (some outcome)) ∧
    s.completionsOf handle.circuit = [(handle.circuit, outcome)] := by
  have told {stage : Stage} (member : stage ∈ stages) {m : Managed upstreamCalls}
      (on : stage.stream = some m) (same : m.once = stream)
      {outcome : Outcome} (made : stage.completion = some (m.circuit, outcome)) :
      s.completionsOf handle.circuit = [(handle.circuit, outcome)] := by
    obtain ⟨_, known, there, fields⟩ := balanced.allocated stage member m on
    rw [same, located] at there
    obtain rfl := Option.some.inj there
    rw [fields.circuit]
    exact completionsOf_told balanced member made
  obtain ⟨stage, member, ends⟩ := not_live_iff.mp ended
  cases stage with
  | vacated m outcome =>
      obtain rfl := Option.some.inj ends
      exact ⟨_, member, m, outcome, rfl, .inl rfl, told member rfl rfl rfl⟩
  | gone m completion =>
      obtain rfl := Option.some.inj ends
      obtain ⟨same, there, spent⟩ := balanced.gone _ member m completion rfl
      obtain ⟨winner, inside, n, outcome, rfl, once⟩ := balanced.won there spent
      exact ⟨_, inside, n, outcome, once, .inr rfl, told inside rfl once rfl⟩
  | _ => cases ends

end Counting

/-! From stages to calls -/

theorem Concluded.still {exit : Exit Answer} {stage : Stage} (concluded : Concluded exit stage)
    (op : governedCalls.Op) : ¬ stage.May op := by
  have gone {err : Option Err} (left : stage.Gone err) : ¬ stage.May op := by
    rcases left with rfl | ⟨slot, rfl⟩ | ⟨slot, permit, rfl⟩ <;> exact id
  match exit, concluded with
  | .returned (.chat result), left => exact gone left
  | .returned (.stream (.error err)), left => exact gone left
  | .returned (.stream (.ok stream)), ⟨m, _, handed, _⟩ =>
      rw [handed]
      exact id
  | .returned (.received received), ⟨m, heard⟩ =>
      rcases heard with ⟨_, rfl⟩ | ⟨outcome, _, rfl | rfl⟩ <;> exact id
  | .returned (.closed failed), ⟨m, gone⟩ =>
      rcases gone with rfl | rfl <;> exact id

theorem holding_iff {stage : Stage} :
    stage.holding = true ↔ stage.acquired = true ∧ ∃ op, stage.May op := by
  constructor
  · intro holds
    cases stage with
    | admitted slot => exact ⟨rfl, .inl .allow, trivial⟩
    | refused slot => exact ⟨rfl, .inl (.release slot), rfl⟩
    | trying slot permit => exact ⟨rfl, .inl (.retry .ctxErr), trivial⟩
    | completed slot permit outcome => exact ⟨rfl, .inl (.release slot), rfl⟩
    | _ => cases holds
  · rintro ⟨acquired, op, may⟩
    cases stage with
    | left slot completion => exact may.elim
    | handed stream => exact may.elim
    | _ => first | rfl | cases acquired

section Results

variable (asked : p.inner = upstream) (steady : p.retry.Steady)
  (positive : 0 < p.retry.options.maxAttempts)

theorem governed_preserves : (governedDiscipline p options asked steady positive).Preserves
    Balanced where
  spawn {shared stages task} balanced admitted := by
    have called : Balanced shared (stages ++ [.waiting]) :=
      balanced.enters rfl rfl rfl (fun _ => nofun) (fun _ _ => nofun) rfl
    have onStream {m : Managed upstreamCalls} (allocated : shared.Allocated m) :
        Balanced shared (stages ++ [.listening m]) := by
      refine balanced.enters rfl rfl rfl ?_ (fun _ _ => nofun) rfl
      intro _ on
      obtain rfl := Option.some.inj on
      exact allocated
    cases task with
    | chat _ => exact called
    | chatStream _ => exact called
    | recv m => exact onStream admitted
    | close m => exact onStream admitted
  perform balanced found allowed handled :=
    ⟨trivial, perform_balanced options balanced found allowed handled⟩
  move {shared stages next} balanced moved := by
    obtain ⟨now, rfl | rfl⟩ := moved
    · exact balanced.observe (spentPermits_state options _ now)
        (Ledger.step_covered options balanced.covered _)
    · exact balanced.observe (spentPermits_available options _ now)
        (Ledger.step_covered options balanced.covered _)

variable {pool : Pool (governedSystem p options)}
  (holds : (governedDiscipline p options asked steady positive).Holds Balanced pool)
include holds

theorem inProgress_iff {thread : Thread (governedSystem p options)}
    (member : thread ∈ pool.threads) :
    inProgress thread = true ↔ (stageOf thread).holding = true := by
  rw [holding_iff, inProgress, Bool.and_eq_true, and_comm, Option.isNone_iff_eq_none]
  apply and_congr_right
  intro _
  constructor
  · intro running
    obtain ⟨op, current⟩ := Thread.current_of_exit running
    exact ⟨op, holds.may_of_current member current⟩
  · rintro ⟨op, may⟩
    cases ended : thread.exit with
    | none => rfl
    | some exit => exact absurd may (Concluded.still (holds.post_of_exit member ended) op)

theorem occupied_eq : pool.shared.semaphore.InFlight =
    pool.threads.countP inProgress + liveStreams pool := by
  have calls : pool.threads.countP inProgress =
      (pool.threads.map stageOf).countP Stage.holding := by
    rw [List.countP_map]
    exact List.countP_congr fun thread member => inProgress_iff asked steady positive holds member
  rw [calls]
  exact slots_eq holds.1

theorem pending_held {permit : Nat} (issued : permit < pool.shared.ledger.permits.length)
    (uncompleted : pool.shared.completionsOf permit = []) :
    (∃ thread ∈ pool.threads, inProgress thread = true ∧
      ∃ slot, stageOf thread = .trying slot permit) ∨
    ∃ stream handle, pool.shared.streams[stream]? = some handle ∧ handle.circuit = permit ∧
    Live (pool.threads.map stageOf) stream = true := by
  have unspent : (spentPermits pool.shared.ledger)[permit]? = some false := by
    have length := completionsOf_length holds.1 permit
    rw [uncompleted] at length
    have bound : permit < (spentPermits pool.shared.ledger).length := by
      rwa [spentPermits, List.length_map]
    rw [List.getElem?_eq_getElem bound] at length ⊢
    cases spent : (spentPermits pool.shared.ledger)[permit] with
    | false => rfl
    | true =>
        rw [spent] at length
        cases length
  apply (holder_of_unspent holds.1 unspent).imp_left
  rintro ⟨slot, trying⟩
  obtain ⟨thread, member, stage⟩ := List.mem_map.mp trying
  refine ⟨thread, member, ?_, slot, stage⟩
  apply (inProgress_iff asked steady positive holds member).mpr
  rw [show stageOf thread = .trying slot permit from stage]
  rfl

theorem quiescent_free (returned : ∀ thread ∈ pool.threads, thread.exit.isSome = true)
    (ended : ∀ stream < pool.shared.streams.length, Live (pool.threads.map stageOf) stream =
      false) :
    pool.shared.semaphore.InFlight = 0 ∧
      (pool.shared.ledger.breaker.state = .halfOpen →
        pool.shared.ledger.breaker.halfOpenActive = 0) := by
  have idle {thread : Thread (governedSystem p options)} (member : thread ∈ pool.threads) :
      inProgress thread = false := by
    rw [inProgress, ← Option.not_isSome, returned thread member]
    rfl
  constructor
  · rw [occupied_eq asked steady positive holds, liveStreams, List.countP_eq_zero.mpr,
      List.countP_eq_zero.mpr]
    · intro stream member
      simp [ended stream (List.mem_range.mp member)]
    · intro thread member
      simp [idle member]
  · apply holds.1.covered.free
    intro issued member
    obtain ⟨permit, located⟩ := List.getElem?_of_mem member
    by_contra unspent
    -- a permit without completion would belong to a call or a stream that has not ended
    have uncompleted : pool.shared.completionsOf permit = [] := by
      apply List.eq_nil_of_length_eq_zero
      rw [completionsOf_length holds.1, spentPermits, List.getElem?_map, located, if_neg]
      simpa using unspent
    rcases pending_held asked steady positive holds (List.getElem?_eq_some_iff.mp located).1
      uncompleted with
      ⟨thread, inside, running, _⟩ | ⟨stream, handle, there, _, live⟩
    · rw [idle inside] at running
      cases running
    · rw [ended stream (List.getElem?_eq_some_iff.mp there).1] at live
      cases live

theorem noLeak_of_holds : NoLeak pool := by
  constructor
  · exact occupied_eq asked steady positive holds
  · exact holds.1.bounded
  · exact fun thread member exit ended => holds.post_of_exit member ended
  · intro permit
    rw [completionsOf_length holds.1]
    split <;> omega
  · exact fun thread member permit outcome made => completionsOf_told holds.1
      (List.mem_map_of_mem member) made
  · exact fun permit issued uncompleted =>
      pending_held asked steady positive holds issued uncompleted
  · intro stream handle located ended
    obtain ⟨stage, member, m, outcome, same, shape, completed⟩ :=
      winner_of_ended holds.1 located ended
    obtain ⟨thread, inside, rfl⟩ := List.mem_map.mp member
    exact ⟨thread, inside, m, outcome, same, shape, completed⟩
  · exact quiescent_free asked steady positive holds

end Results

def atRest (semaphore : Semaphore) : Governed := ⟨semaphore, .start, [], []⟩

theorem atRest_balanced {maxConcurrent : Int} {semaphore : Semaphore}
    (made : Concurrency.New maxConcurrent = .ok semaphore) : Balanced (atRest semaphore) [] := by
  unfold Concurrency.New at made
  split at made
  · cases made
  · obtain rfl := Except.ok.inj made
    refine ⟨.empty, .empty, .refl _, rfl, Nat.zero_le _, nofun, nofun, nofun, fun _ => rfl, nofun,
      Ledger.start_covered⟩

/-- Whatever calls interleave on a governed provider, no slot and no permit is
leaked or given back twice, unless the policy can make `rand.Int64N` panic. -/
theorem governed_never_leaks {name : String} {policy : Retry.Policy} {retryOptions : Retry.Options}
    {maxConcurrent : Int}
    {semaphore : Semaphore} (built : NewProvider name upstream policy = .ok p)
    (accepted : Retry.New retryOptions = .ok policy)
    (made : Concurrency.New maxConcurrent = .ok semaphore)
    (steady : policy.Steady) {pool : Pool (governedSystem p options)}
    (steps : (Pool.initial (atRest semaphore)).Steps pool) : NoLeak pool := by
  obtain ⟨asked, rfl⟩ := newProvider_fields built
  have positive := Retry.positive_of_new accepted
  have starts := Discipline.holds_initial (governedDiscipline p options asked steady positive)
    (atRest_balanced made)
  exact noLeak_of_holds asked steady positive
    ((governed_preserves asked steady positive).holds_steps starts steps)

/-! Two runs, with the reply of upstream to `ChatStream` given -/

def scriptedOptions : CircuitBreaker.Options := ⟨4, 2, .ofRat (1 / 2), 1, 1⟩

def scripted (opens : Except Err (Option (Nat × Option String))) (_ : Nat) (s : Governed) :
    (op : governedCalls.Op) → governedCalls.Reply op × Governed
  | .inl .acquire =>
      match s.semaphore.Acquire with
      | some (slot, semaphore) => (.ok slot, { s with semaphore })
      | none => (.error .canceled, s)
  | .inl (.release permit) =>
      ((), { s with semaphore := (s.semaphore.Release permit).getD s.semaphore })
  | .inl .allow =>
      ((CircuitBreaker.allow scriptedOptions 0 s.ledger.breaker).2.1.map
        fun _ => s.ledger.permits.length,
        { s with ledger := s.ledger.step scriptedOptions (.allow 0) })
  | .inl (.done permit outcome) => ((), { s with
      ledger := s.ledger.step scriptedOptions (.done permit outcome 0)
      completions := s.completions ++ [(permit, outcome)] })
  | .inl .available =>
      ((CircuitBreaker.available scriptedOptions 0 s.ledger.breaker).2.1,
        { s with ledger := s.ledger.step scriptedOptions (.available 0) })
  | .inl (.newStream circuit concurrency cancel) =>
      (s.streams.length,
        { s with streams := s.streams ++ [⟨circuit, concurrency, cancel, .fresh⟩] })
  | .inl (.enterOnce stream) =>
      match s.streams[stream]? with
      | some handle =>
          if handle.once = .fresh then (true, s.setOnce stream handle .running) else (false, s)
      | none => (false, s)
  | .inl (.leaveOnce stream) =>
      match s.streams[stream]? with
      | some handle => ((), s.setOnce stream handle .spent)
      | none => ((), s)
  | .inl (.retry .ctxErr) => (none, s)
  | .inl (.retry .withTimeout) => (0, s)
  | .inl (.retry (.cancel _)) => ((), s)
  | .inl (.retry (.onAttempt _ _)) => ((), s)
  | .inl (.retry (.jitter _)) => (0, s)
  | .inl (.retry (.int64N _)) => (0, s)
  | .inl (.retry (.wait _)) => (none, s)
  | .inr (.chat _) => (.error .eof, s)
  | .inr (.chatStream _) => (opens, s)
  | .inr (.recv _) => ((none, some .eof), s)
  | .inr (.close _) => (none, s)

/-- The operations that do not block in a state. -/
def prompt (s : Governed) : governedCalls.Op → Bool
  | .inl (.release permit) => (s.semaphore.Release permit).isSome
  | .inl (.enterOnce stream) => s.streams[stream]?.any fun handle => handle.once != .running
  | .inl (.leaveOnce stream) => s.streams[stream]?.isSome
  | _ => true

theorem scripted_handled (opens : Except Err (Option (Nat × Option String))) (index : Nat)
    (s : Governed) (op : governedCalls.Op) (ready : prompt s op = true) :
    Governed.Handled scriptedOptions s op (scripted opens index s op).1
      (scripted opens index s op).2 := by
  match op with
  | .inl .acquire =>
      simp only [scripted]
      cases taken : s.semaphore.Acquire with
      | none => rfl
      | some permit => exact ⟨permit.2, taken, rfl⟩
  | .inl (.release permit) =>
      obtain ⟨semaphore, released⟩ := Option.isSome_iff_exists.mp ready
      refine ⟨semaphore, released, ?_⟩
      simp only [scripted, released, Option.getD_some]
  | .inl .allow => exact ⟨0, rfl, rfl⟩
  | .inl (.done permit outcome) => exact ⟨0, rfl⟩
  | .inl .available => exact ⟨0, rfl, rfl⟩
  | .inl (.newStream circuit concurrency cancel) => exact ⟨rfl, rfl⟩
  | .inl (.enterOnce stream) =>
      simp only [prompt, scripted] at ready ⊢
      cases located : s.streams[stream]? with
      | none =>
          rw [located] at ready
          cases ready
      | some handle =>
          rw [located] at ready
          refine ⟨handle, located, ?_⟩
          by_cases fresh : handle.once = .fresh
          · simp only [if_pos fresh]
            exact .inl ⟨fresh, trivial, trivial⟩
          -- A settled stream is entered again; a running one would have to wait.
          · simp only [if_neg fresh]
            refine .inr ⟨?_, trivial, trivial⟩
            cases once : handle.once <;> simp_all
  | .inl (.leaveOnce stream) =>
      obtain ⟨handle, located⟩ := Option.isSome_iff_exists.mp ready
      refine ⟨handle, located, ?_⟩
      simp only [scripted, located]
  | .inl (.retry op) => cases op <;> rfl
  | .inr op => cases op <;> rfl

def scriptedPolicy : Retry.Policy := ⟨⟨2, 1, 1, 1, false⟩⟩

/-- A policy whose backoff is the greatest `time.Duration`. -/
def overflowingPolicy : Retry.Policy := ⟨⟨2, 1, 2 ^ 63 - 1, 2 ^ 63 - 1, false⟩⟩

def scriptedProvider (policy : Retry.Policy) : Provider upstreamCalls := ⟨"mock", upstream, policy⟩

def scriptedSemaphore : Semaphore := ⟨1, 0, []⟩

theorem scripted_legal {policy : Retry.Policy} {opens : Except Err (Option (Nat × Option String))}
    {pool : Pool (governedSystem (scriptedProvider policy) scriptedOptions)} {index : Nat}
    (ready : (pool.threads[index]?.bind Thread.current).all (prompt pool.shared) = true) :
    pool.Legal (scripted opens) (.run index) := by
  intro op current
  rw [current] at ready
  exact scripted_handled opens index pool.shared op ready

def streamRequest : ChatRequest := ⟨"m", [⟨"user", "hi"⟩], none, none, none, true⟩

def returnedStream : Managed upstreamCalls :=
  ⟨"mock", some (upstreamStream 7 none), 0, 0, some 0, 0⟩

/-- A stream is opened, and a `Recv` hears its end. -/
def streamedPool : Pool (governedSystem (scriptedProvider scriptedPolicy) scriptedOptions) :=
  (Pool.initial (atRest scriptedSemaphore)).play (scripted (.ok (some (7, none))))
    [.spawn (.chatStream streamRequest), .run 0, .run 0, .run 0, .run 0, .run 0, .run 0, .run 0,
      .spawn (.recv returnedStream), .run 1, .run 1, .run 1, .run 1, .run 1, .run 1]

theorem streamed_steps : (Pool.initial (atRest scriptedSemaphore)).Steps streamedPool := by
  apply Pool.play_steps
  refine ⟨trivial, scripted_legal rfl, scripted_legal rfl, scripted_legal rfl, scripted_legal rfl,
    scripted_legal rfl, scripted_legal rfl, scripted_legal rfl, ?_, scripted_legal rfl,
    scripted_legal rfl, scripted_legal rfl, scripted_legal rfl, scripted_legal rfl,
    scripted_legal rfl, trivial⟩
  exact ⟨⟨rfl, 7, none, rfl⟩, _, rfl, rfl, rfl, rfl⟩

theorem scripted_steady : scriptedPolicy.Steady := by
  refine .inr fun attempt first last => ?_
  have only : attempt = 1 := by
    change (attempt : Int) < 2 at last
    omega
  subst only
  decide

theorem governed_never_leaks_streamed :
    streamedPool.threads.map (fun thread => thread.exit.isSome) = [true, true] ∧
      streamedPool.shared.completions = [(0, .success)] ∧ NoLeak streamedPool := by
  have built : NewProvider "mock" upstream scriptedPolicy = .ok (scriptedProvider scriptedPolicy) :=
    rfl
  have accepted : Retry.New ⟨2, 1, 1, 1, false⟩ = .ok scriptedPolicy := rfl
  have made : Concurrency.New 1 = .ok scriptedSemaphore := rfl
  exact ⟨rfl, rfl, governed_never_leaks built accepted made scripted_steady streamed_steps⟩

def unavailableUpstream : Err := .upstream ⟨"mock", "chat stream", .network, 503, true⟩ none

/-- The jitter after the first attempt panics. -/
def panickedPool : Pool (governedSystem (scriptedProvider overflowingPolicy) scriptedOptions) :=
  (Pool.initial (atRest scriptedSemaphore)).play (scripted (.error unavailableUpstream))
    [.spawn (.chatStream streamRequest), .run 0, .run 0, .run 0, .run 0, .run 0, .run 0,
      .run 0, .run 0]

theorem panicked_steps : (Pool.initial (atRest scriptedSemaphore)).Steps panickedPool := by
  apply Pool.play_steps
  exact ⟨trivial, scripted_legal rfl, scripted_legal rfl, scripted_legal rfl, scripted_legal rfl,
    scripted_legal rfl, scripted_legal rfl, scripted_legal rfl, scripted_legal rfl, trivial⟩

/-- A policy that `New` accepts leaves the only slot taken and the permit
uncompleted for ever, though no call is running and no stream was returned. -/
theorem not_governed_never_leaks : Retry.New ⟨2, 1, 2 ^ 63 - 1, 2 ^ 63 - 1, false⟩ =
      .ok overflowingPolicy ∧
    NewProvider "mock" upstream overflowingPolicy = .ok (scriptedProvider overflowingPolicy) ∧
    Concurrency.New 1 = .ok scriptedSemaphore ∧ ∃ pool :
    Pool (governedSystem (scriptedProvider overflowingPolicy) scriptedOptions),
    (Pool.initial (atRest scriptedSemaphore)).Steps pool ∧
    pool.threads.map Thread.exit = [some (.aborted "invalid argument to Int64N")] ∧
    pool.shared.streams = [] ∧ pool.shared.semaphore.InFlight = 1 ∧
    pool.shared.ledger.permits.length = 1 ∧ pool.shared.completions = [] ∧ ¬ NoLeak pool := by
  refine ⟨rfl, rfl, rfl, panickedPool, panicked_steps, rfl, rfl, rfl, rfl, rfl, fun noLeak => ?_⟩
  have ended : ∀ thread ∈ panickedPool.threads, thread.exit.isSome = true := by
    intro thread member
    have exits : thread.exit ∈ panickedPool.threads.map Thread.exit := List.mem_map_of_mem member
    rw [show panickedPool.threads.map Thread.exit =
      [some (.aborted "invalid argument to Int64N")] from rfl] at exits
    rw [List.mem_singleton.mp exits]
    rfl
  have free := noLeak.quiescent ended fun stream below => absurd below (Nat.not_lt_zero stream)
  exact Nat.one_ne_zero free.1

end ModelGate.Governance
