import ModelGate.CircuitBreaker.Slots
import ModelGate.Concurrency.Semaphore
import ModelGate.Data.Custody
import ModelGate.Governance.Conduct
import ModelGate.Semantics.Pool

/-! Any calls on one governed provider and its streams, interleaved.

The shared state is the semaphore, the breaker and the `sync.Once` of every
stream. The provider upstream, the contexts and the timers may answer
anything.
-/

set_option autoImplicit false

namespace ModelGate.Governance

open Data Semantics ModelGate.Provider
open CircuitBreaker (Outcome Ledger)
open Concurrency (Semaphore)

/-- The states of a `sync.Once`. A second `Do` waits while the first runs. -/
inductive OnceState where | fresh | running | spent
  deriving DecidableEq

/-- What the shared state knows of a managed stream. -/
structure Handle where
  circuit : Nat
  concurrency : Nat
  cancel : Option Nat
  once : OnceState

/-- `completions` are all calls of `Permit.Done` on the breaker, in order. -/
structure Governed where
  semaphore : Semaphore
  ledger : Ledger
  streams : List Handle
  completions : List (Nat × Outcome)

namespace Governed

def setOnce (s : Governed) (stream : Nat) (handle : Handle) (once : OnceState) : Governed :=
  { s with streams := s.streams.set stream { handle with once } }

def Handled (options : CircuitBreaker.Options) (s : Governed) :
    (op : governedCalls.Op) → governedCalls.Reply op → Governed → Prop
  | .inl .acquire, .ok slot, next =>
      ∃ semaphore, s.semaphore.Acquire = some (slot, semaphore) ∧ next = { s with semaphore }
  | .inl .acquire, .error _, next => next = s
  | .inl (.release permit), _, next =>
      ∃ semaphore, s.semaphore.Release permit = some semaphore ∧ next = { s with semaphore }
  | .inl .allow, reply, next => ∃ now,
      reply = (CircuitBreaker.allow options now s.ledger.breaker).2.1.map
        (fun _ => s.ledger.permits.length) ∧
      next = { s with ledger := s.ledger.step options (.allow now) }
  | .inl (.done permit outcome), _, next => ∃ now, next = { s with
      ledger := s.ledger.step options (.done permit outcome now)
      completions := s.completions ++ [(permit, outcome)] }
  | .inl .available, reply, next => ∃ now,
      reply = (CircuitBreaker.available options now s.ledger.breaker).2.1 ∧
      next = { s with ledger := s.ledger.step options (.available now) }
  | .inl (.newStream circuit concurrency cancel), reply, next =>
      reply = s.streams.length ∧
        next = { s with streams := s.streams ++ [⟨circuit, concurrency, cancel, .fresh⟩] }
  | .inl (.enterOnce stream), reply, next => ∃ handle, s.streams[stream]? = some handle ∧
      ((handle.once = .fresh ∧ reply = true ∧ next = s.setOnce stream handle .running) ∨
        (handle.once = .spent ∧ reply = false ∧ next = s))
  | .inl (.leaveOnce stream), _, next => ∃ handle, s.streams[stream]? = some handle ∧
      next = s.setOnce stream handle .spent
  | .inl (.retry _), _, next => next = s
  | .inr _, _, next => next = s

/-- Others may ask for the state of the breaker at any time. -/
def Observed (options : CircuitBreaker.Options) (s next : Governed) : Prop :=
  ∃ now, next = { s with ledger := s.ledger.step options (.state now) } ∨
    next = { s with ledger := s.ledger.step options (.available now) }

end Governed

structure Handle.Of (handle : Handle) (m : Managed upstreamCalls) : Prop where
  circuit : handle.circuit = m.circuit
  concurrency : handle.concurrency = m.concurrency
  cancel : handle.cancel = m.cancel

def Governed.Allocated (s : Governed) (m : Managed upstreamCalls) : Prop :=
  m.Genuine ∧ ∃ handle, s.streams[m.once]? = some handle ∧ handle.Of m

def governedSystem (p : Provider upstreamCalls) (options : CircuitBreaker.Options) :
    System governedCalls Governed Task Answer where
  body := Task.body p
  admits s
    | .chat _ | .chatStream _ => True
    | .recv m | .close m => s.Allocated m
  handles _ := Governed.Handled options
  moves := Governed.Observed options

/-! Who holds what -/

namespace Stage

/-- The slot of the semaphore a call holds, and whether it has been released. -/
def slotClaim : Stage → Option (Nat × Bool)
  | .admitted slot | .refused slot | .trying slot _ | .completed slot _ _ => some (slot, false)
  | .left slot _ => some (slot, true)
  | .entered m _ | .canceled m _ | .settled m _ => some (m.concurrency, false)
  | .vacated m _ => some (m.concurrency, true)
  | _ => none

/-- The permit of the breaker a call holds, and whether it has been completed. -/
def permitClaim : Stage → Option (Nat × Bool)
  | .trying _ permit => some (permit, false)
  | .completed _ permit _ | .left _ (some (permit, _)) => some (permit, true)
  | .entered m _ | .canceled m _ => some (m.circuit, false)
  | .settled m _ | .vacated m _ => some (m.circuit, true)
  | _ => none

def runner : Stage → Option Nat
  | .entered m _ | .canceled m _ | .settled m _ | .vacated m _ => some m.once
  | _ => none

def stream : Stage → Option (Managed upstreamCalls)
  | .listening m | .heard m | .ended m _ | .entered m _ | .canceled m _ | .settled m _ |
      .vacated m _ | .gone m _ =>
      some m
  | _ => none

def completion : Stage → Option (Nat × Outcome)
  | .completed _ permit outcome => some (permit, outcome)
  | .left _ completion => completion
  | .settled m outcome | .vacated m outcome | .gone m (some outcome) => some (m.circuit, outcome)
  | _ => none

end Stage

namespace Handle

/-- A stream holds its permits until its `once` runs, and their remains after. -/
def slotClaim (handle : Handle) : Option (Nat × Bool) :=
  match handle.once with
  | .fresh => some (handle.concurrency, false)
  | .running => none
  | .spent => some (handle.concurrency, true)

def permitClaim (handle : Handle) : Option (Nat × Bool) :=
  match handle.once with
  | .fresh => some (handle.circuit, false)
  | .running => none
  | .spent => some (handle.circuit, true)

end Handle

def runningAt (entry : Nat × Handle) : Option Nat :=
    if entry.2.once = .running then some entry.1 else none

def spentPermits (ledger : Ledger) : List Bool :=
  ledger.permits.map fun issued => issued.permit.spent

/-- Every slot and every permit is held by one call or one stream, and every
running `once` is run by one call. -/
structure Balanced (s : Governed) (stages : List Stage) : Prop where
  slots : Custody (stages.filterMap Stage.slotClaim ++ s.streams.filterMap Handle.slotClaim)
    s.semaphore.spent
  permits : Custody (stages.filterMap Stage.permitClaim ++ s.streams.filterMap Handle.permitClaim)
    (spentPermits s.ledger)
  runners : (stages.filterMap Stage.runner).Perm ((entries s.streams).filterMap runningAt)
  occupied : s.semaphore.slots = s.semaphore.spent.countP (!·)
  bounded : s.semaphore.slots ≤ s.semaphore.capacity
  allocated : ∀ stage ∈ stages, ∀ m, stage.stream = some m → s.Allocated m
  gone : ∀ stage ∈ stages, ∀ m completion, stage = .gone m completion →
    ∃ handle, s.streams[m.once]? = some handle ∧ handle.once = .spent
  won : ∀ {index handle}, s.streams[index]? = some handle → handle.once = .spent →
    ∃ stage ∈ stages, ∃ m outcome, stage = .gone m (some outcome) ∧ m.once = index
  completed : ∀ permit, s.completions.countP (fun completion => completion.1 == permit) =
    if (spentPermits s.ledger)[permit]? = some true then 1 else 0
  told : ∀ stage ∈ stages, ∀ completion, stage.completion = some completion →
    completion ∈ s.completions
  covered : s.ledger.Covered

/-! The permits after a call on the breaker -/

section Spent

variable (options : CircuitBreaker.Options) (ledger : Ledger)

theorem spentPermits_state (now : Int) :
    spentPermits (ledger.step options (.state now)) = spentPermits ledger :=
  rfl

theorem spentPermits_available (now : Int) :
    spentPermits (ledger.step options (.available now)) = spentPermits ledger := rfl

theorem spentPermits_allow (now : Int) :
    spentPermits (ledger.step options (.allow now)) = spentPermits ledger ++
      if (CircuitBreaker.allow options now ledger.breaker).2.1.isSome then [false] else [] := by
  rcases CircuitBreaker.allow_cases options now ledger.breaker with ⟨_, _, refused⟩ |
    ⟨_, _, granted⟩
  · simp only [Ledger.step, refused]
    exact (List.append_nil _).symm
  · simp only [Ledger.step, granted]
    exact List.map_append

theorem spentPermits_done {permit : Nat} (unspent : (spentPermits ledger)[permit]? = some false)
    (outcome : Outcome) (now : Int) :
    spentPermits (ledger.step options (.done permit outcome now)) =
      (spentPermits ledger).set permit true := by
  rw [spentPermits, List.getElem?_map, Option.map_eq_some_iff] at unspent
  obtain ⟨issued, located, live⟩ := unspent
  simp only [Ledger.step, Ledger.finish, located, live]
  exact List.map_set

end Spent

section Steps

variable {s : Governed} {stages : List Stage} (balanced : Balanced s stages) {index : Nat}
  {stage : Stage} (found : stages[index]? = some stage)

include found in
theorem filterMap_set_same {β : Type} {claim : Stage → Option β} {next : Stage}
    (same : claim next = claim stage) :
    ((stages.set index next).filterMap claim).Perm (stages.filterMap claim) := by
  obtain ⟨rest, before, after⟩ := filterMap_set_perm found claim
  have changed := after next
  rw [same] at changed
  exact changed.trans before.symm

include found in
theorem over_mem_set (live : ∀ m completion, stage ≠ .gone m completion) (next : Stage)
    {m : Managed upstreamCalls} {completion : Option Outcome}
    (member : .gone m completion ∈ stages) :
    .gone m completion ∈ stages.set index next := by
  obtain ⟨place, located⟩ := List.getElem?_of_mem member
  have other : index ≠ place := by
    rintro rfl
    exact live m completion (Option.some.inj (found.symm.trans located))
  exact List.mem_of_getElem? ((List.getElem?_set_ne other).trans located)

include balanced found in
theorem Balanced.proceed {next : Stage} {semaphore : Semaphore} {ledger : Ledger}
    {completions : List (Nat × Outcome)}
    (slots : Custody
      ((stages.set index next).filterMap Stage.slotClaim ++ s.streams.filterMap Handle.slotClaim)
      semaphore.spent)
    (permits : Custody
      ((stages.set index next).filterMap Stage.permitClaim ++ s.streams.filterMap
        Handle.permitClaim)
      (spentPermits ledger))
    (runner : next.runner = stage.runner) (occupied : semaphore.slots = semaphore.spent.countP (!·))
    (bounded : semaphore.slots ≤ semaphore.capacity) (stream : ∀ m, next.stream = some m →
      stage.stream = some m)
    (ends : ∀ m completion, next = .gone m completion →
      ∃ handle, s.streams[m.once]? = some handle ∧ handle.once = .spent)
    (live : ∀ m completion, stage ≠ .gone m completion)
    (completed : ∀ permit, completions.countP (fun completion => completion.1 == permit) =
      if (spentPermits ledger)[permit]? = some true then 1 else 0)
    (grows : ∀ completion ∈ s.completions, completion ∈ completions)
    (told : ∀ completion, next.completion = some completion → completion ∈ completions)
    (covered : ledger.Covered) :
    Balanced ⟨semaphore, ledger, s.streams, completions⟩ (stages.set index next) := by
  -- Only the stage at `index` changes, so each clause is that of the old stages or a premise.
  refine ⟨slots, permits, ?_, occupied, bounded, ?_, ?_, ?_, completed, ?_, covered⟩
  · exact (filterMap_set_same found runner).trans balanced.runners
  · intro other member m on
    rcases List.mem_or_eq_of_mem_set member with old | rfl
    · exact balanced.allocated other old m on
    · exact balanced.allocated stage (List.mem_of_getElem? found) m (stream m on)
  · intro other member m completion ended
    rcases List.mem_or_eq_of_mem_set member with old | rfl
    · exact balanced.gone other old m completion ended
    · exact ends m completion ended
  · intro position handle located spent
    obtain ⟨winner, member, m, outcome, rfl, same⟩ := balanced.won located spent
    exact ⟨_, over_mem_set found live next member, m, outcome, rfl, same⟩
  · intro other member completion made
    rcases List.mem_or_eq_of_mem_set member with old | rfl
    · exact grows _ (balanced.told other old completion made)
    · exact told completion made

include balanced in
theorem Balanced.slots_of_same {next : Stage} (found : stages[index]? = some stage)
    (same : next.slotClaim = stage.slotClaim) :
    Custody ((stages.set index next).filterMap Stage.slotClaim ++ s.streams.filterMap
        Handle.slotClaim) s.semaphore.spent :=
  balanced.slots.perm ((filterMap_set_same found same).append_right _)

include balanced in
theorem Balanced.permits_of_same {next : Stage} (found : stages[index]? = some stage)
    (same : next.permitClaim = stage.permitClaim) :
    Custody ((stages.set index next).filterMap Stage.permitClaim ++ s.streams.filterMap
        Handle.permitClaim) (spentPermits s.ledger) :=
  balanced.permits.perm ((filterMap_set_same found same).append_right _)

include balanced found in
theorem Balanced.quiet {next : Stage} {ledger : Ledger} (slot : next.slotClaim = stage.slotClaim)
    (permit : next.permitClaim = stage.permitClaim) (runner : next.runner = stage.runner)
    (stream : ∀ m, next.stream = some m → stage.stream = some m)
    (ends : ∀ m completion, next = .gone m completion →
      ∃ handle, s.streams[m.once]? = some handle ∧ handle.once = .spent)
    (live : ∀ m completion, stage ≠ .gone m completion)
    (told : ∀ completion, next.completion = some completion → stage.completion = some completion)
    (same : spentPermits ledger = spentPermits s.ledger) (covered : ledger.Covered) :
    Balanced { s with ledger } (stages.set index next) := by
  apply balanced.proceed found (balanced.slots_of_same found slot) _ runner balanced.occupied
    balanced.bounded stream ends live _ (fun _ member => member) _ covered
  · rw [same]
    exact balanced.permits_of_same found permit
  · rw [same]
    exact balanced.completed
  · intro completion made
    exact balanced.told stage (List.mem_of_getElem? found) completion (told completion made)

include balanced found in
theorem Balanced.idle {next : Stage} (slot : next.slotClaim = stage.slotClaim)
    (permit : next.permitClaim = stage.permitClaim) (runner : next.runner = stage.runner)
    (stream : ∀ m, next.stream = some m → stage.stream = some m)
    (ends : ∀ m completion, next = .gone m completion →
      ∃ handle, s.streams[m.once]? = some handle ∧ handle.once = .spent)
    (live : ∀ m completion, stage ≠ .gone m completion)
    (told : ∀ completion, next.completion = some completion → stage.completion = some completion) :
    Balanced s (stages.set index next) :=
  balanced.quiet found slot permit runner stream ends live told rfl balanced.covered

include balanced in
theorem Balanced.acquire (found : stages[index]? = some .waiting) {slot : Nat}
    {semaphore : Semaphore} (taken : s.semaphore.Acquire = some (slot, semaphore)) :
    Balanced { s with semaphore } (stages.set index (.admitted slot)) := by
  unfold Semaphore.Acquire at taken
  split at taken
  case isFalse => cases taken
  rename_i room
  obtain ⟨rfl, rfl⟩ := Prod.mk.inj (Option.some.inj taken)
  obtain ⟨rest, before, after⟩ := filterMap_set_perm found Stage.slotClaim
  refine balanced.proceed found (balanced.slots.transfer_issue before false (after _))
    (balanced.permits_of_same found rfl) rfl ?_ room (fun m on => nomatch on)
    (fun m completion => nofun) (fun m completion => nofun) balanced.completed
    (fun _ member => member) (fun completion made => nomatch made) balanced.covered
  simp [balanced.occupied]

include balanced in
/-- The slot of a call that still has it is taken, so its release finds an element. -/
theorem Balanced.release {slot : Nat} {next : Stage} {semaphore : Semaphore}
    (found : stages[index]? = some stage) (held : stage.slotClaim = some (slot, false))
    (given : next.slotClaim = some (slot, true)) (permit : next.permitClaim = stage.permitClaim)
    (runner : next.runner = stage.runner)
    (stream : ∀ m, next.stream = some m → stage.stream = some m)
    (going : ∀ m completion, next ≠ .gone m completion)
    (live : ∀ m completion, stage ≠ .gone m completion)
    (told : ∀ completion, next.completion = some completion → stage.completion = some completion)
    (released : s.semaphore.Release slot = some semaphore) :
    Balanced { s with semaphore } (stages.set index next) := by
  obtain ⟨rest, before, after⟩ := filterMap_set_perm found Stage.slotClaim
  have changed := after next
  rw [held] at before
  rw [given] at changed
  have taken : s.semaphore.spent[slot]? = some false := by
    apply balanced.slots.agrees
    exact List.mem_append_left _ (before.mem_iff.mpr (List.mem_cons_self ..))
  rw [Semaphore.Release, if_pos taken] at released
  split at released
  case isFalse => cases released
  obtain rfl := Option.some.inj released
  apply balanced.proceed found (balanced.slots.transfer_change before true changed)
    (balanced.permits_of_same found permit) runner _ _ stream
    (fun m completion gone => absurd gone (going m completion)) live balanced.completed
    (fun _ member => member) _ balanced.covered
  · obtain ⟨early, late, split, rfl, set⟩ := split_at taken
    rw [set]
    rw [balanced.occupied, split]
    simp
  · exact Nat.le_trans (Nat.sub_le _ _) balanced.bounded
  · intro completion made
    exact balanced.told stage (List.mem_of_getElem? found) completion (told completion made)

include balanced in
theorem Balanced.allowed {slot permit : Nat} (found : stages[index]? = some (.admitted slot))
    {ledger : Ledger} (issued : spentPermits ledger = spentPermits s.ledger ++ [false])
    (number : permit = (spentPermits s.ledger).length) (covered : ledger.Covered) :
    Balanced { s with ledger } (stages.set index (.trying slot permit)) := by
  subst number
  obtain ⟨rest, before, after⟩ := filterMap_set_perm found Stage.permitClaim
  refine balanced.proceed found (balanced.slots_of_same found rfl) ?_ rfl balanced.occupied
    balanced.bounded (fun m on => nomatch on) (fun m completion => nofun)
    (fun m completion => nofun) ?_ (fun _ member => member)
    (fun completion made => nomatch made) covered
  · rw [issued]
    exact balanced.permits.transfer_issue before false (after _)
  · intro permit
    rw [issued, balanced.completed permit, List.getElem?_append]
    by_cases old : permit < (spentPermits s.ledger).length
    · rw [if_pos old]
    · rw [if_neg old, List.getElem?_eq_none (Nat.le_of_not_lt old), if_neg nofun, if_neg]
      intro located
      cases List.mem_singleton.mp (List.mem_of_getElem? located)

include balanced in
theorem Balanced.done {permit : Nat} {next : Stage} {outcome : Outcome}
    {options : CircuitBreaker.Options} {now : Int}
    (found : stages[index]? = some stage) (held : stage.permitClaim = some (permit, false))
    (given : next.permitClaim = some (permit, true))
    (slot : next.slotClaim = stage.slotClaim) (runner : next.runner = stage.runner)
    (stream : ∀ m, next.stream = some m → stage.stream = some m)
    (going : ∀ m completion, next ≠ .gone m completion)
    (live : ∀ m completion, stage ≠ .gone m completion)
    (told : next.completion = some (permit, outcome)) :
    Balanced { s with
      ledger := s.ledger.step options (.done permit outcome now)
      completions := s.completions ++ [(permit, outcome)] } (stages.set index next) := by
  obtain ⟨rest, before, after⟩ := filterMap_set_perm found Stage.permitClaim
  have changed := after next
  rw [held] at before
  rw [given] at changed
  have unspent : (spentPermits s.ledger)[permit]? = some false := by
    apply balanced.permits.agrees
    exact List.mem_append_left _ (before.mem_iff.mpr (List.mem_cons_self ..))
  have marked := spentPermits_done options s.ledger unspent outcome now
  apply balanced.proceed found (balanced.slots_of_same found slot) _ runner balanced.occupied
    balanced.bounded stream (fun m completion gone => absurd gone (going m completion)) live _
    (fun _ member => List.mem_append_left _ member) _
    (Ledger.step_covered options balanced.covered _)
  · rw [marked]
    exact balanced.permits.transfer_change before true changed
  · intro other
    rw [marked, List.countP_append, balanced.completed other]
    by_cases same : permit = other
    · subst same
      have bound := (List.getElem?_eq_some_iff.mp unspent).1
      simp [unspent, List.getElem?_set_self bound]
    · simp [List.getElem?_set_ne same, same]
  · intro completion made
    obtain rfl := Option.some.inj (told.symm.trans made)
    exact List.mem_append_right _ (List.mem_singleton_self _)

/-! Steps that change a stream -/

theorem allocated_setOnce {m : Managed upstreamCalls} (allocated : s.Allocated m) {position : Nat}
    {handle : Handle} (located : s.streams[position]? = some handle) (once : OnceState) :
    (s.setOnce position handle once).Allocated m := by
  obtain ⟨genuine, known, at', fields⟩ := allocated
  refine ⟨genuine, ?_⟩
  by_cases same : position = m.once
  · subst same
    rw [located] at at'
    obtain rfl := Option.some.inj at'
    exact ⟨_, List.getElem?_set_self (List.getElem?_eq_some_iff.mp located).1, fields.circuit,
      fields.concurrency, fields.cancel⟩
  · exact ⟨known, (List.getElem?_set_ne same).trans at', fields⟩

include balanced found in
theorem Balanced.turn {next : Stage} {position : Nat} {handle : Handle} {once : OnceState}
    (located : s.streams[position]? = some handle)
    (slots : (stage.slotClaim.toList ++ handle.slotClaim.toList).Perm
      (next.slotClaim.toList ++ ({ handle with once } : Handle).slotClaim.toList))
    (permits : (stage.permitClaim.toList ++ handle.permitClaim.toList).Perm
      (next.permitClaim.toList ++ ({ handle with once } : Handle).permitClaim.toList))
    (runners : ∀ rest, (stages.filterMap Stage.runner).Perm
      ((runningAt (position, handle)).toList ++ rest) →
      ((stages.set index next).filterMap Stage.runner).Perm
        ((runningAt (position, { handle with once })).toList ++ rest))
    (stream : next.stream = stage.stream) (unspent : handle.once ≠ .spent)
    (ends : ∀ m completion, next = .gone m completion → m.once = position ∧ once = .spent)
    (won : once = .spent → ∃ m outcome, next = .gone m (some outcome) ∧ m.once = position)
    (live : ∀ m completion, stage ≠ .gone m completion)
    (told : next.completion = stage.completion) :
    Balanced (s.setOnce position handle once) (stages.set index next) := by
  have bound := (List.getElem?_eq_some_iff.mp located).1
  have member := List.mem_of_getElem? found
  obtain ⟨mine, before, after⟩ := filterMap_set_perm found Stage.slotClaim
  obtain ⟨yours, held, handed⟩ := filterMap_set_perm located Handle.slotClaim
  obtain ⟨mine', before', after'⟩ := filterMap_set_perm found Stage.permitClaim
  obtain ⟨yours', held', handed'⟩ := filterMap_set_perm located Handle.permitClaim
  refine ⟨balanced.slots.transfer before (after _) held (handed _) slots,
    balanced.permits.transfer before' (after' _) held' (handed' _) permits, ?_, balanced.occupied,
    balanced.bounded, ?_, ?_, ?_, balanced.completed, ?_, balanced.covered⟩
  -- The one running `once` of a stream is that of the call inside it.
  · obtain ⟨rest, here, there⟩ := entries_set_perm located
    have gather (value : Handle) : (((position, value) :: rest).filterMap runningAt) =
        (runningAt (position, value)).toList ++ rest.filterMap runningAt := by
      rw [List.filterMap_cons]
      cases runningAt (position, value) <;> rfl
    have known := balanced.runners.trans (here.filterMap runningAt)
    rw [gather] at known
    have changed := (there { handle with once }).filterMap runningAt
    rw [gather] at changed
    exact (runners _ known).trans changed.symm
  · intro other inside m on
    apply allocated_setOnce _ located
    rcases List.mem_or_eq_of_mem_set inside with old | rfl
    · exact balanced.allocated other old m on
    · exact balanced.allocated stage member m (stream.symm.trans on)
  · intro other inside m completion gone
    rcases List.mem_or_eq_of_mem_set inside with old | rfl
    · obtain ⟨known, at', spent⟩ := balanced.gone other old m completion gone
      -- The `once` that changes was not spent, so it is not the one of a call that is through.
      have elsewhere : position ≠ m.once := by
        rintro rfl
        rw [located] at at'
        obtain rfl := Option.some.inj at'
        exact unspent spent
      exact ⟨known, (List.getElem?_set_ne elsewhere).trans at', spent⟩
    · obtain ⟨rfl, spent⟩ := ends m completion gone
      exact ⟨_, List.getElem?_set_self bound, spent⟩
  · intro place known at' spent
    rcases getElem?_set_some at' with ⟨rfl, rfl⟩ | ⟨_, old⟩
    · obtain ⟨m, outcome, gone, same⟩ := won spent
      exact ⟨next, List.mem_set (List.getElem?_eq_some_iff.mp found).1 _, m, outcome, gone, same⟩
    · obtain ⟨winner, inside, m, outcome, rfl, same⟩ := balanced.won old spent
      exact ⟨_, over_mem_set found live next inside, m, outcome, rfl, same⟩
  · intro other inside completion made
    rcases List.mem_or_eq_of_mem_set inside with old | rfl
    · exact balanced.told other old completion made
    · exact balanced.told stage member completion (told.symm.trans made)

include balanced in
theorem Balanced.enterOnce {m : Managed upstreamCalls} {outcome : Outcome}
    (found : stages[index]? = some (.ended m outcome)) {handle : Handle}
    (located : s.streams[m.once]? = some handle) (fresh : handle.once = .fresh) :
    Balanced (s.setOnce m.once handle .running) (stages.set index (.entered m outcome)) := by
  obtain ⟨_, known, at', fields⟩ := balanced.allocated _ (List.mem_of_getElem? found) m rfl
  obtain rfl := Option.some.inj (located.symm.trans at')
  obtain ⟨rest, before, after⟩ := filterMap_set_perm found Stage.runner
  refine balanced.turn found located ?_ ?_ ?_ rfl ?_ (fun _ _ => nofun) nofun (fun _ _ => nofun) rfl
  · simp [Stage.slotClaim, Handle.slotClaim, fresh, fields.concurrency]
  · simp [Stage.permitClaim, Handle.permitClaim, fresh, fields.circuit]
  · intro others known
    simp only [runningAt, fresh] at known
    apply (after _).trans
    exact (before.symm.trans known).cons _
  · rw [fresh]
    nofun

include balanced in
theorem Balanced.running {position : Nat} (member : stage ∈ stages)
    (runs : stage.runner = some position) :
    ∃ handle, s.streams[position]? = some handle ∧ handle.once = .running := by
  have mine : position ∈ (entries s.streams).filterMap runningAt :=
    balanced.runners.mem_iff.mp (List.mem_filterMap.mpr ⟨stage, member, runs⟩)
  obtain ⟨⟨place, handle⟩, inside, busy⟩ := List.mem_filterMap.mp mine
  unfold runningAt at busy
  split at busy
  case isFalse => cases busy
  rename_i once
  obtain rfl := Option.some.inj busy
  exact ⟨handle, mem_entries.mp inside, once⟩

include balanced in
/-- The last act of the call that ran the `once` of a stream. -/
theorem Balanced.leaveOnce {m : Managed upstreamCalls} {outcome : Outcome}
    (found : stages[index]? = some (.vacated m outcome)) {handle : Handle}
    (located : s.streams[m.once]? = some handle) :
    Balanced (s.setOnce m.once handle .spent) (stages.set index (.gone m (some outcome))) := by
  obtain ⟨_, known, at', fields⟩ := balanced.allocated _ (List.mem_of_getElem? found) m rfl
  obtain rfl := Option.some.inj (located.symm.trans at')
  obtain ⟨rest, before, after⟩ := filterMap_set_perm found Stage.runner
  have running : handle.once = .running := by
    obtain ⟨busy, there, once⟩ := balanced.running (List.mem_of_getElem? found) rfl
    obtain rfl := Option.some.inj (located.symm.trans there)
    exact once
  refine balanced.turn found located ?_ ?_ ?_ rfl ?_ ?_ ?_ (fun _ _ => nofun) rfl
  · simp [Stage.slotClaim, Handle.slotClaim, running, fields.concurrency]
  · simp [Stage.permitClaim, Handle.permitClaim, running, fields.circuit]
  · intro others known
    simp only [runningAt, running] at known
    apply (after _).trans
    exact (before.symm.trans known).cons_inv
  · rw [running]
    nofun
  · rintro _ _ gone
    cases gone
    exact ⟨rfl, rfl⟩
  · intro _
    exact ⟨m, outcome, rfl, rfl⟩

include balanced in
theorem Balanced.handOver {slot permit : Nat} (found : stages[index]? = some (.trying slot permit))
    (cancel : Option Nat) :
    Balanced { s with streams := s.streams ++ [⟨permit, slot, cancel, .fresh⟩] }
      (stages.set index (.handed s.streams.length)) := by
  obtain ⟨mine, before, after⟩ := filterMap_set_perm found Stage.slotClaim
  obtain ⟨mine', before', after'⟩ := filterMap_set_perm found Stage.permitClaim
  -- The new stream is appended, so every older one keeps its place.
  have kept {position : Nat} {handle : Handle} (located : s.streams[position]? = some handle) :
      (s.streams ++ [⟨permit, slot, cancel, .fresh⟩])[position]? = some handle :=
    (List.getElem?_append_left (List.getElem?_eq_some_iff.mp located).1).trans located
  have live (m : Managed upstreamCalls) (completion : Option Outcome) : Stage.trying slot permit ≠
      .gone m completion :=
    nofun
  refine ⟨?_, ?_, ?_, balanced.occupied, balanced.bounded, ?_, ?_, ?_, balanced.completed, ?_,
    balanced.covered⟩
  · rw [List.filterMap_append]
    exact balanced.slots.transfer_pass before (after _)
  · rw [List.filterMap_append]
    exact balanced.permits.transfer_pass before' (after' _)
  · have unchanged :
        ((entries (s.streams ++ [⟨permit, slot, cancel, .fresh⟩])).filterMap runningAt) =
        (entries s.streams).filterMap runningAt := by
      rw [entries, List.zipIdx_append, List.map_append, List.filterMap_append]
      exact List.append_nil _
    rw [unchanged]
    apply List.Perm.trans _ balanced.runners
    exact filterMap_set_same found rfl
  · intro other inside m on
    rcases List.mem_or_eq_of_mem_set inside with old | rfl
    · obtain ⟨genuine, handle, located, fields⟩ := balanced.allocated other old m on
      exact ⟨genuine, handle, kept located, fields⟩
    · cases on
  · intro other inside m completion gone
    rcases List.mem_or_eq_of_mem_set inside with old | rfl
    · obtain ⟨handle, located, spent⟩ := balanced.gone other old m completion gone
      exact ⟨handle, kept located, spent⟩
    · cases gone
  · intro position handle located spent
    rcases getElem?_concat_some located with old | rfl
    · obtain ⟨winner, inside, m, outcome, rfl, same⟩ := balanced.won old spent
      exact ⟨_, over_mem_set found live _ inside, m, outcome, rfl, same⟩
    · cases spent
  · intro other inside completion made
    rcases List.mem_or_eq_of_mem_set inside with old | rfl
    · exact balanced.told other old completion made
    · cases made

end Steps

section Starts

variable {s : Governed} {stages : List Stage} (balanced : Balanced s stages)
include balanced

theorem Balanced.enters {stage : Stage} (slot : stage.slotClaim = none)
    (permit : stage.permitClaim = none) (runner : stage.runner = none)
    (stream : ∀ m, stage.stream = some m → s.Allocated m)
    (going : ∀ m completion, stage ≠ .gone m completion) (told : stage.completion = none) :
    Balanced s (stages ++ [stage]) := by
  have same {β : Type} {claim : Stage → Option β} (nothing : claim stage = none) :
      (stages ++ [stage]).filterMap claim = stages.filterMap claim := by
    rw [List.filterMap_append, List.filterMap_cons_none nothing]
    exact List.append_nil _
  have split {other : Stage} (member : other ∈ stages ++ [stage]) : other ∈ stages ∨
      other = stage :=
    (List.mem_append.mp member).imp_right List.mem_singleton.mp
  refine ⟨?_, ?_, ?_, balanced.occupied, balanced.bounded, ?_, ?_, ?_, balanced.completed, ?_,
    balanced.covered⟩
  · rw [same slot]
    exact balanced.slots
  · rw [same permit]
    exact balanced.permits
  · rw [same runner]
    exact balanced.runners
  · intro other member m on
    rcases split member with old | rfl
    · exact balanced.allocated other old m on
    · exact stream m on
  · intro other member m completion gone
    rcases split member with old | rfl
    · exact balanced.gone other old m completion gone
    · exact absurd gone (going m completion)
  · intro index handle located spent
    obtain ⟨winner, member, won⟩ := balanced.won located spent
    exact ⟨winner, List.mem_append_left _ member, won⟩
  · intro other member completion made
    rcases split member with old | rfl
    · exact balanced.told other old completion made
    · rw [told] at made
      cases made

theorem Balanced.observe {ledger : Ledger} (same : spentPermits ledger = spentPermits s.ledger)
    (covered : ledger.Covered) : Balanced { s with ledger } stages := by
  refine ⟨balanced.slots, ?_, balanced.runners, balanced.occupied, balanced.bounded,
    balanced.allocated, balanced.gone, balanced.won, ?_, balanced.told, covered⟩
  · rw [same]
    exact balanced.permits
  · rw [same]
    exact balanced.completed

end Starts

section Run

variable (p : Provider upstreamCalls) (options : CircuitBreaker.Options)

/-- Every call keeps to its stages when no panic can come from the policy. -/
def governedDiscipline (asked : p.inner = upstream) (steady : p.retry.Steady)
    (positive : 0 < p.retry.options.maxAttempts) : Discipline (governedSystem p options) Stage where
  protocol := conduct
  first := Task.first
  post := Concluded
  obeyed _ task admitted :=
    match task, admitted with
    | .chat request, _ => chat_concludes asked steady positive request
    | .chatStream request, _ => chatStream_concludes asked steady positive request
    | .recv _, allocated => recv_concludes allocated.1 p
    | .close _, allocated => close_concludes allocated.1 p

theorem perform_balanced {s next : Governed} {stages : List Stage} {index : Nat} {stage : Stage}
    {op : governedCalls.Op} {reply : governedCalls.Reply op} (balanced : Balanced s stages)
    (found : stages[index]? = some stage) (allowed : stage.May op)
    (handled : Governed.Handled options s op reply next) :
    Balanced next (stages.set index (stage.after op reply)) := by
  unfold Stage.May at allowed
  split at allowed
  · -- `Acquire` sends to the channel or finds its context ended
    cases reply with
    | ok slot =>
        obtain ⟨semaphore, taken, rfl⟩ := handled
        exact balanced.acquire found taken
    | error ended =>
        obtain rfl := handled
        exact balanced.idle found rfl rfl rfl (fun _ => nofun) (fun _ _ => nofun) (fun _ _ => nofun)
          (fun _ => nofun)
  · obtain ⟨now, replied, rfl⟩ := handled
    have covered := Ledger.step_covered options balanced.covered (.allow now)
    have permits := spentPermits_allow options s.ledger now
    cases granted : (CircuitBreaker.allow options now s.ledger.breaker).2.1 with
    | none =>
        rw [granted] at permits replied
        subst replied
        exact balanced.quiet found rfl rfl rfl (fun _ => nofun) (fun _ _ => nofun)
          (fun _ _ => nofun) (fun _ => nofun) (permits.trans (List.append_nil _)) covered
    | some permit =>
        rw [granted] at permits replied
        subst replied
        exact balanced.allowed found permits (List.length_map _).symm covered
  · obtain ⟨semaphore, released, rfl⟩ := handled
    subst allowed
    exact balanced.release found rfl rfl rfl rfl (fun _ => nofun) (fun _ _ => nofun)
      (fun _ _ => nofun) (fun _ => nofun) released
  · obtain rfl := handled
    exact balanced.idle found rfl rfl rfl (fun _ => id) (fun _ _ => nofun) (fun _ _ => nofun)
      (fun _ => id)
  · obtain rfl := handled
    exact balanced.idle found rfl rfl rfl (fun _ => id) (fun _ _ => nofun) (fun _ _ => nofun)
      (fun _ => id)
  · obtain rfl := handled
    exact balanced.idle found rfl rfl rfl (fun _ => id) (fun _ _ => nofun) (fun _ _ => nofun)
      (fun _ => id)
  · obtain ⟨now, rfl⟩ := handled
    subst allowed
    exact balanced.done found rfl rfl rfl rfl (fun _ => nofun) (fun _ _ => nofun)
      (fun _ _ => nofun) rfl
  · obtain ⟨rfl, rfl⟩ := handled
    obtain ⟨rfl, rfl, _⟩ := allowed
    exact balanced.handOver found _
  · obtain ⟨semaphore, released, rfl⟩ := handled
    subst allowed
    exact balanced.release found rfl rfl rfl rfl (fun _ => nofun) (fun _ _ => nofun)
      (fun _ _ => nofun) (fun _ => id) released
  · -- a received error other than nil ends the stream
    obtain rfl := handled
    rename_i m _
    simp only [Stage.after]
    cases Managed.receivedOutcome reply.2 with
    | none =>
        exact balanced.idle found rfl rfl rfl (fun _ => id) (fun _ _ => nofun) (fun _ _ => nofun)
          (fun _ => nofun)
    | some outcome =>
        exact balanced.idle found rfl rfl rfl (fun _ => id) (fun _ _ => nofun) (fun _ _ => nofun)
          (fun _ => nofun)
  · obtain rfl := handled
    exact balanced.idle found rfl rfl rfl (fun _ => id) (fun _ _ => nofun) (fun _ _ => nofun)
      (fun _ => nofun)
  · subst allowed
    obtain ⟨handle, located, ⟨fresh, rfl, rfl⟩ | ⟨spent, rfl, rfl⟩⟩ := handled
    · exact balanced.enterOnce found located fresh
    · refine balanced.idle found rfl rfl rfl (fun _ => id) ?_ (fun _ _ => nofun) (fun _ => nofun)
      rintro _ _ gone
      cases gone
      exact ⟨handle, located, spent⟩
  · obtain rfl := handled
    exact balanced.idle found rfl rfl rfl (fun _ => id) (fun _ _ => nofun) (fun _ _ => nofun)
      (fun _ => id)
  · obtain ⟨now, rfl⟩ := handled
    obtain ⟨rfl, rfl⟩ := allowed
    exact balanced.done found rfl rfl rfl rfl (fun _ => id) (fun _ _ => nofun)
      (fun _ _ => nofun) rfl
  · obtain ⟨semaphore, released, rfl⟩ := handled
    subst allowed
    exact balanced.release found rfl rfl rfl rfl (fun _ => id) (fun _ _ => nofun) (fun _ _ => nofun)
      (fun _ => id) released
  · subst allowed
    obtain ⟨handle, located, rfl⟩ := handled
    exact balanced.leaveOnce found located
  · exact allowed.elim

end Run

end ModelGate.Governance
