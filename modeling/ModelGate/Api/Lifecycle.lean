import ModelGate.Metrics.Counters
import ModelGate.Provider.SseGrammar
import ModelGate.Routing.Opening
import ModelGate.Service.AtMostOnce

/-! The life of a stream under any calls of its client.

The managed and the metered stream each keep a `sync.Once`. Both see the same
calls, and the first call that ends the stream settles the request: whatever
comes before it or after it does nothing to the permits, the contexts, the
record and the metrics. A panic of the observer comes after all of it.
-/

set_option autoImplicit false

namespace ModelGate.Provider.Returned

open Governance (Managed)
open Service (RecordStatus gatewayErrorCode)

/-- What the managed stream tells the breaker. -/
def outcome : Returned → CircuitBreaker.Outcome
  | .received _ none => .ignored
  | .received _ (some err) => if err.is .eof then .success else Governance.circuitOutcome (some err)
  | .closed failed => Managed.closedOutcome failed

/-- What the metered stream records. -/
def status (returned : Returned) : RecordStatus := if returned.eof then .succeeded else .failed

def chunk : Returned → Option ChatStreamChunk
  | .received chunk _ => chunk
  | .closed _ => none

def errorCode : Returned → String
  | .received _ none => ""
  | .received _ (some err) => if err.is .eof then "" else gatewayErrorCode err
  | .closed failed => if failed.isSome then "stream_close_failed" else "stream_closed"

theorem outcome_success {returned : Returned} (ends : returned.terminal = true) :
    returned.outcome = .success ↔ returned.eof = true := by
  cases returned with
  | closed failed =>
      show Managed.closedOutcome failed = .success ↔ false = true
      unfold Managed.closedOutcome
      split <;> exact iff_of_false nofun Bool.false_ne_true
  | received chunk err =>
      obtain ⟨err, rfl⟩ := Option.isSome_iff_exists.mp ends
      show (if err.is .eof then .success else Governance.circuitOutcome (some err)) =
          CircuitBreaker.Outcome.success ↔ err.is .eof = true
      unfold Governance.circuitOutcome
      split
      · exact iff_of_true rfl ‹_›
      · -- An error the breaker is told of is a failure or ignored.
        refine iff_of_false ?_ ‹_›
        dsimp only
        split <;> exact nofun

theorem status_succeeded (returned : Returned) :
    returned.status = .succeeded ↔ returned.eof = true := by
  unfold status
  split
  · exact iff_of_true rfl ‹_›
  · exact iff_of_false nofun ‹_›

end ModelGate.Provider.Returned

namespace ModelGate.Api

open Data Semantics Provider
open Routing (fleet lift Member memberStream Earlier)
open Governance (governedCalls Managed)
open Service (RecordStatus RequestRecord gatewayErrorCode)

/-- The operations of a gateway over a router of governed providers. -/
abbrev stack : Signature := Service.effects.sum (Routing.effects.sum fleet)

/-- The numbers a stream is known by: its target, its breaker permit and the
two `once` values over it. -/
structure Ref where
  index : Nat
  circuit : Nat
  once : Nat
  cell : Nat

/-! What settles a request -/

inductive Act where
  | cancelledAttempt (target cancel : Nat)
  | completed (target permit : Nat) (outcome : CircuitBreaker.Outcome)
  | released (target slot : Nat)
  | cancelledRequest
  | recorded (record : RequestRecord)
  | observed (provider : String) (usage : ChatUsage)
  deriving DecidableEq

def governedAct (target : Nat) : Event governedCalls → Option Act
  | ⟨.inl (.retry (.cancel cancel)), _⟩ => some (.cancelledAttempt target cancel)
  | ⟨.inl (.done permit outcome), _⟩ => some (.completed target permit outcome)
  | ⟨.inl (.release slot), _⟩ => some (.released target slot)
  | _ => none

def memberAct (event : Event fleet) : Option Act := governedAct event.op.1 ⟨event.op.2, event.reply⟩

def actOf : Event stack → Option Act
  | ⟨.inl .cancel, _⟩ => some .cancelledRequest
  | ⟨.inl (.record record), _⟩ => some (.recorded record)
  | ⟨.inl (.observeTokens provider usage), _⟩ => some (.observed provider usage)
  | ⟨.inl _, _⟩ => none
  | ⟨.inr op, reply⟩ => behind memberAct ⟨op, reply⟩

def acts (trace : List (Event stack)) : List Act := trace.filterMap actOf

@[simp] theorem acts_append (first rest : List (Event stack)) :
    acts (first ++ rest) = acts first ++ acts rest :=
  List.filterMap_append

/-- The permits and the context a stream holds next to its other numbers. -/
structure Lease extends Ref where
  slot : Nat
  cancel : Nat

def discharge (lease : Lease) (outcome : CircuitBreaker.Outcome) : List Act :=
  [.cancelledAttempt lease.index lease.cancel, .completed lease.index lease.circuit outcome,
    .released lease.index lease.slot]

def closure (recorder : Bool) (record : RequestRecord) : List Act :=
  .cancelledRequest ::
    ((if recorder then [.recorded record] else []) ++ [.observed record.provider record.usage])

def settlement (recorder : Bool) (lease : Lease) (outcome : CircuitBreaker.Outcome)
    (record : RequestRecord) : List Act :=
  discharge lease outcome ++ closure recorder record

/-! The fields of the two wrappers -/

/-- Whether each `once` is spent, and the last usage. -/
structure Fields where
  managed : Bool
  metered : Bool
  usage : ChatUsage

namespace Fields

def zero : Fields := ⟨false, false, .zero⟩

def Answers (ref : Ref) (fields : Fields) : (op : stack.Op) → stack.Reply op → Prop
  | .inl (.enterOnce stream), first => stream = ref.cell → first = !fields.metered
  | .inl (.loadUsage stream), usage => stream = ref.cell → usage = fields.usage
  | .inr (.inr (target, .inl (.enterOnce stream))), first =>
      target = ref.index → stream = ref.once → first = !fields.managed
  | _, _ => True

def after (ref : Ref) (fields : Fields) : stack.Op → Fields
  | .inl (.enterOnce stream) =>
      if stream = ref.cell then { fields with metered := true } else fields
  | .inl (.storeUsage stream usage) => if stream = ref.cell then { fields with usage } else fields
  | .inr (.inr (target, .inl (.enterOnce stream))) =>
      if target = ref.index ∧ stream = ref.once then { fields with managed := true } else fields
  | _ => fields

end Fields

/-- The memory of one stream; everything else may reply anything. -/
def memory (ref : Ref) : Protocol stack Fields where
  may _ _ := True
  answers fields op reply := fields.Answers ref op reply
  after fields op _ := fields.after ref op

/-! The calls of a client -/

def returnedOf : Event stack → Option Returned
  | ⟨.inr (.inr (_, .inr (.recv _))), received⟩ => some (.received received.1 received.2)
  | ⟨.inr (.inr (_, .inr (.close _))), failed⟩ => some (.closed failed)
  | _ => none

/-- One call with what upstream returned to it, how it ended and what happened during it. -/
structure Turn where
  call : StreamCall
  returned : Returned
  exit : Exit Returned
  events : List (Event stack)

/-- A call asks upstream once and returns what it gets, unless the observer panics. -/
structure Turn.On (stream : Stream stack) (turn : Turn) : Prop where
  runs : (stream.invoke turn.call).Runs turn.events turn.exit
  heard : turn.events.filterMap returnedOf = [turn.returned]
  concludes : turn.exit = Service.GatewayService.concluded turn.events turn.returned

/-! What the wrappers do when a stream ends -/

def raised (index : Nat) (events : List (Event governedCalls)) : List (Event stack) :=
  Service.GatewayService.passed (events.map (lift index))

theorem raised_append (index : Nat) (first rest : List (Event governedCalls)) :
    raised index (first ++ rest) = raised index first ++ raised index rest := by
  simp only [raised, Service.GatewayService.passed, List.map_append]

def leaseOf (index : Nat) (m : Managed upstreamCalls) (cancel cell : Nat) : Lease :=
  ⟨⟨index, m.circuit, m.once, cell⟩, m.concurrency, cancel⟩

section Ends

variable {index cancel cell : Nat} {m : Managed upstreamCalls} {fields : Fields}

theorem managed_settles {outcome : CircuitBreaker.Outcome} {events : List (Event governedCalls)}
    (finished : m.Finished cancel outcome events)
    (kept : (memory (leaseOf index m cancel cell).toRef).Answered fields (raised index events)) :
    (memory (leaseOf index m cancel cell).toRef).advance fields (raised index events) =
      { fields with managed := true } ∧ acts (raised index events) = if fields.managed then []
    else discharge (leaseOf index m cancel cell) outcome := by
  -- The reply of the `once` says which of the two it was.
  rcases finished with rfl | rfl
  · have spent : false = !fields.managed := kept.1 rfl rfl
    refine ⟨if_pos ⟨rfl, rfl⟩, ?_⟩
    rw [if_pos (by simpa using spent.symm)]
    rfl
  · have fresh : true = !fields.managed := kept.1 rfl rfl
    refine ⟨if_pos ⟨rfl, rfl⟩, ?_⟩
    rw [if_neg (by simpa using fresh.symm)]
    rfl

open Service.GatewayService (Metered Passing Saved Finished Ended noted own)

variable {g : Service.GatewayService (Routing.effects.sum fleet)}
  {metered : Metered (Routing.effects.sum fleet)}

theorem advance_passing {ref : Ref} {events : List (Event stack)} (passing : Passing events) :
    (memory ref).advance fields events = fields := by
  induction events with
  | nil => rfl
  | cons event events ih =>
      obtain ⟨op, reply, aside, rfl⟩ := passing event List.mem_cons_self
      have unmoved : fields.after ref (.inl op) = fields := by
        cases op <;> first | rfl | cases aside
      show (memory ref).advance (fields.after ref (.inl op)) events = fields
      rw [unmoved]
      exact ih fun later member => passing later (List.mem_cons_of_mem _ member)

theorem acts_passing {events : List (Event stack)} (passing : Passing events) :
    acts events = [] := by
  rw [acts, List.filterMap_eq_nil_iff]
  intro event member
  obtain ⟨op, reply, aside, rfl⟩ := passing event member
  cases op <;> first | rfl | cases aside

theorem advance_saved {ref : Ref} {record : RequestRecord} {saved : List (Event stack)}
    (kept : Saved g record saved) : (memory ref).advance fields saved = fields := by
  unfold Saved at kept
  split at kept
  · obtain ⟨failed, sunk, rfl, passing⟩ := kept
    show (memory ref).advance fields sunk = fields
    exact advance_passing passing
  · subst kept
    rfl

theorem acts_saved {record : RequestRecord} {saved : List (Event stack)}
    (kept : Saved g record saved) :
    acts saved = if g.options.recorder then [.recorded record] else [] := by
  unfold Saved at kept
  split at kept <;> rename_i recorder
  · obtain ⟨failed, sunk, rfl, passing⟩ := kept
    rw [if_pos recorder]
    exact congrArg (Act.recorded record :: ·) (acts_passing passing)
  · subst kept
    rw [if_neg recorder]
    rfl

theorem advance_noted {ref : Ref} (cell : ref.cell = metered.stream)
    (chunk : Option ChatStreamChunk) :
    (memory ref).advance fields (noted metered chunk) =
      { fields with usage := (chunk.bind ChatStreamChunk.usage).getD fields.usage } := by
  unfold noted
  split
  · rename_i absent
    rw [absent]
    rfl
  · rename_i usage present
    rw [present]
    exact if_pos cell.symm

theorem acts_noted (chunk : Option ChatStreamChunk) : acts (noted metered chunk) = [] := by
  unfold noted
  split <;> rfl

theorem metered_settles {ref : Ref} (cell : ref.cell = metered.stream) {status : RecordStatus}
    {errorCode : String}
    {events : List (Event stack)} (finished : Finished g metered status errorCode events)
    (kept : (memory ref).Answered fields events) :
    (memory ref).advance fields events = { fields with metered := true } ∧
      acts events = if fields.metered then [] else
        closure g.options.recorder (metered.record status errorCode fields.usage) := by
  have enters : fields.after ref (.inl (.enterOnce metered.stream)) =
    { fields with metered := true } := if_pos cell.symm
  rcases finished with rfl | ⟨_, rfl, usage, saved, panicked, rfl, saves⟩
  · have spent : false = !fields.metered := kept.1 cell.symm
    refine ⟨enters, ?_⟩
    rw [if_pos (by simpa using spent.symm)]
    rfl
  · have fresh : true = !fields.metered := kept.1 cell.symm
    -- The usage is loaded after the `once` is entered, which does not touch it.
    have loaded : usage = (fields.after ref (.inl (.enterOnce metered.stream))).usage :=
      kept.2.2.1 cell.symm
    rw [enters] at loaded
    obtain rfl : usage = fields.usage := loaded
    constructor
    · show (memory ref).advance (fields.after ref (.inl (.enterOnce metered.stream))) (saved ++ _) =
        _
      rw [enters, Protocol.advance_append, advance_saved saves]
      rfl
    · rw [if_neg (by simpa using fresh.symm)]
      show Act.cancelledRequest :: acts (saved ++ _) = _
      rw [acts_append, acts_saved saves]
      rfl

def lastUsage (usage : ChatUsage) (returns : List Returned) : ChatUsage :=
  (returns.filterMap Returned.usage).getLast?.getD usage

/-- What a call does to a stream, by whether the stream had ended before. -/
def Turned (g : Service.GatewayService (Routing.effects.sum fleet))
    (metered : Metered (Routing.effects.sum fleet)) (lease : Lease) (spent : Bool)
    (usage : ChatUsage) (returned : Returned) (events : List (Event stack)) : Prop :=
  (memory lease.toRef).advance ⟨spent, spent, usage⟩ events =
      ⟨spent || returned.terminal, spent || returned.terminal, returned.usage.getD usage⟩ ∧
    acts events = if spent || !returned.terminal then [] else
      settlement g.options.recorder lease returned.outcome
        (metered.record returned.status returned.errorCode (returned.usage.getD usage))

def Story (g : Service.GatewayService (Routing.effects.sum fleet))
    (metered : Metered (Routing.effects.sum fleet)) (lease : Lease) :
    Bool → ChatUsage → List Turn → Prop
  | _, _, [] => True
  | spent, usage, turn :: turns =>
      Turned g metered lease spent usage turn.returned turn.events ∧
        Story g metered lease (spent || turn.returned.terminal)
          (turn.returned.usage.getD usage) turns

end Ends

section Calls

open Service.GatewayService (Metered Finished Ended noted)

variable {g : Service.GatewayService (Routing.effects.sum fleet)}
  {metered : Metered (Routing.effects.sum fleet)} {index cancel source : Nat} {name : String}
  {label : Option String} {m : Managed upstreamCalls} {spent : Bool} {usage : ChatUsage}
  {trace : List (Event stack)}

theorem ended_finished {chunk : Option ChatStreamChunk} {err : Err} {events : List (Event stack)}
    (ended : Ended g metered (some err) events) :
    Finished g metered (Returned.received chunk (some err)).status
      (Returned.received chunk (some err)).errorCode events := by
  simp only [Ended] at ended
  show Finished g metered (if err.is .eof then .succeeded else .failed)
    (if err.is .eof then "" else gatewayErrorCode err) events
  split at ended <;> rename_i eof
  · rw [if_pos eof, if_pos eof]
    exact ended
  · rw [if_neg eof, if_neg eof]
    exact ended

theorem advance_upstream {ref : Ref} {fields : Fields} (inner : List (Event upstreamCalls)) :
    (memory ref).advance fields (raised index (Governance.passed inner)) = fields := by
  induction inner with
  | nil => rfl
  | cons event inner ih => exact ih

theorem acts_upstream (inner : List (Event upstreamCalls)) :
    acts (raised index (Governance.passed inner)) = [] := by
  induction inner with
  | nil => rfl
  | cons event inner ih => exact ih

theorem returnedOf_own {events : List (Event stack)} (owned : Service.GatewayService.Owned events) :
    events.filterMap returnedOf = [] := by
  rw [List.filterMap_eq_nil_iff]
  intro event member
  obtain ⟨op, reply, rfl⟩ := owned event member
  rfl

theorem returnedOf_managed {outcome : CircuitBreaker.Outcome} {events : List (Event governedCalls)}
    (finished : m.Finished cancel outcome events) :
    (raised index events).filterMap returnedOf = [] := by
  rcases finished with rfl | rfl <;> rfl

/-- What the two wrappers do in a call: both end the stream, or neither does. -/
def Closes (g : Service.GatewayService (Routing.effects.sum fleet))
    (metered : Metered (Routing.effects.sum fleet)) (cancel : Nat) (m : Managed upstreamCalls)
    (returned : Returned) (first : List (Event governedCalls)) (closing : List (Event stack)) :
    Prop :=
  if returned.terminal then
    m.Finished cancel returned.outcome first ∧
      Finished g metered returned.status returned.errorCode closing
  else first = [] ∧ closing = []

/-- One call: the call upstream, the managed stream, the usage of the chunk and the metered
stream. -/
def Taken (g : Service.GatewayService (Routing.effects.sum fleet))
    (metered : Metered (Routing.effects.sum fleet)) (index cancel : Nat) (m : Managed upstreamCalls)
    (returned : Returned) (trace : List (Event stack)) : Prop :=
  ∃ called first closing, (raised index (Governance.passed [called])).filterMap returnedOf =
      [returned] ∧ Closes g metered cancel m returned first closing ∧
    trace = raised index (Governance.passed [called] ++ first) ++
      (noted metered returned.chunk ++ closing)

section Taken

variable {returned : Returned} (taken : Taken g metered index cancel m returned trace)
include taken

theorem Taken.heard : trace.filterMap returnedOf = [returned] := by
  obtain ⟨called, first, closing, asked, closes, rfl⟩ := taken
  have silent : (raised index first).filterMap returnedOf = [] ∧
      closing.filterMap returnedOf = [] := by
    unfold Closes at closes
    split at closes
    · exact ⟨returnedOf_managed closes.1, returnedOf_own closes.2.owned⟩
    · obtain ⟨rfl, rfl⟩ := closes
      exact ⟨rfl, rfl⟩
  rw [raised_append, List.filterMap_append, List.filterMap_append, List.filterMap_append, asked,
    silent.1, silent.2, returnedOf_own (Service.GatewayService.noted_owned _)]
  rfl

theorem Taken.calm (lasts : returned.terminal = false) :
    Service.GatewayService.panicIn trace = none := by
  obtain ⟨called, first, closing, -, closes, rfl⟩ := taken
  rw [Closes, lasts] at closes
  obtain ⟨-, rfl⟩ := closes
  rw [raised, Service.GatewayService.panicIn_passed, Service.GatewayService.panicIn_noted]
  rfl

theorem Taken.turned
    (kept : (memory (leaseOf index m cancel metered.stream).toRef).Answered
      ⟨spent, spent, usage⟩ trace) :
    Turned g metered (leaseOf index m cancel metered.stream) spent usage returned trace := by
  obtain ⟨called, first, closing, -, closes, rfl⟩ := taken
  have carried : returned.chunk.bind ChatStreamChunk.usage = returned.usage := by
    cases returned <;> rfl
  unfold Closes at closes
  split at closes <;> rename_i ends
  · obtain ⟨managed, finished⟩ := closes
    rw [raised_append, List.append_assoc, Protocol.answered_append, Protocol.answered_append,
      Protocol.answered_append, advance_upstream] at kept
    obtain ⟨-, keeps, -, shuts⟩ := kept
    obtain ⟨entered, discharged⟩ := managed_settles managed keeps
    rw [entered, advance_noted rfl, carried] at shuts
    obtain ⟨left, closed⟩ := metered_settles rfl finished shuts
    rw [Turned, raised_append, List.append_assoc, Protocol.advance_append, advance_upstream,
      Protocol.advance_append, entered, Protocol.advance_append, advance_noted rfl, carried, left,
      acts_append, acts_append, acts_append, acts_upstream, discharged, acts_noted, closed, ends]
    cases spent <;> exact ⟨rfl, rfl⟩
  · -- Neither `once` is entered.
    obtain ⟨rfl, rfl⟩ := closes
    rw [Turned, List.append_nil, List.append_nil, Protocol.advance_append, advance_upstream,
      advance_noted rfl, carried, acts_append, acts_upstream, acts_noted,
      Bool.eq_false_of_not_eq_true ends]
    cases spent <;> exact ⟨rfl, rfl⟩

end Taken

variable (inner : metered.inner = some (memberStream index name m))
  (cancels : m.cancel = some cancel) (wraps : m.inner = some (upstreamStream source label))
include inner cancels wraps

theorem recv_taken {exit : Exit Received} (runs : (g.metered metered).Recv.Runs trace exit) :
    ∃ received : Received, Taken g metered index cancel m (.received received.1 received.2) trace ∧
      exit = Service.GatewayService.concluded trace received := by
  obtain ⟨received, events, closing, heard, settled, rfl, rfl⟩ :=
    Service.GatewayService.recv_runs inner (Routing.memberStream_recv_returns cancels wraps) runs
  obtain ⟨calls, rfl, own⟩ := Routing.memberStream_recv_runs heard
  obtain ⟨_, within, first, replied, ends, rfl, same⟩ :=
    Governance.Managed.recv_runs cancels wraps upstream_recv_returns own
  cases same
  obtain ⟨_, rfl, same⟩ := upstream_recv_runs replied
  cases same
  refine ⟨received, ⟨⟨.recv source, received⟩, first, closing, rfl, ?_, rfl⟩, rfl⟩
  obtain ⟨chunk, err⟩ := received
  cases err with
  | none => exact ⟨ends, settled⟩
  | some err => exact ⟨ends, ended_finished settled⟩

theorem close_taken {exit : Exit (Option Err)} (runs : (g.metered metered).Close.Runs trace exit) :
    ∃ failed, Taken g metered index cancel m (.closed failed) trace ∧
      exit = Service.GatewayService.concluded trace failed := by
  obtain ⟨failed, events, closing, closed, settled, rfl, rfl⟩ :=
    Service.GatewayService.close_runs inner (Routing.memberStream_close_returns cancels wraps) runs
  obtain ⟨calls, rfl, own⟩ := Routing.memberStream_close_runs closed
  obtain ⟨_, within, first, replied, ends, rfl, same⟩ :=
    Governance.Managed.close_runs cancels wraps upstream_close_returns own
  cases same
  obtain ⟨_, rfl, same⟩ := upstream_close_runs replied
  cases same
  exact ⟨failed, ⟨⟨.close source, failed⟩, first, closing, rfl, ⟨ends, settled⟩, rfl⟩, rfl⟩

theorem invoke_taken {call : StreamCall} {exit : Exit Returned}
    (runs : ((g.metered metered).invoke call).Runs trace exit) :
    ∃ returned, Taken g metered index cancel m returned trace ∧
      exit = Service.GatewayService.concluded trace returned := by
  cases call with
  | recv =>
      obtain ⟨first, heard, rfl⟩ := runs.unmap
      obtain ⟨received, taken, rfl⟩ := recv_taken inner cancels wraps heard
      exact ⟨_, taken, Service.GatewayService.concluded_map _ _⟩
  | close =>
      obtain ⟨first, closed, rfl⟩ := runs.unmap
      obtain ⟨failed, taken, rfl⟩ := close_taken inner cancels wraps closed
      exact ⟨_, taken, Service.GatewayService.concluded_map _ _⟩

theorem turns_told {turns : List Turn}
    (each : ∀ turn ∈ turns, ((g.metered metered).invoke turn.call).Runs turn.events turn.exit ∧
      turn.events.filterMap returnedOf = [turn.returned])
    (kept : (memory (leaseOf index m cancel metered.stream).toRef).Answered ⟨spent, spent, usage⟩
      (turns.flatMap Turn.events)) :
    (∀ turn ∈ turns, turn.On (g.metered metered)) ∧
      Story g metered (leaseOf index m cancel metered.stream) spent usage turns := by
  -- The fields the first call leaves are those the rest starts from.
  induction turns generalizing spent usage with
  | nil => exact ⟨List.forall_mem_nil _, trivial⟩
  | cons turn turns ih =>
      obtain ⟨⟨runs, heard⟩, rest⟩ := List.forall_mem_cons.mp each
      obtain ⟨keeps, remains⟩ := Protocol.answered_append.mp kept
      obtain ⟨returned, taken, concludes⟩ := invoke_taken inner cancels wraps runs
      obtain rfl : returned = turn.returned := List.singleton_inj.mp (taken.heard.symm.trans heard)
      have turned := taken.turned keeps
      rw [turned.1] at remains
      obtain ⟨on, story⟩ := ih rest remains
      exact ⟨List.forall_mem_cons.mpr ⟨⟨runs, heard, concludes⟩, on⟩, turned, story⟩

theorem drive_heard (calls : List StreamCall) {exit : Exit (List (Exit Returned))}
    (runs : ((g.metered metered).drive calls).Runs trace exit) :
    ∃ turns : List Turn, turns.map Turn.call = calls ∧ trace = turns.flatMap Turn.events ∧
      exit = .returned (turns.map Turn.exit) ∧ ∀ turn ∈ turns,
        ((g.metered metered).invoke turn.call).Runs turn.events turn.exit ∧
          turn.events.filterMap returnedOf = [turn.returned] := by
  induction calls generalizing trace exit with
  | nil =>
      obtain ⟨rfl, rfl⟩ := Program.runs_done.mp runs
      exact ⟨[], rfl, rfl, rfl, List.forall_mem_nil _⟩
  | cons call calls ih =>
      rcases runs.bind with ⟨events, rest, first, rfl, caught, goes⟩ | ⟨reason, stuck, -⟩
      case inr =>
        obtain ⟨_, impossible, -⟩ := stuck.caught
        cases impossible
      obtain ⟨_, same, invoked⟩ := caught.caught
      cases same
      obtain ⟨returned, taken, -⟩ := invoke_taken inner cancels wraps invoked
      obtain ⟨results, drives, rfl⟩ := goes.unmap
      obtain ⟨turns, called, rfl, rfl, each⟩ := ih drives
      refine ⟨⟨call, returned, first, events⟩ :: turns, congrArg (call :: ·) called, rfl, rfl, ?_⟩
      exact List.forall_mem_cons.mpr ⟨⟨invoked, taken.heard⟩, each⟩

theorem drive_turns (calls : List StreamCall) {exit : Exit (List (Exit Returned))}
    (runs : ((g.metered metered).drive calls).Runs trace exit)
    (kept : (memory (leaseOf index m cancel metered.stream).toRef).Answered
      ⟨spent, spent, usage⟩ trace) :
    ∃ turns : List Turn, turns.map Turn.call = calls ∧ trace = turns.flatMap Turn.events ∧
    exit = .returned (turns.map Turn.exit) ∧ (∀ turn ∈ turns, turn.On (g.metered metered)) ∧
    Story g metered (leaseOf index m cancel metered.stream) spent usage turns := by
  obtain ⟨turns, called, rfl, exits, each⟩ := drive_heard inner cancels wraps calls runs
  exact ⟨turns, called, rfl, exits, turns_told inner cancels wraps each kept⟩

end Calls

/-! The story of a stream -/

section Told

open Service.GatewayService (Metered)

variable {g : Service.GatewayService (Routing.effects.sum fleet)}
  {metered : Metered (Routing.effects.sum fleet)} {lease : Lease} {usage : ChatUsage}
  {turns : List Turn}

theorem Story.spent (story : Story g metered lease true usage turns) :
    ∀ turn ∈ turns, acts turn.events = [] := by
  induction turns generalizing usage with
  | nil => exact List.forall_mem_nil _
  | cons turn turns ih => exact List.forall_mem_cons.mpr ⟨story.1.2, ih story.2⟩

theorem Story.quiet (story : Story g metered lease false usage turns)
    (lasts : ∀ turn ∈ turns, turn.returned.terminal = false) :
    ∀ turn ∈ turns, acts turn.events = [] := by
  induction turns generalizing usage with
  | nil => exact List.forall_mem_nil _
  | cons turn turns ih =>
      obtain ⟨first, rest⟩ := List.forall_mem_cons.mp lasts
      obtain ⟨⟨-, silent⟩, story⟩ := story
      rw [first] at silent story
      exact List.forall_mem_cons.mpr ⟨silent, ih story rest⟩

theorem lastUsage_cons (returned : Returned) (returns : List Returned) :
    lastUsage usage (returned :: returns) = lastUsage (returned.usage.getD usage) returns := by
  unfold lastUsage
  cases carried : returned.usage with
  | none => rw [List.filterMap_cons_none carried, Option.getD_none]
  | some latest =>
      rw [List.filterMap_cons_some carried, List.getLast?_cons, Option.getD_some, Option.getD_some]

theorem Story.settles {before after : List Turn} {last : Turn}
    (story : Story g metered lease false usage (before ++ last :: after))
    (lasts : ∀ turn ∈ before, turn.returned.terminal = false)
    (ends : last.returned.terminal = true) :
    (∀ turn ∈ before ++ after, acts turn.events = []) ∧
      acts last.events = settlement g.options.recorder lease last.returned.outcome
        (metered.record last.returned.status last.returned.errorCode
          (lastUsage usage ((before ++ [last]).map Turn.returned))) := by
  induction before generalizing usage with
  | nil =>
      obtain ⟨⟨-, settled⟩, story⟩ := story
      rw [ends] at settled story
      refine ⟨story.spent, ?_⟩
      rw [List.nil_append, List.map_singleton, lastUsage_cons]
      exact settled
  | cons turn before ih =>
      obtain ⟨first, rest⟩ := List.forall_mem_cons.mp lasts
      obtain ⟨⟨-, silent⟩, story⟩ := story
      rw [first] at silent story
      obtain ⟨others, settled⟩ := ih story rest
      rw [List.cons_append, List.cons_append, List.map_cons, lastUsage_cons]
      exact ⟨List.forall_mem_cons.mpr ⟨silent, others⟩, settled⟩

end Told

/-! The request up to the stream -/

/-- The events that gave a stream what it holds. -/
def Lease.Opened (lease : Lease) (early : List (Event stack)) : Prop :=
  (raised lease.index [Governance.own .acquire (.ok lease.slot),
      Governance.own .allow (some lease.circuit), Governance.own (.retry .withTimeout) lease.cancel,
      Governance.own (.newStream lease.circuit lease.slot (some lease.cancel)) lease.once] ++
    [Service.GatewayService.own .newStream lease.cell]).Sublist early

/-- Nothing of the stream itself: a failed attempt is cancelled, or another target gives
back what it holds. -/
def Act.Elsewhere (index : Nat) : Act → Prop
  | .cancelledAttempt _ _ => True
  | .completed target _ _ | .released target _ => target ≠ index
  | .cancelledRequest | .recorded _ | .observed _ _ => False

section Early

variable {members : List (Member × Int)} {request : ChatRequest} {index : Nat} {act : Act}

theorem governedAct_elsewhere {target : Nat} (other : target ≠ index) {event : Event governedCalls}
    (done : governedAct target event = some act) : act.Elsewhere index := by
  unfold governedAct at done
  split at done <;> cases done
  · trivial
  · exact other
  · exact other

theorem earlier_elsewhere
    {ask : Member → Program governedCalls (Except Err (Option (Stream governedCalls)))}
    {event : Event (Routing.effects.sum fleet)} (earlier : Earlier members ask index event)
    (done : behind memberAct event = some act) : act.Elsewhere index := by
  cases earlier with
  | own op reply => cases done
  | asked target available => cases done
  | visited other located runs member => exact governedAct_elsewhere other done

theorem retried_elsewhere {events : List (Event (Retry.effects.sum upstreamCalls))} :
    ∀ act ∈ (Governance.retried events).filterMap (governedAct index), act.Elsewhere index := by
  intro act member
  obtain ⟨event, among, done⟩ := List.mem_filterMap.mp member
  obtain ⟨⟨op, reply⟩, -, rfl⟩ := List.mem_map.mp among
  cases op with
  | inr op => cases done
  | inl op =>
      cases op with
      | cancel cancel =>
          cases done
          trivial
      | _ => cases done

theorem acts_passed (events : List (Event (Routing.effects.sum fleet))) :
    acts (Service.GatewayService.passed events) = events.filterMap (behind memberAct) := by
  rw [acts, Service.GatewayService.passed, List.filterMap_map]
  rfl

theorem memberAct_lift (events : List (Event governedCalls)) :
    (events.map (lift index)).filterMap (behind memberAct) =
      events.filterMap (governedAct index) := by
  rw [List.filterMap_map]
  rfl

variable {m : Managed upstreamCalls} {cancel cell : Nat} {passing : List (Event stack)}
  {before : List (Event (Routing.effects.sum fleet))}
  {events : List (Event (Retry.effects.sum upstreamCalls))}

/-- A request up to the stream it returns. -/
def opening (index : Nat) (m : Managed upstreamCalls) (cell : Nat) (passing : List (Event stack))
    (before : List (Event (Routing.effects.sum fleet)))
    (events : List (Event (Retry.effects.sum upstreamCalls))) : List (Event stack) :=
  passing ++ (Service.GatewayService.passed
    (before ++ (Governance.admitted m.concurrency m.circuit ++ Governance.retried events ++
        [Governance.own (.newStream m.circuit m.concurrency m.cancel) m.once]).map (lift index)) ++
    [Service.GatewayService.own .newStream cell])

theorem opening_elsewhere (passes : Service.GatewayService.Passing passing)
    (earlier : ∀ event ∈ before, Earlier members (fun p => p.ChatStream request) index event) :
    ∀ act ∈ acts (opening index m cell passing before events), act.Elsewhere index := by
  have early : ∀ act ∈ before.filterMap (behind memberAct), act.Elsewhere index := by
    intro act member
    obtain ⟨event, among, done⟩ := List.mem_filterMap.mp member
    exact earlier_elsewhere (earlier event among) done
  have silent (event : Event governedCalls) (none' : governedAct index event = none) :
      [event].filterMap (governedAct index) = [] := List.filterMap_cons_none none'
  have admits : (Governance.admitted m.concurrency m.circuit).filterMap (governedAct index) = [] :=
    rfl
  rw [opening, acts_append, acts_append, acts_passing passes, acts_passed, List.filterMap_append,
    memberAct_lift, List.filterMap_append, List.filterMap_append, admits, silent _ rfl]
  intro act member
  rcases List.mem_append.mp member with nothing | later
  · exact absurd nothing List.not_mem_nil
  · rcases List.mem_append.mp later with during | nothing
    · rw [List.nil_append, List.append_nil] at during
      exact (List.mem_append.mp during).elim (early act) (retried_elsewhere act)
    · exact absurd nothing List.not_mem_nil

theorem opening_opened (cancels : m.cancel = some cancel)
    (created : Retry.own .withTimeout cancel ∈ events) :
    (leaseOf index m cancel cell).Opened (opening index m cell passing before events) := by
  have attempt : [Governance.own (.retry .withTimeout) cancel].Sublist
      (Governance.retried events) :=
    List.singleton_sublist.mpr (List.mem_map_of_mem created)
  have calls : ([Governance.own .acquire (.ok m.concurrency),
          Governance.own .allow (some m.circuit)] ++
        [Governance.own (.retry .withTimeout) cancel] ++
        [Governance.own (.newStream m.circuit m.concurrency (some cancel)) m.once]).Sublist
      (Governance.admitted m.concurrency m.circuit ++ Governance.retried events ++
        [Governance.own (.newStream m.circuit m.concurrency m.cancel) m.once]) := by
    rw [cancels]
    exact ((List.Sublist.refl _).append attempt).append (.refl _)
  have raises := (calls.map (lift index)).trans (List.sublist_append_right before _)
  exact ((raises.map _).append (.refl _)).trans (List.sublist_append_right passing _)

end Early

/-! Streams of a gateway over a router of governed providers -/

/-- The first call that ends the stream settles the request, and no other call does
anything. A call that does nothing returns what upstream returned. -/
structure SettledOnce (recorder : Bool) (lease : Lease) (requestID provider model : String)
    (turns : List Turn) : Prop where
  returns : ∀ turn ∈ turns, acts turn.events = [] → turn.exit = .returned turn.returned
  quiet : (∀ turn ∈ turns, turn.returned.terminal = false) → ∀ turn ∈ turns, acts turn.events = []
  settles : ∀ before last after, turns = before ++ last :: after →
    (∀ turn ∈ before, turn.returned.terminal = false) → last.returned.terminal = true →
    (∀ turn ∈ before ++ after, acts turn.events = []) ∧
    ∃ outcome record, acts last.events = settlement recorder lease outcome record ∧
    (outcome = .success ↔ last.returned.eof = true) ∧
    (record.status = .succeeded ↔ last.returned.eof = true) ∧
    record.usage = lastUsage .zero ((before ++ [last]).map Turn.returned) ∧
    record.requestID = requestID ∧ record.provider = provider ∧ record.model = model

theorem Turn.On.returns {stream : Stream stack} {turn : Turn} (on : turn.On stream)
    (silent : acts turn.events = []) : turn.exit = .returned turn.returned := by
  rw [on.concludes]
  apply Service.GatewayService.concluded_calm
  rw [Service.GatewayService.panicIn, List.findSome?_eq_none_iff]
  rintro ⟨op, reply⟩ member
  have unseen := List.filterMap_eq_nil_iff.mp silent _ member
  unfold Service.GatewayService.panicOf
  split
  · rename_i same
    cases same
    cases unseen
  · rfl

theorem Story.settledOnce {g : Service.GatewayService (Routing.effects.sum fleet)}
    {metered : Service.GatewayService.Metered (Routing.effects.sum fleet)} {lease : Lease}
    {turns : List Turn} (on : ∀ turn ∈ turns, turn.On (g.metered metered))
    (story : Story g metered lease false .zero turns) :
    SettledOnce g.options.recorder lease metered.requestID metered.provider metered.model
      turns := by
  refine ⟨fun turn member silent => (on turn member).returns silent, story.quiet, ?_⟩
  rintro before last after rfl lasts ends
  obtain ⟨others, settled⟩ := story.settles lasts ends
  exact ⟨others, _, _, settled, Returned.outcome_success ends, last.returned.status_succeeded, rfl,
    rfl, rfl, rfl⟩

/-- Whatever its client calls, a stream settles its request once, at its first terminal event. -/
theorem stream_settles_once {quote : String → String} {strategy : Routing.Strategy}
    {members : List (Member × Int)} {r : Routing.Router fleet}
    (made : Routing.New quote strategy (Routing.fleetOf members) = .ok r)
    (built : ∀ entry ∈ members, Routing.Built entry.1)
    {g : Service.GatewayService (Routing.effects.sum fleet)} (asked : g.chat = r.provider)
    {req : ChatRequest} {metadata : Service.RequestMetadata} {early : List (Event stack)}
    {result : Service.StreamResult (Routing.effects.sum fleet)}
    (opened : (g.ChatStream req metadata).Runs early (.returned (.ok result))) :
    ∃ lease : Lease, lease.Opened early ∧ (∀ act ∈ acts early, act.Elsewhere lease.index) ∧
    ∀ (calls : List StreamCall) (late : List (Event stack)) (exit : Exit (List (Exit Returned))),
    (result.stream.drive calls).Runs late exit → (memory lease.toRef).Answered .zero late →
    ∃ turns : List Turn, turns.map Turn.call = calls ∧ late = turns.flatMap Turn.events ∧
    exit = .returned (turns.map Turn.exit) ∧ (∀ turn ∈ turns, turn.On result.stream) ∧
    SettledOnce g.options.recorder lease result.requestID result.provider req.model turns := by
  obtain ⟨metered, passing, during, opens, passes, rfl, wraps, describes⟩ :=
    Service.GatewayService.chatStream_opens opened
  rw [asked] at opens
  obtain ⟨index, name, m, source, cancel, label, before, events, inner, upstream', cancels, created,
    earlier, -, rfl⟩ :=
    Routing.chatStream_opens made built opens
  refine ⟨leaseOf index m cancel metered.stream, opening_opened cancels created,
    opening_elsewhere passes earlier, ?_⟩
  intro calls late exit drives kept
  rw [wraps] at drives ⊢
  obtain ⟨turns, called, whole, exits, each, story⟩ :=
    drive_turns inner cancels upstream' calls drives kept
  refine ⟨turns, called, whole, exits, each, ?_⟩
  obtain ⟨id, provider, model⟩ : metered.requestID = result.requestID ∧
      metered.provider = result.provider ∧ metered.model = req.model := by
    simpa using describes
  rw [← id, ← provider, ← model]
  exact story.settledOnce each

/-! One target, and a stream with a usage that is closed after its end -/

section Sample

open SseStream (sampleChunk)

def soleMembers : List (Member × Int) := [(⟨"sole", upstream, ⟨⟨1, 1, 1, 1, false⟩⟩⟩, 1)]

def soleRouter : Routing.Router fleet :=
  ⟨.roundRobin, soleMembers.zipIdx.map fun entry =>
    ⟨Routing.governedTarget entry.2 entry.1.1, entry.1.2⟩⟩

def soleGateway : Service.GatewayService (Routing.effects.sum fleet) :=
  Service.NewGatewayService Service.sampleCodec soleRouter.provider
    ⟨false, false, false, false, true, "gateway"⟩

def streamRequest : ChatRequest := ⟨"m", [⟨"user", "hello"⟩], none, none, none, true⟩

def streamMetadata : Service.RequestMetadata := ⟨[], "", "id"⟩

def soleRef : Ref := ⟨0, 0, 0, 0⟩

def ofRouter (op : Routing.Effect) (reply : Routing.effects.Reply op) : Event stack :=
  ⟨.inr (.inl op), reply⟩

def ofMember (op : Governance.Effect) (reply : Governance.effects.Reply op) : Event stack :=
  ⟨.inr (.inr (0, .inl op)), reply⟩

def ofUpstream (op : Call) (reply : upstreamCalls.Reply op) : Event stack :=
  ⟨.inr (.inr (0, .inr op)), reply⟩

def ofGateway (op : Service.Effect) (reply : Service.effects.Reply op) : Event stack :=
  ⟨.inl op, reply⟩

def soleOpening : List (Event stack) :=
  [ofRouter .lock ⟨0, [0]⟩, ofMember .available true, ofRouter (.unlock ⟨0, [0]⟩) (),
    ofMember .acquire (.ok 0), ofMember .allow (some 0), ofMember (.retry .ctxErr) none,
    ofMember (.retry .withTimeout) (0 : Nat), ofUpstream (.chatStream streamRequest)
    (.ok (some (0, none))), ofMember (.retry (.onAttempt 1 none)) (),
    ofMember (.newStream 0 0 (some 0)) (0 : Nat), ofGateway .newStream (0 : Nat)]

def soleClose : List (Event stack) :=
  [ofUpstream (.close 0) none, ofMember (.enterOnce 0) false, ofGateway (.enterOnce 0) false]

def soleResult : Service.StreamResult (Routing.effects.sum fleet) :=
  ⟨soleGateway.metered
    ⟨some (memberStream 0 "sole" ⟨"sole", some (upstreamStream 0 none), 0, 0, some 0, 0⟩), 0, "id",
      "sole", "m"⟩, "id", "sole", Service.GatewayService.unlimited⟩

theorem soleOpening_runs : (soleGateway.ChatStream streamRequest streamMetadata).Runs soleOpening
    (.returned (.ok soleResult)) := by
  repeat' apply Program.Leads.step
  exact .refl _

theorem soleMembers_built : ∀ entry ∈ soleMembers, Routing.Built entry.1 := by
  intro entry member
  obtain rfl := List.mem_singleton.mp member
  exact ⟨"sole", _, ⟨1, 1, 1, 1, false⟩, rfl, rfl⟩

def usedChunk (usage : ChatUsage) : ChatStreamChunk := { sampleChunk with usage := some usage }

/-- The call of `Recv` that finds the end, with what the observer does. -/
def soleEnd (usage : ChatUsage) (panicked : Option String) : List (Event stack) :=
  [ofUpstream (.recv 0) (none, some .eof), ofMember (.enterOnce 0) true,
    ofMember (.retry (.cancel 0)) (), ofMember (.done 0 .success) (), ofMember (.release 0) (),
    ofMember (.leaveOnce 0) (), ofGateway (.enterOnce 0) true, ofGateway .cancel (),
    ofGateway (.loadUsage 0) usage,
    ofGateway (.record ⟨"id", "sole", "m", .succeeded, usage, .bypass, ""⟩) none,
    ofGateway (.observeTokens "sole" usage) panicked, ofGateway (.leaveOnce 0) ()]

def soleCalls (usage : ChatUsage) (panicked : Option String) : List (Event stack) :=
  [ofUpstream (.recv 0) (some (usedChunk usage), none), ofGateway (.storeUsage 0 usage) ()] ++
    (soleEnd usage panicked ++ soleClose)

def soleExits (usage : ChatUsage) (panicked : Option String) : List (Exit Returned) :=
  [.returned (.received (some (usedChunk usage)) none),
    panicked.elim (.returned (.received none (some .eof))) .aborted, .returned (.closed none)]

theorem soleCalls_runs (usage : ChatUsage) (panicked : Option String) :
    (soleResult.stream.drive [.recv, .recv, .close]).Runs (soleCalls usage panicked)
      (.returned (soleExits usage panicked)) := by
  cases panicked <;>
  · repeat' apply Program.Leads.step
    exact .refl _

theorem soleCalls_answered (usage : ChatUsage) (panicked : Option String) (ref : Ref) :
    (memory ref).Answered .zero (soleCalls usage panicked) := by
  obtain ⟨index, circuit, once, cell⟩ := ref
  cases index <;> cases once <;> cases cell <;>
    simp [soleCalls, soleEnd, soleClose, memory, Protocol.Answered, Fields.Answers, Fields.after,
      Fields.zero, ofUpstream, ofMember, ofGateway]

theorem stream_settles_once_sole : acts (soleCalls ⟨1, 2, 3⟩ none) =
      settlement true ⟨soleRef, 0, 0⟩ .success ⟨"id", "sole", "m", .succeeded, ⟨1, 2, 3⟩, .bypass,
      ""⟩ ∧ ∃ (lease : Lease) (turns : List Turn), lease.Opened soleOpening ∧
    soleCalls ⟨1, 2, 3⟩ none = turns.flatMap Turn.events ∧
    SettledOnce true lease "id" "sole" "m" turns := by
  have made : Routing.New id .roundRobin (Routing.fleetOf soleMembers) = .ok soleRouter := rfl
  obtain ⟨lease, opened, -, settles⟩ :=
    stream_settles_once made soleMembers_built (g := soleGateway) rfl soleOpening_runs
  obtain ⟨turns, -, whole, -, -, once⟩ :=
    settles _ _ _ (soleCalls_runs _ _) (soleCalls_answered _ _ lease.toRef)
  exact ⟨rfl, lease, turns, opened, whole, once⟩

end Sample

end ModelGate.Api
