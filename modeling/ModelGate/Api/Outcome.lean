import ModelGate.Api.RoundTrip
import ModelGate.Metrics.Tokens

/-! What a client, the usage record and the breaker are told about a stream.

The handler, the metered stream and the managed stream each decide what the end
of a stream means. After the last two have, the observer of the tokens may panic
and the handler does not get to its part.
-/

set_option autoImplicit false

namespace ModelGate.Api

open Data Semantics Provider
open Routing (fleet Member memberStream)
open Governance (Managed)
open Service (RecordStatus RequestRecord)
open Service.GatewayService (Metered concluded panicIn)

variable {S : Signature}

/-! The response -/

section Response

def statusOf : Event (effects.sum S) → Option Nat
  | ⟨.inl (.status code), _⟩ => some code
  | ⟨.inl (.json status _ _ _), _⟩ => some status
  | _ => none

def statuses (trace : List (Event (effects.sum S))) : List Nat := trace.filterMap statusOf

@[simp] theorem statuses_append (first rest : List (Event (effects.sum S))) :
    statuses (first ++ rest) = statuses first ++ statuses rest := List.filterMap_append

@[simp] theorem statuses_passed (events : List (Event S)) : statuses (passed events) = [] := by
  rw [statuses, passed, List.filterMap_map]
  exact List.filterMap_eq_nil_iff.mpr fun _ _ => rfl

@[simp] theorem statuses_headed (headers : List (String × String)) :
    statuses (S := S) (headed headers) = [] := by
  rw [statuses, headed, List.filterMap_map]
  exact List.filterMap_eq_nil_iff.mpr fun _ _ => rfl

theorem statuses_refused (err : Err) :
    statuses (S := S) (refused err) = [(writeMappedError err).status] := by
  rw [refused, statuses_append, statuses_headed]
  rfl

@[simp] theorem statuses_follow (codec : ChunkCodec) (exit : Exit Received) :
    statuses (S := S) (follow codec exit) = [] := by
  match exit with
  | .returned (_, none) | .aborted _ => rfl
  | .returned (_, some err) =>
      rw [follow]
      split <;> rfl

theorem statuses_heard (codec : ChunkCodec) (through : List (Heard S)) :
    statuses (through.flatMap (Heard.trace codec)) = [] := by
  induction through with
  | nil => rfl
  | cons h through ih =>
      rw [List.flatMap_cons, statuses_append, ih, Heard.trace, statuses_append, statuses_passed,
        statuses_follow]
      rfl

theorem upstream_error_status (headers : List (String × String)) (code : String) :
    400 ≤ (writeUpstreamError headers code).status := by
  unfold writeUpstreamError
  repeat' split
  all_goals exact Nat.le_of_ble_eq_true rfl

theorem mapped_error_status (err : Err) : 400 ≤ (writeMappedError err).status := by
  unfold writeMappedError
  repeat' split
  all_goals first | exact upstream_error_status _ _ | exact Nat.le_of_ble_eq_true rfl

/-- Without a chunk the response is no success, and there is none after a panic. -/
theorem statuses_unheard (exit : Exit Received) : statuses (S := S) (unheard exit) ≠ [200] := by
  match exit with
  | .returned (_, none) | .aborted _ => exact nofun
  | .returned (_, some err) =>
      have high := mapped_error_status (firstError err)
      rw [unheard, statuses_refused]
      intro same
      rw [List.singleton_inj.mp same] at high
      omega

theorem statuses_story {codec : ChunkCodec} {through : List (Heard S)} {final : Heard S}
    {closing : List (Event S)}
    {headers : List (String × String)} :
    statuses (headed headers ++ (told codec through ++ ending codec final through) ++
      passed closing) =
      if through = [] then statuses (S := S) (unheard final.exit) else [200] := by
  cases through with
  | nil =>
      rw [told, ending]
      simp
  | cons first more =>
      have commits (tail : List (Event (effects.sum S))) :
          statuses (own (.status 200) () :: tail) = 200 :: statuses tail := rfl
      rw [told, ending]
      simp [commits, statuses_heard, Heard.trace]

end Response

/-- A payload of a chunk ends as an object does. -/
def Closed (codec : ChunkCodec) (chunks : List ChatStreamChunk) : Prop :=
  ∀ chunk ∈ chunks, (codec.marshal (some chunk)).getLast? = some 125

theorem chunks_not_done {codec : ChunkCodec} {chunks : List ChatStreamChunk}
    (closed : Closed codec chunks) (some' : chunks ≠ []) :
    ¬sseDone <:+ body codec chunks false := by
  intro ends
  have split : chunks = chunks.dropLast ++ [chunks.getLast some'] :=
    (List.dropLast_append_getLast some').symm
  obtain ⟨payload, object⟩ := List.getLast?_eq_some_iff.mp (closed _ (List.getLast_mem some'))
  generalize chunks.getLast some' = last at split object
  have tail : body codec chunks false =
      chunks.dropLast.flatMap (fun chunk => sseChunk codec (some chunk)) ++
      (utf8 "data: " ++ payload) ++ [125, 10, 10] := by
    rw [body, split, List.flatMap_append, List.dropLast_concat]
    simp only [Bool.false_eq_true, if_false, List.append_nil, List.flatMap_cons, List.flatMap_nil,
      sseChunk, object,
      show utf8 "\n\n" = [10, 10] by decide, List.append_assoc, List.cons_append, List.nil_append]
  have done : sseDone = utf8 "data: [DONE" ++ [93, 10, 10] := by decide
  -- Read from the back, an object ends in a brace where the last event has a bracket.
  rw [← List.reverse_prefix, tail, done, List.reverse_append, List.reverse_append] at ends
  obtain ⟨-, second⟩ := List.cons_prefix_cons.mp ends
  obtain ⟨-, third⟩ := List.cons_prefix_cons.mp second
  obtain ⟨same, -⟩ := List.cons_prefix_cons.mp third
  exact absurd same (by decide)

/-! The three accounts of one stream -/

def below (trace : List (Event (effects.sum S))) : List (Event S) := trace.filterMap (behind some)

@[simp] theorem below_append (first rest : List (Event (effects.sum S))) :
    below (first ++ rest) = below first ++ below rest :=
  List.filterMap_append

@[simp] theorem below_passed (events : List (Event S)) : below (passed events) = events := by
  rw [below, behind_relayed]
  exact List.filterMap_some

def Act.recorded? : Act → Option RecordStatus
  | .recorded record => some record.status
  | _ => none

def Act.completed? (lease : Lease) : Act → Option CircuitBreaker.Outcome
  | .completed target permit outcome =>
      if target = lease.index ∧ permit = lease.circuit then some outcome else none
  | _ => none

def records (trace : List (Event (effects.sum stack))) : List RecordStatus :=
  (acts (below trace)).filterMap Act.recorded?

def completions (lease : Lease) (trace : List (Event (effects.sum stack))) :
    List CircuitBreaker.Outcome :=
  (acts (below trace)).filterMap (Act.completed? lease)

/-- The client sees a stream that ended as it should. -/
def Answered (trace : List (Event (effects.sum stack))) : Prop :=
  statuses trace = [200] ∧ sseDone <:+ written trace

/-- The record and the breaker say what the client sees. -/
def Agrees (lease : Lease) (trace : List (Event (effects.sum stack))) : Prop :=
  (records trace = [.succeeded] ∧ completions lease trace = [.success] ↔ Answered trace) ∧
    (¬Answered trace → records trace = [.failed])

theorem elsewhere_silent {lease : Lease} {before : List Act}
    (elsewhere : ∀ act ∈ before, act.Elsewhere lease.index) :
    before.filterMap Act.recorded? = [] ∧ before.filterMap (Act.completed? lease) = [] := by
  constructor <;> rw [List.filterMap_eq_nil_iff] <;> intro act member
  · have other := elsewhere act member
    cases act with
    | recorded record => cases other
    | _ => rfl
  · have other := elsewhere act member
    cases act with
    | completed target permit outcome => exact if_neg fun same => other same.1
    | _ => rfl

theorem accounts_settled {lease : Lease} {early : List (Event stack)}
    {late : List (Event (effects.sum stack))} {outcome : CircuitBreaker.Outcome}
    {record : RequestRecord} (elsewhere : ∀ act ∈ acts early, act.Elsewhere lease.index)
    (settled : acts (below late) = settlement true lease outcome record) :
    records (passed early ++ late) = [record.status] ∧
    completions lease (passed early ++ late) = [outcome] := by
  have completes : Act.completed? lease (.completed lease.index lease.circuit outcome) =
    some outcome := if_pos ⟨rfl, rfl⟩
  obtain ⟨unrecorded, uncompleted⟩ := elsewhere_silent elsewhere
  rw [records, completions, below_append, below_passed, acts_append, List.filterMap_append,
    List.filterMap_append, unrecorded, uncompleted, settled]
  refine ⟨rfl, ?_⟩
  rw [settlement, discharge, List.cons_append, List.filterMap_cons_none rfl, List.cons_append,
    List.filterMap_cons_some completes]
  rfl

/-- What the three accounts come to, by how the stream ended and whether the handler got to
write its end. -/
theorem agrees_iff {codec : ChunkCodec} {lease : Lease} {trace : List (Event (effects.sum stack))}
    {chunks : List ChatStreamChunk} (closed : Closed codec chunks) (eof calm : Bool)
    {outcome : CircuitBreaker.Outcome}
    (recorded : records trace = [if eof then .succeeded else .failed])
    (completed : completions lease trace = [outcome]) (means : outcome = .success ↔ eof = true)
    (refused : chunks = [] → statuses trace ≠ [200])
    (committed : chunks ≠ [] → statuses trace = [200] ∧
      written trace = body codec chunks (eof && calm)) :
    Agrees lease trace ↔ (eof = true → chunks ≠ [] ∧ calm = true) := by
  have done : Answered trace ↔ chunks ≠ [] ∧ eof = true ∧ calm = true := by
    by_cases empty : chunks = []
    · exact iff_of_false (fun answered => refused empty answered.1) fun answered => answered.1 empty
    · obtain ⟨ok, content⟩ := committed empty
      rw [Answered, content]
      cases whole : eof && calm with
      | false =>
          refine iff_of_false (fun answered => chunks_not_done closed empty answered.2)
            fun answered => ?_
          rw [answered.2.1, answered.2.2] at whole
          cases whole
      | true => exact iff_of_true ⟨ok, List.suffix_append _ _⟩ ⟨empty, by simpa using whole⟩
  rw [Agrees, recorded, completed, done, List.singleton_inj, List.singleton_inj,
    List.singleton_inj, means]
  cases eof <;> simp

/-! The handler over the whole stack -/

def receivedIn (event : Event stack) : Option Received :=
  (returnedOf event).bind fun
    | .received chunk err => some (chunk, err)
    | .closed _ => none

def finalUsage (chunks : List ChatStreamChunk) (last : Option ChatStreamChunk) : ChatUsage :=
  ((chunks ++ last.toList).filterMap ChatStreamChunk.usage).getLast?.getD .zero

theorem lastUsage_script (chunks : List ChatStreamChunk) (last : Option ChatStreamChunk)
    (err : Err) :
    lastUsage .zero ((script chunks last err).map fun received => .received received.1 received.2) =
      finalUsage chunks last := by
  rw [lastUsage, finalUsage, script, List.map_append, List.filterMap_append, List.filterMap_append,
    List.map_map, List.filterMap_map]
  cases last <;> rfl

theorem receivedIn_eq {events : List (Event stack)} {received : Received}
    (heard : events.filterMap returnedOf = [.received received.1 received.2]) :
    events.filterMap receivedIn = [received] := by
  have twice := List.filterMap_filterMap (f := returnedOf) (g := fun
    | .received chunk err => some (chunk, err)
    | .closed _ => none) (l := events)
  rw [heard] at twice
  exact twice.symm

def turnOf (call : StreamCall) (events : List (Event stack)) (exit : Exit Returned) : Turn :=
  ⟨call, (events.filterMap returnedOf).headD (.closed none), exit, events⟩

/-- A call of `Recv` by the handler as one of a client. -/
def Heard.turn (h : Heard stack) : Turn :=
  turnOf .recv h.events (h.exit.map fun received => .received received.1 received.2)

theorem acts_turns {before after : List Turn} {last : Turn}
    (others : ∀ turn ∈ before ++ after, acts turn.events = []) :
    acts ((before ++ last :: after).flatMap Turn.events) = acts last.events := by
  obtain ⟨early, late⟩ := List.forall_mem_append.mp others
  have silent {turns : List Turn} (each : ∀ turn ∈ turns, acts turn.events = []) :
      acts (turns.flatMap Turn.events) = [] := by
    rw [acts, List.filterMap_flatMap]
    exact List.flatMap_eq_nil_iff.mpr each
  rw [List.flatMap_append, List.flatMap_cons, acts_append, acts_append, silent early, silent late,
    List.nil_append, List.append_nil]

theorem concluded_settled {α : Type} {recorder : Bool} {lease : Lease}
    {outcome : CircuitBreaker.Outcome}
    {record : RequestRecord} {events : List (Event stack)} (observes : Metrics.Observes events)
    (settled : acts events = settlement recorder lease outcome record) (value : α) :
    concluded events value =
      if Metrics.NonNegative record.usage then .returned value
      else .aborted Metrics.decreasePanic := by
  have counted : Metrics.observed events = [record.usage] := by
    rw [Metrics.observed_acts, settled]
    exact Metrics.settlement_observed
  rw [concluded, Metrics.panicIn_observes observes, counted]
  simp only [List.forall_mem_singleton]
  by_cases counts : Metrics.NonNegative record.usage
  · rw [if_pos counts, if_pos counts]
  · rw [if_neg counts, if_neg counts]

section Handled

variable {g : Service.GatewayService (Routing.effects.sum fleet)}
  {metered : Metered (Routing.effects.sum fleet)} {index cancel source : Nat} {name : String}
  {label : Option String} {m : Managed upstreamCalls}
  (inner : metered.inner = some (memberStream index name m)) (cancels : m.cancel = some cancel)
  (wraps : m.inner = some (upstreamStream source label))
include inner cancels wraps

theorem stack_hears : Hears (g.metered metered) receivedIn := by
  intro h heard
  obtain ⟨received, taken, same⟩ := recv_taken inner cancels wraps heard
  refine ⟨received, receivedIn_eq taken.heard, ?_⟩
  cases met : panicIn h.events with
  | none => exact .inl (same.trans (Service.GatewayService.concluded_calm met received))
  | some reason =>
      refine .inr ⟨?_, reason, same.trans (Service.GatewayService.concluded_panic met received)⟩
      cases err : received.2 with
      | none =>
          have calm := taken.calm (congrArg Option.isSome err)
          rw [calm] at met
          cases met
      | some _ => rfl

theorem turnOf_heard {call : StreamCall} {events : List (Event stack)} {exit : Exit Returned}
    (runs : ((g.metered metered).invoke call).Runs events exit) :
    events.filterMap returnedOf = [(turnOf call events exit).returned] := by
  obtain ⟨returned, taken, -⟩ := invoke_taken inner cancels wraps runs
  rw [turnOf, taken.heard]
  rfl

theorem turn_received {h : Heard stack} (heard : h.From (g.metered metered)) {received : Received}
    (seen : h.events.filterMap receivedIn = [received]) :
    h.turn.returned = .received received.1 received.2 := by
  obtain ⟨other, taken, -⟩ := recv_taken inner cancels wraps heard
  obtain rfl : other = received :=
    List.singleton_inj.mp ((receivedIn_eq taken.heard).symm.trans seen)
  rw [Heard.turn, turnOf, taken.heard]
  rfl

section Turns

variable {through : List (Heard stack)} (from' : ∀ h ∈ through, h.From (g.metered metered))
include from'

theorem through_returned {chunks : List ChatStreamChunk}
    (same : through.map Heard.exit = chunks.map fun chunk => .returned (some chunk, none)) :
    (through.map Heard.turn).map Turn.returned = chunks.map fun chunk =>
    .received (some chunk) none := by
  induction through generalizing chunks with
  | nil =>
      obtain rfl := List.map_eq_nil_iff.mp same.symm
      rfl
  | cons h through ih =>
      obtain ⟨chunk, rest, rfl, first, later⟩ := List.map_eq_cons_iff.mp same.symm
      obtain ⟨heard, others⟩ := List.forall_mem_cons.mp from'
      have seen := Heard.seen_chunk (stack_hears inner cancels wraps) heard first.symm
      rw [List.map_cons, List.map_cons, List.map_cons, ih others later.symm,
        turn_received inner cancels wraps heard seen]

/-- The calls of the handler are those of a client that closes after the end. -/
theorem handler_turns {final : Heard stack} (finals : final.From (g.metered metered))
    {closing : List (Event stack)} {closed : Exit (Option Err)}
    (closes : (g.metered metered).Close.Runs closing closed) :
    ∀ turn ∈ through.map Heard.turn ++ final.turn :: [turnOf .close closing (closed.map .closed)],
    ((g.metered metered).invoke turn.call).Runs turn.events turn.exit ∧
    turn.events.filterMap returnedOf = [turn.returned] := by
  have receives {h : Heard stack} (heard : h.From (g.metered metered)) :
      ((g.metered metered).invoke .recv).Runs h.events
      (h.exit.map fun received => .received received.1 received.2) :=
    Program.Runs.map heard _
  have shuts : ((g.metered metered).invoke .close).Runs closing (closed.map .closed) :=
    Program.Runs.map closes _
  intro turn member
  rcases List.mem_append.mp member with among | later
  · obtain ⟨h, inside, rfl⟩ := List.mem_map.mp among
    exact ⟨receives (from' h inside), turnOf_heard inner cancels wraps (receives (from' h inside))⟩
  · rcases List.mem_cons.mp later with rfl | last
    · exact ⟨receives finals, turnOf_heard inner cancels wraps (receives finals)⟩
    · obtain rfl := List.mem_singleton.mp last
      exact ⟨shuts, turnOf_heard inner cancels wraps shuts⟩

end Turns

/-- The handler to the end of a script: the end settles the request, and nothing else does
anything. -/
theorem relayed_settles {codec : ChunkCodec} {rounds : Nat} {headers : List (String × String)}
    {late : List (Event (effects.sum stack))} {exit : Exit Unit} {chunks : List ChatStreamChunk}
    {last : Option ChatStreamChunk} {err : Err}
    (runs : (relayClosing codec rounds (g.metered metered) headers).Runs late exit)
    (delivered : Delivered late)
    (yields : late.filterMap (behind receivedIn) <+: script chunks last err)
    (enough : chunks.length ≤ rounds)
    (kept : (memory (leaseOf index m cancel metered.stream).toRef).Answered .zero (below late)) :
    ∃ (through : List (Heard stack)) (final : Heard stack) (closing : List (Event stack)),
    late = headed headers ++ (told codec through ++ ending codec final through) ++ passed closing ∧
    through.map Heard.exit = chunks.map (fun chunk => .returned (some chunk, none)) ∧
    final.events ⊆ below late ∧ acts (below late) = acts final.events ∧
    acts final.events = settlement g.options.recorder (leaseOf index m cancel metered.stream)
      (Returned.received last (some err)).outcome
      (metered.record (Returned.received last (some err)).status
        (Returned.received last (some err)).errorCode (finalUsage chunks last)) ∧
    final.exit = concluded final.events (last, some err) ∧ exit = final.exit.map fun _ => () := by
  have hears : Hears (g.metered metered) receivedIn := stack_hears inner cancels wraps
  obtain ⟨through, final, closing, closed, same, -, from', finals, seen, closes, rfl, rfl⟩ :=
    relayClosing_reads hears enough delivered yields runs
  have whole : below
      (headed headers ++ (told codec through ++ ending codec final through) ++ passed closing) =
      (through.map Heard.turn ++ final.turn :: [turnOf .close closing (closed.map .closed)]).flatMap
      Turn.events := by
    rw [below_append, below_append, below_append, below_passed, below, below, below, behind_headed,
      behind_told, behind_ending, List.flatMap_append, List.flatMap_map, List.flatMap_cons,
      List.flatMap_singleton]
    simp only [List.filterMap_some, List.nil_append, List.append_assoc]
    rfl
  rw [whole] at kept ⊢
  obtain ⟨on, story⟩ :=
    turns_told inner cancels wraps (handler_turns inner cancels wraps from' finals closes) kept
  have heard := through_returned inner cancels wraps from' same
  have ended : final.turn.returned = .received last (some err) :=
    turn_received inner cancels wraps finals seen
  have lasts : ∀ turn ∈ through.map Heard.turn, turn.returned.terminal = false := by
    intro turn member
    obtain ⟨chunk, -, returned⟩ := List.mem_map.mp (heard ▸ List.mem_map_of_mem member)
    rw [← returned]
    rfl
  obtain ⟨others, settled⟩ := story.settles lasts (by rw [ended]; rfl)
  have script' : (through.map Heard.turn ++ [final.turn]).map Turn.returned =
      (script chunks last err).map fun received => .received received.1 received.2 := by
    rw [List.map_append, heard, List.map_singleton, ended, script, List.map_append, List.map_map]
    rfl
  rw [ended, script', lastUsage_script] at settled
  -- `Close` does nothing after the end, and so it returns.
  have silent := others (turnOf .close closing (closed.map .closed))
    (List.mem_append_right _ List.mem_cons_self)
  have returns := (on _
    (List.mem_append_right _ (List.mem_cons_of_mem _ List.mem_cons_self))).returns silent
  obtain ⟨failed, rfl⟩ : ∃ failed, closed = .returned failed := by
    cases closed with
    | returned failed => exact ⟨failed, rfl⟩
    | aborted reason => cases returns
  refine ⟨through, final, closing, rfl, same, ?_, ?_, settled, ?_, rfl⟩
  · intro event member
    exact List.mem_flatMap.mpr ⟨final.turn, List.mem_append_right _ List.mem_cons_self, member⟩
  · exact acts_turns others
  · obtain ⟨received, taken, exits⟩ := recv_taken inner cancels wraps finals
    obtain rfl : received = (last, some err) :=
      List.singleton_inj.mp ((receivedIn_eq taken.heard).symm.trans seen)
    exact exits

end Handled

/-- The record, the breaker and the client agree about a stream unless it ended before its
first chunk or ended with a negative count. The handler returns unless the counters panic.
-/
theorem stream_outcome_agrees {quote : String → String} {strategy : Routing.Strategy}
    {members : List (Member × Int)} {r : Routing.Router fleet}
    (made : Routing.New quote strategy (Routing.fleetOf members) = .ok r)
    (built : ∀ entry ∈ members, Routing.Built entry.1)
    {g : Service.GatewayService (Routing.effects.sum fleet)} (asked : g.chat = r.provider)
    (recorder : g.options.recorder = true) {req : ChatRequest} {metadata : Service.RequestMetadata}
    {early : List (Event stack)} {result : Service.StreamResult (Routing.effects.sum fleet)}
    (opened : (g.ChatStream req metadata).Runs early (.returned (.ok result))) {codec : ChunkCodec}
    {rounds : Nat} {late : List (Event (effects.sum stack))} {exit : Exit Unit}
    (runs : (streamChatCompletions codec rounds g req metadata).Runs (passed early ++ late) exit)
    (delivered : Delivered late) (observes : Metrics.Observes (below late))
    {chunks : List ChatStreamChunk} {last : Option ChatStreamChunk} {err : Err}
    (closed : Closed codec chunks)
    (yields : late.filterMap (behind receivedIn) <+: script chunks last err)
    (enough : chunks.length ≤ rounds) :
    ∃ lease : Lease, lease.Opened early ∧
    ((memory lease.toRef).Answered .zero (below late) →
      exit = (if Metrics.NonNegative (finalUsage chunks last) then .returned ()
        else .aborted Metrics.decreasePanic) ∧
      (Agrees lease (passed early ++ late) ↔
        (err.is .eof = true → chunks ≠ [] ∧ Metrics.NonNegative (finalUsage chunks last)))) := by
  obtain ⟨late', same, relays⟩ := streamChatCompletions_relays runs opened (List.prefix_append _ _)
  obtain rfl := List.append_cancel_left same
  obtain ⟨metered, passing, during, opens, passes, whole, wraps, -⟩ :=
    Service.GatewayService.chatStream_opens opened
  rw [asked] at opens
  obtain ⟨index, name, m, source, cancel, label, before, events, inner, upstream', cancels, created,
    earlier, -, rfl⟩ :=
    Routing.chatStream_opens made built opens
  have elsewhere : ∀ act ∈ acts early, act.Elsewhere index := by
    rw [whole]
    exact opening_elsewhere passes earlier
  refine ⟨leaseOf index m cancel metered.stream, whole ▸ opening_opened cancels created,
    fun kept => ?_⟩
  rw [wraps] at relays
  -- The handler reads the script to its end, and the `Recv` that finds the end settles the stream.
  obtain ⟨through, final, closing, rfl, heard, during, only, settled, exits, rfl⟩ :=
    relayed_settles inner cancels upstream' relays delivered yields enough kept
  rw [recorder] at settled
  obtain ⟨recorded, completed⟩ := accounts_settled elsewhere (only.trans settled)
  have none' : through = [] ↔ chunks = [] := by
    rw [← List.map_eq_nil_iff (f := Heard.exit), heard, List.map_eq_nil_iff]
  have returns : final.exit =
      if Metrics.NonNegative (finalUsage chunks last) then .returned (last, some err)
      else .aborted Metrics.decreasePanic :=
    exits.trans (concluded_settled (fun _ _ _ member => observes _ _ _ (during member)) settled _)
  have stops : ¬final.Chunk := by
    rintro ⟨chunk, chunkwise⟩
    rw [returns] at chunkwise
    split at chunkwise <;> cases chunkwise
  -- `[DONE]` is written only when the end was found and the counters took the usage.
  have ends : atEnd final.exit =
      (err.is .eof && decide (Metrics.NonNegative (finalUsage chunks last))) := by
    rw [returns]
    by_cases counts : Metrics.NonNegative (finalUsage chunks last)
    · rw [if_pos counts, decide_eq_true counts, Bool.and_true]
      rfl
    · rw [if_neg counts, decide_eq_false counts, Bool.and_false]
      rfl
  constructor
  · rw [returns]
    split <;> rfl
  · rw [agrees_iff closed (err.is .eof) (decide (Metrics.NonNegative (finalUsage chunks last)))
      recorded completed (Returned.outcome_success rfl) ?_ ?_, decide_eq_true_iff]
    · intro empty
      rw [statuses_append, statuses_passed, statuses_story, if_pos (none'.mpr empty)]
      exact statuses_unheard final.exit
    · intro some'
      rw [statuses_append, statuses_passed, statuses_story, if_neg (none'.not.mpr some'),
        written_append, written_passed, List.nil_append, written_story heard stops some', ends]
      exact ⟨rfl, rfl⟩

/-! One target, and streams that end at once, after a chunk and with a negative count -/

section Sample

open SseStream (sampleChunk sampleCodec)

def soleHeaders : List (Event (effects.sum stack)) :=
  headed [("X-Request-ID", "id"), ("X-ModelGate-Provider", "sole")]

def endedAtOnce : List (Event (effects.sum stack)) :=
  soleHeaders ++ (passed (soleEnd .zero none) ++ own
    (.json 502 "upstream_error" "provider_request_failed" "provider request failed")
    () :: passed soleClose)

def endedAfterChunk : List (Event (effects.sum stack)) :=
  soleHeaders ++ (passed [ofUpstream (.recv 0) (some sampleChunk, none)] ++
    (headed eventStream ++ own (.status 200)
      () :: (wrote (sseChunk sampleCodec (some sampleChunk)) ++
        (passed (soleEnd .zero none) ++ (wrote sseDone ++ passed soleClose)))))

def negativeUsage : ChatUsage := ⟨-1, 0, 0⟩

def negativeCodec : ChunkCodec := Metrics.soleChunkCodec "-1" negativeUsage

/-- A stream with a negative count, which the counters meet at its end. -/
def endedNegative : List (Event (effects.sum stack)) :=
  soleHeaders ++ (passed [ofUpstream (.recv 0) (some (usedChunk negativeUsage), none),
    ofGateway (.storeUsage 0 negativeUsage) ()] ++ (headed eventStream ++ own (.status 200) () ::
      (wrote (sseChunk negativeCodec (some (usedChunk negativeUsage))) ++
        (passed (soleEnd negativeUsage (some Metrics.decreasePanic)) ++ passed soleClose))))

theorem endedAtOnce_runs :
    (streamChatCompletions sampleCodec 1 soleGateway streamRequest streamMetadata).Runs
    (passed soleOpening ++ endedAtOnce) (.returned ()) := by
  repeat' apply Program.Leads.step
  exact .refl _

theorem endedAfterChunk_runs :
    (streamChatCompletions sampleCodec 1 soleGateway streamRequest streamMetadata).Runs
    (passed soleOpening ++ endedAfterChunk) (.returned ()) := by
  repeat' apply Program.Leads.step
  exact .refl _

theorem endedNegative_runs :
    (streamChatCompletions negativeCodec 1 soleGateway streamRequest streamMetadata).Runs
    (passed soleOpening ++ endedNegative) (.aborted Metrics.decreasePanic) := by
  repeat' apply Program.Leads.step
  exact .refl _

theorem endedAtOnce_delivered : Delivered endedAtOnce := by
  intro text failed member
  simp [endedAtOnce, passed, soleHeaders, headed, own, Event.along, Embedding.inr] at member

theorem endedAfterChunk_delivered : Delivered endedAfterChunk := by
  intro text failed member
  simp [endedAfterChunk, passed, soleHeaders, headed, wrote, own, Event.along, Embedding.inr,
    eventStream] at member
  rcases member with ⟨_, rfl⟩ | ⟨_, rfl⟩ <;> rfl

theorem endedNegative_delivered : Delivered endedNegative := by
  intro text failed member
  simp [endedNegative, passed, soleHeaders, headed, wrote, own, Event.along, Embedding.inr,
    eventStream] at member
  exact member.2

theorem soleEnd_observes (usage : ChatUsage) {panicked : Option String}
    (counters : panicked = Metrics.outcomeOf usage) :
    Metrics.Observes (soleEnd usage panicked ++ soleClose) := by
  intro providerName observed reply member
  simp [soleEnd, soleClose, ofGateway, ofMember, ofUpstream, Service.GatewayService.own] at member
  obtain ⟨⟨rfl, rfl⟩, same⟩ := member
  cases same
  exact ⟨_, counters⟩

theorem soleEnd_answered (ref : Ref) :
    (memory ref).Answered .zero (soleEnd .zero none ++ soleClose) := by
  obtain ⟨index, circuit, once, cell⟩ := ref
  cases index <;> cases once <;> cases cell <;>
    simp [soleEnd, soleClose, memory, Protocol.Answered, Fields.Answers, Fields.after, Fields.zero,
      ofUpstream, ofMember, ofGateway]

theorem sampleCodec_closed : Closed sampleCodec [sampleChunk] := by
  intro chunk member
  obtain rfl := List.mem_singleton.mp member
  decide

theorem endedAfterChunk_observes : Metrics.Observes (below endedAfterChunk) := by
  intro providerName usage reply member
  rcases List.mem_cons.mp member with same | later
  · cases same
  · exact soleEnd_observes .zero rfl providerName usage reply later

theorem stream_outcome_agrees_chunk : statuses endedAfterChunk = [200] ∧
    records endedAfterChunk = [.succeeded] ∧ ∃ lease : Lease, lease.Opened soleOpening ∧
    Agrees lease (passed soleOpening ++ endedAfterChunk) := by
  have made : Routing.New id .roundRobin (Routing.fleetOf soleMembers) = .ok soleRouter := rfl
  have yields : endedAfterChunk.filterMap (behind receivedIn) <+: script [sampleChunk] none .eof :=
    ⟨[], rfl⟩
  obtain ⟨lease, opened, agrees⟩ := stream_outcome_agrees made soleMembers_built
    (g := soleGateway) rfl rfl soleOpening_runs endedAfterChunk_runs endedAfterChunk_delivered
    endedAfterChunk_observes sampleCodec_closed yields (Nat.le_refl 1)
  have kept : (memory lease.toRef).Answered .zero (below endedAfterChunk) :=
    ⟨trivial, soleEnd_answered lease.toRef⟩
  exact ⟨rfl, rfl, lease, opened, (agrees kept).2.mpr fun _ => ⟨nofun, by decide⟩⟩

def soleLease : Lease := ⟨soleRef, 0, 0⟩

theorem soleOpening_opened : soleLease.Opened soleOpening :=
  .cons _ (.cons _
    (.cons _ (.cons_cons _
        (.cons_cons _ (.cons _
        (.cons_cons _ (.cons _ (.cons _ (.cons_cons _ (.cons_cons _ .slnil))))))))))

theorem endedNegative_observes : Metrics.Observes (below endedNegative) := by
  intro providerName usage reply member
  rcases List.mem_cons.mp member with same | later
  · cases same
  · rcases List.mem_cons.mp later with same | ends
    · cases same
    · exact soleEnd_observes negativeUsage rfl providerName usage reply ends

theorem negativeCodec_closed : Closed negativeCodec [usedChunk negativeUsage] := by
  intro chunk member
  obtain rfl := List.mem_singleton.mp member
  have encoded : negativeCodec.marshal (some (usedChunk negativeUsage)) =
      Metrics.chunkData "-1" := by
    simp [negativeCodec, Metrics.soleChunkCodec, SseStream.tabulated]
  rw [encoded]
  decide +kernel

theorem endedNegative_written : written (passed soleOpening ++ endedNegative) =
    body negativeCodec [usedChunk negativeUsage] false := by
  have status (tail : List (Event (effects.sum stack))) : written (own (.status 200) () :: tail) =
    written tail := rfl
  simp [endedNegative, soleHeaders, status, body]

/-- A stream that ends at once: the client is told that the request failed, the record and
the breaker that it succeeded. A negative count: the client misses the last event, and the
record and the breaker say success. -/
theorem not_stream_outcome_agrees :
    soleLease.Opened soleOpening ∧
      ((streamChatCompletions sampleCodec 1 soleGateway streamRequest streamMetadata).Runs
          (passed soleOpening ++ endedAtOnce) (.returned ()) ∧
        Delivered endedAtOnce ∧ Metrics.Observes (below endedAtOnce) ∧
        (memory soleRef).Answered .zero (below endedAtOnce) ∧
        endedAtOnce.filterMap (behind receivedIn) = script [] none .eof ∧
        records (passed soleOpening ++ endedAtOnce) = [.succeeded] ∧
        completions soleLease (passed soleOpening ++ endedAtOnce) = [.success] ∧
        statuses (passed soleOpening ++ endedAtOnce) = [502] ∧
        ¬Agrees soleLease (passed soleOpening ++ endedAtOnce)) ∧
      (streamChatCompletions negativeCodec 1 soleGateway streamRequest streamMetadata).Runs
          (passed soleOpening ++ endedNegative) (.aborted Metrics.decreasePanic) ∧
        Delivered endedNegative ∧ Metrics.Observes (below endedNegative) ∧
        (memory soleRef).Answered .zero (below endedNegative) ∧
        endedNegative.filterMap (behind receivedIn) = script [usedChunk negativeUsage] none .eof ∧
        records (passed soleOpening ++ endedNegative) = [.succeeded] ∧
        completions soleLease (passed soleOpening ++ endedNegative) = [.success] ∧
        ¬Agrees soleLease (passed soleOpening ++ endedNegative) := by
  refine ⟨soleOpening_opened, ⟨endedAtOnce_runs, endedAtOnce_delivered, soleEnd_observes .zero rfl,
      soleEnd_answered _, rfl, rfl, rfl, rfl, fun agrees => ?_⟩, endedNegative_runs,
    endedNegative_delivered, endedNegative_observes, soleCalls_answered _ _ _, rfl, rfl, rfl,
    fun agrees => ?_⟩
  · have answered := agrees.1.mp ⟨rfl, rfl⟩
    cases answered.1
  · have answered := agrees.1.mp ⟨rfl, rfl⟩
    rw [Answered, endedNegative_written] at answered
    exact chunks_not_done negativeCodec_closed nofun answered.2

end Sample

end ModelGate.Api
