import ModelGate.Api.Handler
import ModelGate.Semantics.Runs

/-! Executions of the streaming handler, taken apart.

Whatever the stream is, the handler hears what its calls of `Recv` return and
writes something after each of them.
-/

set_option autoImplicit false

namespace ModelGate.Api

open Data Semantics Provider

variable {S T : Signature}

def own (op : Effect) (reply : effects.Reply op) : Event (effects.sum S) := ⟨.inl op, reply⟩

def passed (events : List (Event S)) : List (Event (effects.sum S)) :=
  events.map (Event.along (.inr effects S))

/-- Every write to the client succeeds. -/
def Delivered (trace : List (Event (effects.sum S))) : Prop :=
  ∀ text failed, own (.writeString text) failed ∈ trace → failed = none

def headed (headers : List (String × String)) : List (Event (effects.sum S)) :=
  headers.map fun header => own (.header header.1 header.2) ()

def wrote (text : Bytes) : List (Event (effects.sum S)) :=
  [own (.writeString text) none, own .flush ()]

def refused (err : Err) : List (Event (effects.sum S)) :=
  let response := writeMappedError err
  headed response.headers ++
    [own (.json response.status response.errorType response.code response.message) ()]

structure Heard (S : Signature) where
  exit : Exit Received
  events : List (Event S)

def Heard.From (stream : Stream S) (h : Heard S) : Prop := stream.Recv.Runs h.events h.exit

/-- The call returned a chunk, or a nil one, without an error. -/
def Heard.Chunk (h : Heard S) : Prop := ∃ chunk, h.exit = .returned (chunk, none)

/-- What is written for a chunk or for the end. A panic passes through. -/
def follow (codec : ChunkCodec) : Exit Received → List (Event (effects.sum S))
  | .returned (chunk, none) => wrote (sseChunk codec chunk)
  | .returned (_, some err) => if err.is .eof then wrote sseDone else []
  | .aborted _ => []

def Heard.trace (codec : ChunkCodec) (h : Heard S) : List (Event (effects.sum S)) :=
  passed h.events ++ follow codec h.exit

/-- The chunks before the end. The first commits the response. -/
def told (codec : ChunkCodec) : List (Heard S) → List (Event (effects.sum S))
  | [] => []
  | first :: more =>
      passed first.events ++ (headed eventStream ++
        own (.status 200) () :: (follow codec first.exit ++ more.flatMap (Heard.trace codec)))

def unheard : Exit Received → List (Event (effects.sum S))
  | .returned (_, some err) => refused (firstError err)
  | .returned (_, none) | .aborted _ => []

def ending (codec : ChunkCodec) (last : Heard S) : List (Heard S) → List (Event (effects.sum S))
  | [] => passed last.events ++ unheard last.exit
  | _ :: _ => last.trace codec

theorem Delivered.left {early late : List (Event (effects.sum S))}
    (delivered : Delivered (early ++ late)) : Delivered early :=
  fun text failed member => delivered text failed (List.mem_append_left _ member)

theorem Delivered.right {early late : List (Event (effects.sum S))}
    (delivered : Delivered (early ++ late)) : Delivered late :=
  fun text failed member => delivered text failed (List.mem_append_right _ member)

section Runs

open Program

variable {codec : ChunkCodec} {trace : List (Event (effects.sum S))} {exit : Exit Unit}

theorem setHeaders_runs {α : Type} {headers : List (String × String)}
    {next : Unit → Program (effects.sum S) α} {exit : Exit α}
    (runs : (setHeaders headers >>= next).Runs trace exit) :
    ∃ rest, trace = headed headers ++ rest ∧ (next ()).Runs rest exit := by
  induction headers generalizing trace with
  | nil => exact ⟨trace, rfl, runs⟩
  | cons header headers ih =>
      rw [setHeaders, bind_assoc] at runs
      obtain ⟨_, later, rfl, goes⟩ := Runs.call runs
      obtain ⟨rest, rfl, left⟩ := ih goes
      exact ⟨rest, rfl, left⟩

theorem answerError_runs {err : Err} (runs : (answerError err).Runs trace exit) :
    trace = refused err ∧ exit = .returned () := by
  obtain ⟨rest, rfl, goes⟩ := setHeaders_runs runs
  obtain ⟨_, last, rfl, ends⟩ := runs_perform.mp goes
  obtain ⟨rfl, rfl⟩ := runs_done.mp ends
  exact ⟨rfl, rfl⟩

theorem writeSSEChunk_runs {α : Type} {chunk : Option ChatStreamChunk}
    {next : Option Err → Program (effects.sum S) α} {exit : Exit α} (delivered : Delivered trace)
    (runs : (writeSSEChunk codec chunk >>= next).Runs trace exit) :
    ∃ rest, trace = wrote (sseChunk codec chunk) ++ rest ∧ (next none).Runs rest exit := by
  rw [writeSSEChunk, bind_assoc] at runs
  obtain ⟨failed, later, rfl, goes⟩ := Runs.call runs
  obtain rfl : failed = none := delivered (sseChunk codec chunk) failed List.mem_cons_self
  obtain ⟨_, rest, rfl, left⟩ := Runs.call goes
  exact ⟨rest, rfl, left⟩

variable {stream : Stream S}

theorem recv_runs {α : Type} {next : Received → Program (effects.sum S) α} {exit : Exit α}
    (runs : (stream.Recv.along (.inr effects S) >>= next).Runs trace exit) :
    ∃ h : Heard S, h.From stream ∧
    ((∃ received rest, h.exit = .returned received ∧ trace = passed h.events ++ rest ∧
        (next received).Runs rest exit) ∨ ∃ reason, h.exit = .aborted reason ∧
      trace = passed h.events ∧ exit = .aborted reason) := by
  rcases runs.bind with ⟨early, rest, received, rfl, goes, left⟩ | ⟨reason, stuck, rfl⟩
  · obtain ⟨events, rfl, heard⟩ := goes.along
    exact ⟨⟨.returned received, events⟩, heard, .inl ⟨received, rest, rfl, rfl, left⟩⟩
  · obtain ⟨events, rfl, heard⟩ := stuck.along
    exact ⟨⟨.aborted reason, events⟩, heard, .inr ⟨reason, rfl, rfl, rfl⟩⟩

/-- The loop hears chunks until an error or a panic ends it, or its rounds run out. -/
theorem forward_runs {rounds : Nat} (delivered : Delivered trace)
    (runs : (forward codec stream rounds).Runs trace exit) :
    ∃ through : List (Heard S), (∀ h ∈ through, h.From stream ∧ h.Chunk) ∧
    ((through.length = rounds ∧ trace = through.flatMap (Heard.trace codec)) ∨ ∃ last :
      Heard S, last.From stream ∧ ¬last.Chunk ∧
      trace = through.flatMap (Heard.trace codec) ++ last.trace codec ∧
      exit = last.exit.map fun _ => ()) := by
  induction rounds generalizing trace with
  | zero =>
      -- The bound stands for no branch of the source: its loop has none.
      obtain ⟨rfl, -⟩ := runs_abort.mp runs
      exact ⟨[], nofun, .inl ⟨rfl, rfl⟩⟩
  | succ rounds ih =>
      obtain ⟨⟨how, events⟩, heard, ⟨⟨chunk, err⟩, rest, rfl, rfl, goes⟩ |
        ⟨reason, rfl, rfl, rfl⟩⟩ := recv_runs runs
      case inr =>
        refine ⟨[], nofun, .inr ⟨⟨.aborted reason, events⟩, heard, nofun, ?_, rfl⟩⟩
        exact (List.append_nil _).symm
      cases err with
      | none =>
          obtain ⟨later, rfl, left⟩ := writeSSEChunk_runs delivered.right goes
          obtain ⟨through, from', ends⟩ := ih delivered.right.right left
          refine ⟨⟨.returned (chunk, none), events⟩ :: through,
            List.forall_mem_cons.mpr ⟨⟨heard, chunk, rfl⟩, from'⟩, ?_⟩
          rcases ends with ⟨length, rfl⟩ | ⟨last, ended, final, rfl, rfl⟩
          · left
            refine ⟨congrArg (· + 1) length, ?_⟩
            simp only [List.flatMap_cons, Heard.trace, List.append_assoc, follow]
          · right
            refine ⟨last, ended, final, ?_, rfl⟩
            simp only [List.flatMap_cons, Heard.trace, List.append_assoc, follow]
      | some err =>
          have closing : rest = follow codec (.returned (chunk, some err)) ∧
              exit = .returned () := by
            simp only at goes
            rw [follow]
            -- `io.EOF` is answered by the last event, any other error by silence.
            split at goes
            · rename_i eof
              obtain ⟨failed, later, rfl, flushes⟩ := Runs.call goes
              obtain rfl : failed = none := delivered.right sseDone failed List.mem_cons_self
              obtain ⟨_, nothing, rfl, ends⟩ := runs_perform.mp flushes
              obtain ⟨rfl, rfl⟩ := runs_done.mp ends
              rw [if_pos eof]
              exact ⟨rfl, rfl⟩
            · rename_i other
              rw [if_neg other]
              exact runs_done.mp goes
          obtain ⟨rfl, rfl⟩ := closing
          exact ⟨[], nofun, .inr ⟨_, heard, nofun, rfl, rfl⟩⟩

theorem relay_runs {rounds : Nat} {headers : List (String × String)} (delivered : Delivered trace)
    (runs : (relay codec rounds stream headers).Runs trace exit) :
    ∃ through : List (Heard S), (∀ h ∈ through, h.From stream ∧ h.Chunk) ∧
      ((through.length = rounds + 1 ∧ trace = headed headers ++ told codec through) ∨
        ∃ last : Heard S, last.From stream ∧ ¬last.Chunk ∧
          trace = headed headers ++ (told codec through ++ ending codec last through) ∧
          exit = last.exit.map fun _ => ()) := by
  obtain ⟨late, rfl, goes⟩ := setHeaders_runs runs
  obtain ⟨⟨how, events⟩, heard, ⟨⟨chunk, err⟩, rest, rfl, rfl, continues⟩ |
    ⟨reason, rfl, rfl, rfl⟩⟩ := recv_runs goes
  case inr =>
    refine ⟨[], nofun, .inr ⟨⟨.aborted reason, events⟩, heard, nofun, ?_, rfl⟩⟩
    exact congrArg (headed headers ++ ·) (List.append_nil _).symm
  cases err with
  | some err =>
      obtain ⟨rfl, rfl⟩ := answerError_runs continues
      exact ⟨[], nofun, .inr ⟨⟨.returned (chunk, some err), events⟩, heard, nofun, rfl, rfl⟩⟩
  | none =>
      obtain ⟨committed, rfl, commits⟩ := setHeaders_runs continues
      obtain ⟨_, written, rfl, writes⟩ := Runs.call commits
      have whole : Delivered written := fun text failed member =>
        delivered text failed
          (List.mem_append_right _
            (List.mem_append_right _ (List.mem_append_right _ (List.mem_cons_of_mem _ member))))
      obtain ⟨left, rfl, loops⟩ := writeSSEChunk_runs whole writes
      obtain ⟨through, from', ends⟩ := forward_runs whole.right loops
      refine ⟨⟨.returned (chunk, none), events⟩ :: through,
        List.forall_mem_cons.mpr ⟨⟨heard, chunk, rfl⟩, from'⟩, ?_⟩
      rcases ends with ⟨length, rfl⟩ | ⟨last, ended, final, rfl, rfl⟩
      · exact .inl ⟨congrArg (· + 1) length, rfl⟩
      · refine .inr ⟨last, ended, final, ?_, rfl⟩
        simp only [told, ending, follow, own, List.append_assoc, List.cons_append]

end Runs

/-! What the stream behind the handler yields -/

section Yields

variable {β : Type} (sees : Event S → Option β)

@[simp] theorem behind_own {op : Effect} {reply : effects.Reply op} :
    behind sees (own op reply) = none :=
  rfl

@[simp] theorem behind_relayed (events : List (Event S)) :
    (passed events).filterMap (behind sees) = events.filterMap sees :=
  behind_passed sees events

@[simp] theorem behind_headed (headers : List (String × String)) :
    (headed headers).filterMap (behind sees) = [] := by
  simp [headed, List.filterMap_map, List.filterMap_eq_nil_iff]

@[simp] theorem behind_refused (err : Err) : (refused err).filterMap (behind sees) = [] := by
  simp [refused]

@[simp] theorem behind_follow (codec : ChunkCodec) (exit : Exit Received) :
    (follow codec exit).filterMap (behind sees) = [] := by
  match exit with
  | .returned (_, none) => rfl
  | .returned (_, some err) =>
      rw [follow]
      split <;> rfl
  | .aborted _ => rfl

@[simp] theorem behind_unheard (exit : Exit Received) :
    (unheard exit).filterMap (behind sees) = [] := by
  match exit with
  | .returned (_, none) => rfl
  | .returned (_, some err) => exact behind_refused sees _
  | .aborted _ => rfl

theorem behind_told (codec : ChunkCodec) (through : List (Heard S)) :
    (told codec through).filterMap (behind sees) = through.flatMap
      fun h => h.events.filterMap sees := by
  cases through with
  | nil => rfl
  | cons first more =>
      rw [told, List.filterMap_append, List.filterMap_append,
        List.filterMap_cons_none (behind_own sees)]
      simp [Heard.trace, List.filterMap_flatMap]

theorem behind_ending (codec : ChunkCodec) (last : Heard S) (through : List (Heard S)) :
    (ending codec last through).filterMap (behind sees) = last.events.filterMap sees := by
  cases through <;> simp [ending, Heard.trace]

end Yields

/-- What a stream of chunks and its end makes `Recv` return. -/
def script (chunks : List ChatStreamChunk) (last : Option ChatStreamChunk) (err : Err) :
    List Received :=
  chunks.map (fun chunk => (some chunk, none)) ++ [(last, some err)]

theorem script_split {chunks : List ChatStreamChunk} {last : Option ChatStreamChunk} {err : Err}
    {values : List Received} (read : values <+: script chunks last err)
    (chunkwise : ∀ value ∈ values, value.2 = none) : values.length ≤ chunks.length := by
  by_contra long
  have whole : values = script chunks last err := by
    apply read.eq_of_length_le
    simp only [script, List.length_append, List.length_map, List.length_singleton]
    omega
  have final := chunkwise (last, some err)
    (by rw [whole]; exact List.mem_append_right _ List.mem_cons_self)
  cases final

theorem script_ended {chunks : List ChatStreamChunk} {last final : Option ChatStreamChunk}
    {err found : Err} {values : List Received}
    (read : values ++ [(final, some found)] <+: script chunks last err)
    (chunkwise : ∀ value ∈ values, value.2 = none) :
    values = chunks.map (fun chunk => (some chunk, none)) ∧ final = last ∧ found = err := by
  induction values generalizing chunks with
  | nil =>
      cases chunks with
      | nil =>
          obtain ⟨same, -⟩ := List.cons_prefix_cons.mp read
          cases same
          exact ⟨rfl, rfl, rfl⟩
      | cons chunk chunks =>
          obtain ⟨same, -⟩ := List.cons_prefix_cons.mp read
          cases same
  | cons value values ih =>
      cases chunks with
      | nil =>
          obtain ⟨same, -⟩ := List.cons_prefix_cons.mp read
          rw [same] at chunkwise
          cases chunkwise _ List.mem_cons_self
      | cons chunk chunks =>
          obtain ⟨same, rest⟩ := List.cons_prefix_cons.mp read
          obtain ⟨tail, ends⟩ :=
            ih rest fun value member => chunkwise value (List.mem_cons_of_mem _ member)
          exact ⟨by rw [same, tail, List.map_cons], ends⟩

/-- A call of `Recv` asks the source once, and may panic at its end. -/
def Hears (stream : Stream S) (sees : Event S → Option Received) : Prop :=
  ∀ h : Heard S, h.From stream → ∃ received, h.events.filterMap sees = [received] ∧
    (h.exit = .returned received ∨ received.2.isSome = true ∧ ∃ reason, h.exit = .aborted reason)

section Reads

variable {codec : ChunkCodec} {stream : Stream S} {sees : Event S → Option Received}
  (hears : Hears stream sees) {rounds : Nat} {headers : List (String × String)}
  {trace : List (Event (effects.sum S))} {exit : Exit Unit} {chunks : List ChatStreamChunk}
  {last : Option ChatStreamChunk} {err : Err}
include hears

theorem Heard.seen_chunk {h : Heard S} (from' : h.From stream) {chunk : Option ChatStreamChunk}
    (returned : h.exit = .returned (chunk, none)) : h.events.filterMap sees = [(chunk, none)] := by
  obtain ⟨received, seen, same | ⟨-, reason, panicked⟩⟩ := hears h from'
  · rw [returned] at same
    cases same
    exact seen
  · rw [returned] at panicked
    cases panicked

theorem Heard.seen_end {h : Heard S} (from' : h.From stream) (final : ¬h.Chunk) :
    ∃ chunk err, h.events.filterMap sees = [(chunk, some err)] ∧
      (h.exit = .returned (chunk, some err) ∨ ∃ reason, h.exit = .aborted reason) := by
  obtain ⟨⟨chunk, err⟩, seen, same | ⟨some', panicked⟩⟩ := hears h from'
  · cases err with
    | none => exact absurd ⟨chunk, same⟩ final
    | some err => exact ⟨chunk, err, seen, .inl same⟩
  · obtain ⟨err, rfl⟩ := Option.isSome_iff_exists.mp some'
    exact ⟨chunk, err, seen, .inr panicked⟩

theorem heard_chunks {through : List (Heard S)} (from' : ∀ h ∈ through, h.From stream ∧ h.Chunk) :
    ∃ values : List Received, (through.flatMap fun h => h.events.filterMap sees) = values ∧
      through.map Heard.exit = values.map .returned ∧ ∀ value ∈ values, value.2 = none := by
  induction through with
  | nil => exact ⟨[], rfl, rfl, nofun⟩
  | cons h through ih =>
      obtain ⟨⟨heard, chunk, returned⟩, rest⟩ := List.forall_mem_cons.mp from'
      obtain ⟨values, seen, exits, chunkwise⟩ := ih rest
      refine ⟨(chunk, none) :: values, ?_, ?_, List.forall_mem_cons.mpr ⟨rfl, chunkwise⟩⟩
      · rw [List.flatMap_cons, Heard.seen_chunk hears heard returned, seen]
        rfl
      · rw [List.map_cons, List.map_cons, returned, exits]

/-- A relay hears a script to its end when it has a round for each chunk. -/
theorem relay_reads (enough : chunks.length ≤ rounds) (delivered : Delivered trace)
    (yields : trace.filterMap (behind sees) <+: script chunks last err)
    (runs : (relay codec rounds stream headers).Runs trace exit) :
    ∃ (through : List (Heard S)) (final : Heard S), through.map Heard.exit =
      chunks.map (fun chunk => .returned (some chunk, none)) ∧
    (final.exit = .returned (last, some err) ∨ ∃ reason, final.exit = .aborted reason) ∧
    (∀ h ∈ through, h.From stream) ∧ final.From stream ∧
    final.events.filterMap sees = [(last, some err)] ∧
    trace = headed headers ++ (told codec through ++ ending codec final through) ∧
    exit = final.exit.map fun _ => () := by
  obtain ⟨through, from', ends⟩ := relay_runs delivered runs
  obtain ⟨values, heard, exits, chunkwise⟩ := heard_chunks hears from'
  rcases ends with ⟨length, rfl⟩ | ⟨final, ended, stops, rfl, rfl⟩
  · rw [List.filterMap_append, behind_headed, behind_told, heard, List.nil_append] at yields
    -- Every chunk of the script was heard and a round is left for its end.
    have short := script_split yields chunkwise
    have same := congrArg List.length exits
    rw [List.length_map, List.length_map] at same
    omega
  · obtain ⟨chunk, found, seen, how⟩ := Heard.seen_end hears ended stops
    rw [List.filterMap_append, List.filterMap_append, behind_headed, behind_told, behind_ending,
      heard, seen, List.nil_append] at yields
    obtain ⟨rfl, rfl, rfl⟩ := script_ended yields chunkwise
    refine ⟨through, final, ?_, how, fun h member => (from' h member).1, ended, seen, rfl, rfl⟩
    rw [exits, List.map_map]
    rfl

theorem relayClosing_reads (enough : chunks.length ≤ rounds) (delivered : Delivered trace)
    (yields : trace.filterMap (behind sees) <+: script chunks last err)
    (runs : (relayClosing codec rounds stream headers).Runs trace exit) :
    ∃ (through : List (Heard S)) (final : Heard S) (closing : List (Event S))
      (closed : Exit (Option Err)), through.map Heard.exit =
      chunks.map (fun chunk => .returned (some chunk, none)) ∧
    (final.exit = .returned (last, some err) ∨ ∃ reason, final.exit = .aborted reason) ∧
    (∀ h ∈ through, h.From stream) ∧ final.From stream ∧
    final.events.filterMap sees = [(last, some err)] ∧ stream.Close.Runs closing closed ∧
    trace = headed headers ++ (told codec through ++ ending codec final through) ++ passed closing ∧
    exit = closed.andThen (final.exit.map fun _ => ()) := by
  obtain ⟨early, late, first, rfl, relays, rest⟩ := runs.ensuring
  rw [List.filterMap_append] at yields
  obtain ⟨through, final, same, how, from', last', seen, rfl, rfl⟩ :=
    relay_reads hears enough delivered.left ((List.prefix_append _ _).trans yields) relays
  rw [Program.bind_assoc] at rest
  rcases rest.bind with ⟨before, after, failed, rfl, goes, ends⟩ | ⟨reason, stuck, rfl⟩
  · obtain ⟨closing, rfl, closed⟩ := goes.along
    obtain ⟨rfl, rfl⟩ := Program.runs_exit ends
    exact ⟨through, final, closing, .returned failed, same, how, from', last', seen, closed,
      by rw [List.append_nil]; rfl, rfl⟩
  · obtain ⟨closing, rfl, closed⟩ := stuck.along
    exact ⟨through, final, closing, .aborted reason, same, how, from', last', seen,
      closed, rfl, rfl⟩

end Reads

/-- On a nil stream both calls panic. -/
theorem relayClosing_nil {codec : ChunkCodec} {stream : Stream S} {reason : String}
    (recv : stream.Recv = .abort reason) (close : stream.Close = .abort reason) {rounds : Nat}
    {headers : List (String × String)} {trace : List (Event (effects.sum S))} {exit : Exit Unit}
    (runs : (relayClosing codec rounds stream headers).Runs trace exit) :
    trace = headed headers := by
  obtain ⟨early, late, first, rfl, relays, rest⟩ := runs.ensuring
  obtain ⟨nothing, rfl, stops⟩ := setHeaders_runs relays
  rw [recv] at stops
  obtain ⟨rfl, -⟩ := Program.runs_abort.mp stops
  rw [close] at rest
  obtain ⟨rfl, -⟩ := Program.runs_abort.mp rest
  rw [List.append_nil, List.append_nil]

theorem streamChatCompletions_relays {codec : ChunkCodec} {rounds : Nat}
    {gateway : Service.GatewayService T} {req : ChatRequest} {metadata : Service.RequestMetadata}
    {trace : List (Event (effects.sum (Service.effects.sum T)))} {exit : Exit Unit}
    {early : List (Event (Service.effects.sum T))} {result : Service.StreamResult T}
    (runs : (streamChatCompletions codec rounds gateway req metadata).Runs trace exit)
    (opened : (gateway.ChatStream req metadata).Runs early (.returned (.ok result)))
    (begins : passed early <+: trace) :
    ∃ late, trace = passed early ++ late ∧
    (relayClosing codec rounds result.stream (resultHeaders result)).Runs late exit := by
  have begun := opened.embed (e := .inr effects (Service.effects.sum T))
  rw [streamChatCompletions] at runs
  obtain ⟨late, rfl, goes⟩ := runs.bind_from begun begins
  exact ⟨late, rfl, goes⟩

end ModelGate.Api
