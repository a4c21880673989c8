import ModelGate.Api.Relay
import ModelGate.Provider.SseGrammar
import ModelGate.Provider.Upstream
import ModelGate.Service.AtMostOnce
import ModelGate.Service.Metering

/-! What the handler writes for a stream, read back by `sseStream`. -/

set_option autoImplicit false

namespace ModelGate.Api

open Data Semantics Provider Provider.SseStream

variable {S : Signature}

/-! The body -/

def writtenBy : Event (effects.sum S) → Bytes
  | ⟨.inl (.writeString text), _⟩ => text
  | _ => []

def written (trace : List (Event (effects.sum S))) : Bytes := trace.flatMap writtenBy

@[simp] theorem written_append (early late : List (Event (effects.sum S))) :
    written (early ++ late) = written early ++ written late := List.flatMap_append

@[simp] theorem written_wrote (text : Bytes) : written (S := S) (wrote text) = text :=
  List.append_nil _

@[simp] theorem written_passed (events : List (Event S)) : written (passed events) = [] := by
  rw [written, passed, List.flatMap_map]
  exact List.flatMap_eq_nil_iff.mpr fun _ _ => rfl

@[simp] theorem written_headed (headers : List (String × String)) :
    written (S := S) (headed headers) = [] := by
  rw [written, headed, List.flatMap_map]
  exact List.flatMap_eq_nil_iff.mpr fun _ _ => rfl

/-- The chunks as events, and the last event of a stream that ended. -/
def body (codec : ChunkCodec) (chunks : List ChatStreamChunk) (ended : Bool) : Bytes :=
  chunks.flatMap (fun chunk => sseChunk codec (some chunk)) ++ if ended then sseDone else []

/-- The call found the end of the stream and returned it. -/
def atEnd : Exit Received → Bool
  | .returned received => received.2.any (·.is .eof)
  | .aborted _ => false

theorem written_follow (codec : ChunkCodec) {last : Heard S} (final : ¬last.Chunk) :
    written (S := S) (follow codec last.exit) = if atEnd last.exit then sseDone else [] := by
  obtain ⟨exit, events⟩ := last
  match exit with
  | .returned (chunk, none) => exact absurd ⟨chunk, rfl⟩ final
  | .returned (_, some err) =>
      show written (if err.is .eof then wrote sseDone else []) = if err.is .eof then sseDone else []
      split
      · exact written_wrote _
      · rfl
  | .aborted _ => rfl

theorem written_heard (codec : ChunkCodec) {through : List (Heard S)}
    {chunks : List ChatStreamChunk}
    (same : through.map Heard.exit = chunks.map fun chunk => .returned (some chunk, none)) :
    written (through.flatMap (Heard.trace codec)) = chunks.flatMap fun chunk =>
    sseChunk codec (some chunk) := by
  induction through generalizing chunks with
  | nil =>
      obtain rfl := List.map_eq_nil_iff.mp same.symm
      rfl
  | cons h through ih =>
      obtain ⟨chunk, rest, rfl, first, later⟩ := List.map_eq_cons_iff.mp same.symm
      rw [List.flatMap_cons, List.flatMap_cons, written_append, ih later.symm, Heard.trace, ← first,
        written_append, written_passed, List.nil_append, follow, written_wrote]

theorem written_story {codec : ChunkCodec} {through : List (Heard S)} {final : Heard S}
    {closing : List (Event S)} {headers : List (String × String)} {chunks : List ChatStreamChunk}
    (same : through.map Heard.exit = chunks.map fun chunk => .returned (some chunk, none))
    (stops : ¬final.Chunk) (some' : chunks ≠ []) :
    written (headed headers ++ (told codec through ++ ending codec final through) ++
        passed closing) = body codec chunks (atEnd final.exit) := by
  obtain ⟨first, rest, rfl⟩ := List.exists_cons_of_ne_nil some'
  obtain ⟨h, more, rfl, heard, later⟩ := List.map_eq_cons_iff.mp same
  have status (tail : List (Event (effects.sum S))) : written (own (.status 200) () :: tail) =
    written tail := rfl
  have begins : written (S := S) (follow codec h.exit) = sseChunk codec (some first) := by
    rw [heard]
    exact written_wrote _
  simp only [told, ending, written_append, written_headed, written_passed, status, begins,
    written_heard codec later, Heard.trace, written_follow codec stops, body, List.flatMap_cons,
    List.nil_append, List.append_nil, List.append_assoc]

/-! Reading it back -/

/-- What is assumed of `encoding/json` on some chunks: each is an object without a
raw line break, and decoding undoes encoding. -/
structure Lawful (codec : ChunkCodec) (chunks : List ChatStreamChunk) : Prop where
  object : ∀ chunk ∈ chunks, (codec.marshal (some chunk)).head? = some 123
  unbroken : ∀ chunk ∈ chunks, 10 ∉ codec.marshal (some chunk) ∧ 13 ∉ codec.marshal (some chunk)
  decodes : ∀ chunk ∈ chunks, codec.unmarshal (codec.marshal (some chunk)) = .ok chunk

def dataLine (value : Bytes) : Bytes := utf8 "data: " ++ value

def eventLines (values : List Bytes) : List Bytes :=
  values.flatMap fun value => [dataLine value, []]

def payloads (codec : ChunkCodec) (chunks : List ChatStreamChunk) (ended : Bool) : List Bytes :=
  chunks.map (fun chunk => codec.marshal (some chunk)) ++ if ended then [utf8 "[DONE]"] else []

theorem body_eq (codec : ChunkCodec) (chunks : List ChatStreamChunk) (ended : Bool) :
    body codec chunks ended = (payloads codec chunks ended).flatMap fun value =>
    dataLine value ++ [10, 10] := by
  have tail : utf8 "\n\n" = [10, 10] := by decide
  rw [body, payloads, List.flatMap_append, List.flatMap_map]
  simp only [sseChunk, tail, dataLine]
  cases ended with
  | false => rfl
  | true =>
      congr 1

/-- A value that one line can carry. -/
structure Carried (value : Bytes) : Prop where
  unbroken : 10 ∉ value ∧ 13 ∉ value
  fits : (dataLine value ++ [10, 10]).length ≤ maxSSEEventBytes

theorem dataLine_clean {value : Bytes} (carried : Carried value) :
    10 ∉ dataLine value ∧ 13 ∉ dataLine value := by
  simp only [dataLine, List.mem_append, not_or]
  exact ⟨⟨by decide, carried.unbroken.1⟩, by decide, carried.unbroken.2⟩

theorem trimSuffix_of_notMem {byte : UInt8} {text : Bytes} (clean : byte ∉ text) :
    trimSuffix byte text = text :=
  if_neg fun last => clean (List.mem_of_getLast? last)

theorem dataLine_length {value : Bytes} (carried : Carried value) :
    (dataLine value).length + 2 ≤ maxSSEEventBytes := by
  have fits := carried.fits
  rwa [List.length_append] at fits

theorem rawLines_events {values : List Bytes} (carried : ∀ value ∈ values, Carried value) :
    rawLines (values.flatMap fun value => dataLine value ++ [10, 10]) = eventLines values := by
  induction values with
  | nil => rfl
  | cons value values ih =>
      obtain ⟨first, later⟩ := List.forall_mem_cons.mp carried
      rw [List.flatMap_cons, List.append_assoc]
      have blank : ([] : Bytes) ++ 10 :: values.flatMap (fun value => dataLine value ++ [10, 10]) =
          10 :: values.flatMap (fun value => dataLine value ++ [10, 10]) := rfl
      have split := rawLines_append (dataLine_clean first).1
        (10 :: values.flatMap fun value => dataLine value ++ [10, 10])
      rw [← blank, rawLines_append List.not_mem_nil, ih later] at split
      exact split

theorem eventLines_clean {values : List Bytes} (carried : ∀ value ∈ values, Carried value) :
    (eventLines values).map (trimSuffix 13) = eventLines values := by
  rw [eventLines, List.map_flatMap]
  apply List.flatMap_congr
  intro value member
  rw [List.map_cons, List.map_singleton,
    trimSuffix_of_notMem (dataLine_clean (carried value member)).2]
  rfl

theorem readLines_of_short {lines : List Bytes}
    (short : ∀ line ∈ lines, line.length < maxSSEEventBytes) :
    readLines lines = (lines.map (trimSuffix 13)).map .line := by
  induction lines with
  | nil => rfl
  | cons line lines ih =>
      obtain ⟨first, later⟩ := List.forall_mem_cons.mp short
      rw [readLines, if_neg (Nat.not_le.mpr first), ih later]
      rfl

theorem eventLines_short {values : List Bytes} (carried : ∀ value ∈ values, Carried value) :
    ∀ line ∈ eventLines values, line.length < maxSSEEventBytes := by
  intro line member
  obtain ⟨value, inside, among⟩ := List.mem_flatMap.mp member
  have fits := dataLine_length (carried value inside)
  rcases List.mem_cons.mp among with rfl | blank
  · omega
  · rw [List.mem_singleton.mp blank, List.length_nil]
    omega

theorem eventLines_room {values : List Bytes} (carried : ∀ value ∈ values, Carried value) :
    Room 0 (eventLines values) := by
  induction values with
  | nil => trivial
  | cons value values ih =>
      obtain ⟨first, later⟩ := List.forall_mem_cons.mp carried
      have fits := dataLine_length first
      have full : (dataLine value).isEmpty = false := rfl
      have line : 0 + ((dataLine value).length + 1) ≤ maxSSEEventBytes := by omega
      have blank : 0 + ((dataLine value).length + 1) + (([] : Bytes).length + 1) ≤
          maxSSEEventBytes := by
        rw [List.length_nil]
        omega
      refine ⟨line, ?_⟩
      rw [full]
      exact ⟨blank, ih later⟩

theorem dataOf_dataLine (value : Bytes) : dataOf (dataLine value) = some value := by
  have line : dataLine value = utf8 "data:" ++ 32 :: value := by
    rw [dataLine, show utf8 "data: " = utf8 "data:" ++ [32] by decide, List.append_assoc]
    rfl
  have rest : (utf8 "data:" ++ 32 :: value).drop 5 = 32 :: value := List.drop_left' (by decide)
  rw [dataOf_eq, fieldValue, line, if_pos (List.prefix_append _ _), rest]
  rfl

theorem events_eventLines (values : List Bytes) :
    events (eventLines values) = values.map fun value => [value] := by
  rw [events_eq]
  induction values with
  | nil => rfl
  | cons value values ih =>
      have full : (dataLine value).isEmpty = false := rfl
      rw [eventLines, List.flatMap_cons, List.cons_append, gather, full, dataOf_dataLine]
      exact congrArg ([value] :: ·) ih

/-- The scanner delivers the lines as they were written. -/
theorem newSSEStream_events {values : List Bytes} (carried : ∀ value ∈ values, Carried value) :
    newSSEStream (values.flatMap fun value => dataLine value ++ [10, 10]) =
      ⟨(eventLines values).map .line, false⟩ := by
  rw [newSSEStream, rawLines_events carried, readLines_of_short (eventLines_short carried),
    eventLines_clean carried]

section Chunks

variable {codec : ChunkCodec} {chunks : List ChatStreamChunk} (lawful : Lawful codec chunks)
include lawful

/-- An object is no `[DONE]`: its first byte is no space and stays. -/
theorem payload_not_done {chunk : ChatStreamChunk} (member : chunk ∈ chunks) :
    ¬IsDone [codec.marshal (some chunk)] := by
  intro stops
  obtain ⟨rest, object⟩ := List.head?_eq_some_iff.mp (lawful.object chunk member)
  have starts : ∀ mark ∈ encodedSpaces, mark ≠ [] ∧ mark.head? ≠ some 123 := by decide
  have plain : encodedSpaces.find? (fun mark => mark.isPrefixOf (123 :: rest)) = none := by
    rw [List.find?_eq_none]
    intro mark member
    obtain ⟨full, other⟩ := starts mark member
    cases mark with
    | nil => exact absurd rfl full
    | cons byte more =>
        intro leads
        obtain ⟨same, -⟩ := List.cons_prefix_cons.mp (List.isPrefixOf_iff_prefix.mp leads)
        exact other (congrArg some same)
  have kept := trimSpaceBytes_cons plain
  have single : [10].intercalate [codec.marshal (some chunk)] = 123 :: rest := by simpa using object
  rw [IsDone, single] at stops
  rw [stops] at kept
  obtain ⟨same, -⟩ := List.cons_prefix_cons.mp (show 91 :: utf8 "DONE]" <+: 123 :: rest from kept)
  exact absurd same (by decide)

theorem payload_decodes {chunk : ChatStreamChunk} (member : chunk ∈ chunks)
    (complete : chunk.id ≠ "" ∧ chunk.object = "chat.completion.chunk") :
    decodeSSEData codec [codec.marshal (some chunk)] = (some chunk, none) := by
  have single : [10].intercalate [codec.marshal (some chunk)] = codec.marshal (some chunk) := by
    simp
  have other := payload_not_done lawful member
  rw [IsDone] at other
  rw [decodeSSEData, if_neg other, single, lawful.decodes chunk member]
  simp [complete.1, complete.2]

theorem body_decodings (ended : Bool)
    (complete : ∀ chunk ∈ chunks, chunk.id ≠ "" ∧ chunk.object = "chat.completion.chunk") :
    decodings codec ((payloads codec chunks ended).map fun value => [value]) = chunks.map
      fun chunk => (some chunk, none) := by
  have through : ∀ values ∈ (chunks.map fun chunk => codec.marshal (some chunk)).map
      fun value => [value], (!decide (IsDone values)) = true := by
    intro values member
    rw [List.map_map] at member
    obtain ⟨chunk, inside, rfl⟩ := List.mem_map.mp member
    simpa using payload_not_done lawful inside
  have stops : ((if ended then [utf8 "[DONE]"] else []).map fun value => [value]).takeWhile
      (fun values => !decide (IsDone values)) = [] := by
    cases ended <;> decide
  rw [decodings, payloads, List.map_append, List.takeWhile_append_of_pos through, stops,
    List.append_nil, List.map_map, List.map_map]
  exact List.map_congr_left fun chunk member => payload_decodes lawful member
    (complete chunk member)

variable (fits : ∀ chunk ∈ chunks, (sseChunk codec (some chunk)).length ≤ maxSSEEventBytes)
include fits

theorem payloads_carried (ended : Bool) : ∀ value ∈ payloads codec chunks ended, Carried value := by
  intro value member
  rcases List.mem_append.mp member with among | last
  · obtain ⟨chunk, inside, rfl⟩ := List.mem_map.mp among
    exact ⟨lawful.unbroken chunk inside, fits chunk inside⟩
  · cases ended with
    | false => exact absurd last List.not_mem_nil
    | true =>
        rw [List.mem_singleton.mp last]
        exact ⟨by decide, by decide⟩

theorem body_lines (ended : Bool) : (rawLines (body codec chunks ended)).map (trimSuffix 13) =
    eventLines (payloads codec chunks ended) := by
  have carried := payloads_carried lawful fits ended
  rw [body_eq, rawLines_events carried, eventLines_clean carried]

theorem body_events (ended : Bool) :
    events (lines ((rawLines (body codec chunks ended)).map (trimSuffix 13))) =
      (payloads codec chunks ended).map fun value => [value] := by
  rw [body_lines lawful fits, lines, eventLines_clean (payloads_carried lawful fits ended),
    events_eventLines]

theorem recvs_body
    (complete : ∀ chunk ∈ chunks, chunk.id ≠ "" ∧ chunk.object = "chat.completion.chunk")
    (ended : Bool) (calls : Nat) :
    recvs codec calls (newSSEStream (body codec chunks ended)) = (List.range calls).map fun call =>
    (chunks.map fun chunk => (some chunk, none)).getD call endOfStream := by
  have carried := payloads_carried lawful fits ended
  have clean := eventLines_clean carried
  rw [body_eq, newSSEStream_events carried,
    recvs_lines codec (by rw [lines, clean]; exact eventLines_room carried), expected, lines, clean,
    events_eventLines, body_decodings lawful ended complete]

end Chunks

/-! The handler over any stream -/

section Metered

open Service.GatewayService (Metered panicIn panicOf panicIn_eq_none concluded_calm concluded_panic)

variable {g : Service.GatewayService upstreamCalls} {m : Metered upstreamCalls} {source : Nat}
  {name : Option String} (inner : m.inner = some (upstreamStream source name))
  {events : List (Event (Service.effects.sum upstreamCalls))}
include inner

theorem metered_hears : Hears (g.metered m) (behind receivedOf) := by
  intro h heard
  obtain ⟨received, seen, same, calm⟩ :=
    Service.GatewayService.recv_seen inner upstream_recv_returns upstream_heard heard
  refine ⟨received, seen, ?_⟩
  cases met : panicIn h.events with
  | none => exact .inl (same.trans (concluded_calm met received))
  | some reason =>
      refine .inr ⟨?_, reason, same.trans (concluded_panic met received)⟩
      cases err : received.2 with
      | none =>
          rw [calm err] at met
          cases met
      | some _ => rfl

theorem metered_returns {exit : Exit Received} (runs : (g.metered m).Recv.Runs events exit)
    (calm : events.filterMap panicOf = []) : ∃ received, exit = .returned received := by
  obtain ⟨received, -, same, -⟩ :=
    Service.GatewayService.recv_seen inner upstream_recv_returns upstream_heard runs
  exact ⟨received, same.trans (concluded_calm (panicIn_eq_none.mpr calm) received)⟩

theorem metered_closes {exit : Exit (Option Err)} (runs : (g.metered m).Close.Runs events exit)
    (calm : events.filterMap panicOf = []) : ∃ failed, exit = .returned failed := by
  obtain ⟨failed, _, _, -, -, -, same⟩ :=
    Service.GatewayService.close_runs inner upstream_close_returns runs
  exact ⟨failed, same.trans (concluded_calm (panicIn_eq_none.mpr calm) failed)⟩

end Metered

/-- What the handler relays is read back as the same chunks, and then as the end. The
handler returns unless the observer panics. -/
theorem sse_relay_round_trip {codec : ChunkCodec} {chunks : List ChatStreamChunk}
    (lawful : Lawful codec chunks) (some' : chunks ≠ [])
    (complete : ∀ chunk ∈ chunks, chunk.id ≠ "" ∧ chunk.object = "chat.completion.chunk")
    (fits : ∀ chunk ∈ chunks, (sseChunk codec (some chunk)).length ≤ maxSSEEventBytes)
    {gateway : Service.GatewayService upstreamCalls} (asked : gateway.chat = upstream)
    {req : ChatRequest} {metadata : Service.RequestMetadata} {rounds : Nat}
    {last : Option ChatStreamChunk} {err : Err}
    {trace : List (Event (effects.sum (Service.effects.sum upstreamCalls)))} {exit : Exit Unit}
    {early : List (Event (Service.effects.sum upstreamCalls))}
    {result : Service.StreamResult upstreamCalls}
    (runs : (streamChatCompletions codec rounds gateway req metadata).Runs trace exit)
    (opened : (gateway.ChatStream req metadata).Runs early (.returned (.ok result)))
    (begins : passed early <+: trace) (delivered : Delivered trace)
    (started : trace.filterMap (behind (behind receivedOf)) ≠ [])
    (yields : trace.filterMap (behind (behind receivedOf)) <+: script chunks last err)
    (enough : chunks.length ≤ rounds) :
    (trace.filterMap (behind Service.GatewayService.panicOf) = [] → exit = .returned ()) ∧
    (∀ calls, recvs codec calls (newSSEStream (written trace)) = (List.range calls).map fun call =>
      (chunks.map fun chunk => (some chunk, none)).getD call endOfStream) ∧
    (err.is .eof = false →
      ∀ values ∈ events (lines ((rawLines (written trace)).map (trimSuffix 13))),
      ¬IsDone values) := by
  obtain ⟨late, rfl, relays⟩ := streamChatCompletions_relays runs opened begins
  obtain ⟨m, before, during, opens, passing, rfl, wraps, -⟩ :=
    Service.GatewayService.chatStream_opens opened
  rw [asked] at opens
  obtain ⟨unheard, streams⟩ := upstream_opens opens
  have quiet : (passed
        (before ++ (Service.GatewayService.passed during ++
          [Service.GatewayService.own .newStream m.stream]))).filterMap
      (behind (behind receivedOf)) = [] := by
    rw [behind_relayed, List.filterMap_append, List.filterMap_append, passing.owned.unseen,
      Service.GatewayService.passed, behind_passed, unheard]
    rfl
  rw [List.filterMap_append, quiet, List.nil_append] at started yields
  rw [wraps] at relays
  -- A typed nil stream panics at the first `Recv`, before anything is heard.
  rcases streams with none' | ⟨source, name, inner⟩
  · have recv : (gateway.metered m).Recv = nilDereference := by
      rw [Service.GatewayService.metered, Service.GatewayService.Recv, none']
    have close : (gateway.metered m).Close = nilDereference := by
      rw [Service.GatewayService.metered, Service.GatewayService.Close, none']
    rw [relayClosing_nil recv close relays, behind_headed] at started
    exact absurd rfl started
  · obtain ⟨through, final, closing, closed, same, how, -, ended, -, closes, rfl, rfl⟩ :=
      relayClosing_reads (metered_hears inner) enough delivered.right yields relays
    have stops : ¬final.Chunk := by
      rintro ⟨chunk, chunkwise⟩
      rcases how with returned | ⟨reason, aborted⟩
      · rw [returned] at chunkwise
        cases chunkwise
      · rw [aborted] at chunkwise
        cases chunkwise
    have eof : atEnd final.exit = true → err.is .eof = true := by
      rcases how with returned | ⟨reason, aborted⟩
      · rw [returned]
        exact id
      · rw [aborted]
        intro reached
        exact absurd reached Bool.false_ne_true
    rw [written_append, written_passed, List.nil_append, written_story same stops some']
    refine ⟨fun calm => ?_, recvs_body lawful fits complete _, fun failed values member => ?_⟩
    · rw [List.filterMap_append, List.filterMap_append, List.filterMap_append,
        List.filterMap_append, behind_ending, behind_relayed _ closing] at calm
      simp only [List.append_eq_nil_iff] at calm
      obtain ⟨-, ⟨-, -, ends⟩, shuts⟩ := calm
      obtain ⟨received, returned⟩ := metered_returns inner ended ends
      obtain ⟨failed, rfl⟩ := metered_closes inner closes shuts
      rw [returned]
      rfl
    · have broken : atEnd final.exit = false := by
        cases found : atEnd final.exit with
        | false => rfl
        | true =>
            rw [eof found] at failed
            cases failed
      rw [body_events lawful fits, broken, payloads, List.map_append] at member
      simp only [Bool.false_eq_true, if_false, List.map_nil, List.append_nil,
        List.map_map] at member
      obtain ⟨chunk, inside, rfl⟩ := List.mem_map.mp member
      exact payload_not_done lawful inside

/-! One chunk relayed -/

section Sample

open SseStream (sampleChunk sampleCodec)

def relayGateway : Service.GatewayService upstreamCalls :=
  Service.NewGatewayService Service.sampleCodec upstream ⟨false, false, false, false, false,
    "upstream"⟩

def relayRequest : ChatRequest := ⟨"m", [⟨"user", "hello"⟩], none, none, none, true⟩

def relayMetadata : Service.RequestMetadata := ⟨[], "", "id"⟩

def relayOpening : List (Event (Service.effects.sum upstreamCalls)) :=
  [⟨.inr (.chatStream relayRequest), .ok (some (0, none))⟩, ⟨.inl .newStream, (0 : Nat)⟩]

def relayResult : Service.StreamResult upstreamCalls :=
  ⟨relayGateway.metered ⟨some (upstreamStream 0 none), 0, "id", "upstream", "m"⟩, "id", "upstream",
    Service.GatewayService.unlimited⟩

def relayChunk : List (Event (Service.effects.sum upstreamCalls)) :=
  [⟨.inr (.recv 0), (some sampleChunk, none)⟩]

def relayEnd : List (Event (Service.effects.sum upstreamCalls)) :=
  [⟨.inr (.recv 0), (none, some .eof)⟩, ⟨.inl (.enterOnce 0), true⟩, ⟨.inl .cancel, ()⟩,
    ⟨.inl (.loadUsage 0), ChatUsage.zero⟩, ⟨.inl (.observeTokens "upstream" .zero), none⟩,
    ⟨.inl (.leaveOnce 0), ()⟩]

def relayClose : List (Event (Service.effects.sum upstreamCalls)) :=
  [⟨.inr (.close 0), none⟩, ⟨.inl (.enterOnce 0), false⟩]

def relayed : List (Event (effects.sum (Service.effects.sum upstreamCalls))) :=
  passed relayOpening ++ (headed [("X-Request-ID", "id"), ("X-ModelGate-Provider", "upstream")] ++
    (passed relayChunk ++
      (headed eventStream ++ own (.status 200)
        () :: (wrote (sseChunk sampleCodec (some sampleChunk)) ++
        (passed relayEnd ++ (wrote sseDone ++ passed relayClose))))))

theorem sampleCodec_lawful : Lawful sampleCodec [sampleChunk] := by
  refine ⟨?_, ?_, ?_⟩ <;> intro chunk member <;> obtain rfl := List.mem_singleton.mp member
  · decide
  · decide
  · rfl

theorem sse_relay_round_trip_once :
    SseStream.recvs sampleCodec 3 (newSSEStream (written relayed)) =
      [(some sampleChunk, none), endOfStream, endOfStream] := by
  have opened : (relayGateway.ChatStream relayRequest relayMetadata).Runs relayOpening
      (.returned (.ok relayResult)) := by
    repeat' apply Program.Leads.step
    exact .refl _
  have runs : (streamChatCompletions sampleCodec 1 relayGateway relayRequest relayMetadata).Runs
      relayed (.returned ()) := by
    repeat' apply Program.Leads.step
    exact .refl _
  have delivered : Delivered relayed := by
    intro text failed member
    simp [relayed, passed, headed, wrote, own, Event.along, Embedding.inr, eventStream] at member
    rcases member with ⟨_, rfl⟩ | ⟨_, rfl⟩ <;> rfl
  have heard : relayed.filterMap (behind (behind receivedOf)) = script [sampleChunk] none .eof :=
    rfl
  have started : relayed.filterMap (behind (behind receivedOf)) ≠ [] := by
    rw [heard]
    exact List.cons_ne_nil _ _
  have yields : relayed.filterMap (behind (behind receivedOf)) <+: script [sampleChunk] none .eof :=
    ⟨[], heard⟩
  have complete : ∀ chunk ∈ [sampleChunk], chunk.id ≠ "" ∧
      chunk.object = "chat.completion.chunk" := by
    decide
  have fits : ∀ chunk ∈ [sampleChunk], (sseChunk sampleCodec (some chunk)).length ≤
      maxSSEEventBytes := by
    intro chunk member
    obtain rfl := List.mem_singleton.mp member
    decide
  exact (sse_relay_round_trip sampleCodec_lawful (List.cons_ne_nil _ _) complete fits rfl runs
    opened ⟨_, rfl⟩ delivered started yields (Nat.le_refl 1)).2.1 3

end Sample

end ModelGate.Api
