import ModelGate.Data.Blocks
import ModelGate.Provider.SseStream

/-! The event grammar of a stream of lines, and that `Recv` reads it.

An event is a block of non-empty lines with a line `data:` in it. What the
calls of `Recv` return is the events one by one, whatever else the blocks hold.
-/

set_option autoImplicit false

namespace ModelGate.Provider.SseStream

open Data

/-! The grammar -/

/-- The value of a line `data:`, without one leading space. -/
def fieldValue (line : Bytes) : Option Bytes :=
  if utf8 "data:" <+: line then some (trimPrefix 32 (line.drop 5)) else none

/-- The maximal blocks of non-empty lines. -/
def blocks (lines : List Bytes) : List (List Bytes) :=
  (lines.splitOnP List.isEmpty).filter (!·.isEmpty)

def events (lines : List Bytes) : List (List Bytes) :=
  ((blocks lines).map (List.filterMap fieldValue)).filter (!·.isEmpty)

def IsDone (values : List Bytes) : Prop := trimSpaceBytes ([10].intercalate values) = utf8 "[DONE]"

instance (values : List Bytes) : Decidable (IsDone values) := inferInstanceAs (Decidable (_ = _))

/-- The events before the first `[DONE]`. -/
def decodings (codec : ChunkCodec) (events : List (List Bytes)) : List Received :=
  (events.takeWhile fun values => !decide (IsDone values)).map (decodeSSEData codec)

def endOfStream : Received := (none, some .eof)

/-- What the first calls of `Recv` have to return. -/
def expected (codec : ChunkCodec) (lines : List Bytes) (calls : Nat) : List Received :=
  (List.range calls).map fun call => (decodings codec (events lines)).getD call endOfStream

/-- No block is over the limit, counting one byte more for each of its lines
and for the blank line that ends it. -/
def WithinLimit (lines : List Bytes) : Prop :=
  BlocksWithin maxSSEEventBytes (fun line : Bytes => line.length + 1) 1
    (lines.splitOnP List.isEmpty)

/-! The loop against the grammar -/

theorem dataOf_eq (line : Bytes) : dataOf line = fieldValue line := by
  have name : utf8 "data:" = utf8 "data" ++ [58] := by decide
  rw [dataOf, fieldValue]
  by_cases starts : utf8 "data:" <+: line
  · obtain ⟨value, rfl⟩ := starts
    have found : cut 58 (utf8 "data:" ++ value) = some (utf8 "data", value) := by
      rw [name, List.append_assoc]
      exact cut_append (by decide) value
    have plain : (utf8 "data:" ++ value).head? ≠ some 58 := by
      rw [show utf8 "data:" = 100 :: utf8 "ata:" by decide]
      simp
    have rest : (utf8 "data:" ++ value).drop 5 = value := List.drop_left' (by decide)
    simp only [if_neg plain, found, ne_eq, not_true_eq_false, if_false,
      if_pos (List.prefix_append _ _), rest]
  · rw [if_neg starts]
    split
    · rfl
    · split
      · rfl
      · rename_i field value found
        have other : field ≠ utf8 "data" := by
          rintro rfl
          apply starts
          rw [name, cut_eq_some found]
          exact ⟨value, by simp⟩
        rw [if_pos other]

theorem events_eq (lines : List Bytes) : events lines = gather List.isEmpty dataOf [] lines := by
  obtain ⟨first, others, split⟩ :=
    List.exists_cons_of_ne_nil (List.splitOnP_ne_nil List.isEmpty lines)
  have agree : dataOf = fieldValue := funext dataOf_eq
  rw [gather_eq split, List.nil_append, ← List.map_cons, ← split, agree, events, blocks]
  -- A block without lines has no values, so leaving it out changes nothing.
  generalize lines.splitOnP List.isEmpty = pieces
  induction pieces with
  | nil => rfl
  | cons piece rest ih =>
      cases piece with
      | nil => simpa using ih
      | cons line more =>
          rw [List.filter_cons_of_pos rfl, List.map_cons, List.map_cons, List.filter_cons,
            List.filter_cons, ih]

def Room (used : Nat) (lines : List Bytes) : Prop :=
  Within List.isEmpty maxSSEEventBytes (fun line : Bytes => line.length + 1) used lines

theorem WithinLimit.room {lines : List Bytes} (within : WithinLimit lines) : Room 0 lines := by
  obtain ⟨first, others, split⟩ :=
    List.exists_cons_of_ne_nil (List.splitOnP_ne_nil List.isEmpty lines)
  have stopped : ∀ line : Bytes, line.isEmpty → line.length + 1 = 1 := by
    intro line empty
    rw [List.isEmpty_iff.mp empty, List.length_nil]
  rw [WithinLimit, split] at within
  apply within_of_blocks stopped split
  · cases others with
    | nil => simpa [BlocksWithin] using within
    | cons block rest => simpa [BlocksWithin] using within.1
  · cases others with
    | nil => trivial
    | cons block rest => exact within.2

/-- The lines of the grammar: what the scanner delivers without a last carriage return. -/
def lines (texts : List Bytes) : List Bytes := texts.map (trimSuffix 13)

/-- The loop returns the next event and stops right after its block. -/
theorem scan_lines (codec : ChunkCodec) (texts : List Bytes) {held : List Bytes} {used : Nat}
    (room : Room used (lines texts)) :
    (gather List.isEmpty dataOf held (lines texts) = [] ∧
      scan codec (texts.map .line) held used = (endOfStream, ⟨[], true⟩)) ∨
    ∃ values left, left <:+ texts ∧ Room 0 (lines left) ∧
    gather List.isEmpty dataOf held (lines texts) =
      values :: gather List.isEmpty dataOf [] (lines left) ∧
    scan codec (texts.map .line) held used = decode codec (left.map .line) values := by
  -- The induction is on the lines the loop still has to read; `held` and `used` are its
  -- `dataLines` and `eventBytes` on entry.
  induction texts generalizing held used with
  | nil =>
      cases held with
      | nil => exact .inl ⟨rfl, rfl⟩
      | cons value more =>
          exact .inr ⟨value :: more, [], List.suffix_refl _, trivial, rfl, by simp [scan]⟩
  | cons text rest ih =>
      obtain ⟨fits, later⟩ := room
      rw [List.map_cons, scan, if_neg (Nat.not_lt.mpr fits)]
      rw [lines, List.map_cons, gather]
      by_cases blank : (trimSuffix 13 text).isEmpty = true
      · rw [if_pos blank] at later
        simp only [if_pos blank]
        -- A blank line ends a block, and one that yielded no data is passed over.
        cases held with
        | nil => exact (ih later).imp_right (continues _)
        | cons value more =>
            exact .inr ⟨value :: more, rest, List.suffix_cons _ _, later, rfl, by simp⟩
      · rw [if_neg blank] at later
        rw [if_neg blank, if_neg blank]
        exact (ih later).imp_right (continues _)
where
  continues (text : Bytes) {rest : List Bytes} {P : List Bytes → List Bytes → Prop} :
    (∃ values left, left <:+ rest ∧ P values left) → ∃ values left, left <:+ text :: rest ∧
    P values left :=
    fun ⟨values, left, suffix, holds⟩ => ⟨values, left, suffix.trans (List.suffix_cons _ _), holds⟩

theorem decodeSSEData_eof {codec : ChunkCodec} {values : List Bytes} :
    (decodeSSEData codec values).2.any isEOF = decide (IsDone values) := by
  by_cases stops : IsDone values
  · have first : trimSpaceBytes ([10].intercalate values) = utf8 "[DONE]" := stops
    simp [decodeSSEData, first, stops, isEOF, Err.eof]
  · have first : ¬trimSpaceBytes ([10].intercalate values) = utf8 "[DONE]" := stops
    rw [decodeSSEData, if_neg first, decide_eq_false stops]
    split
    · rfl
    · split <;> rfl

/-- Only `[DONE]` ends the stream, not an event that does not decode. -/
theorem decode_state (codec : ChunkCodec) (reads : List Read) (values : List Bytes) :
    (decode codec reads values).2 = ⟨reads, decide (IsDone values)⟩ := by
  rw [decode, decodeSSEData_eof]

theorem recv_of_done (codec : ChunkCodec) {s : SseStream} (done : s.done = true) :
    s.Recv codec = (endOfStream, s) := by
  rw [Recv, if_pos done, endOfStream]

theorem recvs_of_done (codec : ChunkCodec) {s : SseStream} (done : s.done = true) (calls : Nat) :
    recvs codec calls s = (List.range calls).map fun _ => endOfStream := by
  induction calls with
  | zero => rfl
  | succ calls ih =>
      rw [recvs, recv_of_done codec done, ih, List.range_succ_eq_map, List.map_cons,
        List.map_map]; rfl

theorem recvs_lines (codec : ChunkCodec) {texts : List Bytes} (room : Room 0 (lines texts))
    (calls : Nat) :
    recvs codec calls ⟨texts.map .line, false⟩ = expected codec (lines texts) calls := by
  induction calls generalizing texts with
  | zero => rfl
  | succ calls ih =>
      have recv : Recv codec ⟨texts.map .line, false⟩ = scan codec (texts.map .line) [] 0 := rfl
      rw [recvs, recv, expected, events_eq, List.range_succ_eq_map, List.map_cons, List.map_map]
      rcases scan_lines codec texts room with ⟨none, returns⟩ |
        ⟨values, left, -, later, next, returns⟩
      · rw [returns, none, recvs_of_done codec rfl]
        rfl
      · rw [returns, next, decodings, List.takeWhile_cons]
        by_cases stops : IsDone values
        · have last : decodeSSEData codec values = endOfStream := if_pos stops
          -- `[DONE]` is returned as the end, and every later call returns the same.
          rw [decode_state, decide_eq_true stops, recvs_of_done codec rfl]
          simp only [Bool.not_true, Bool.false_eq_true, if_false, List.map_nil]
          rw [decode, last]
          rfl
        · rw [decode_state, decide_eq_false stops, ih later, expected, events_eq]
          rfl

theorem after_of_done (codec : ChunkCodec) {s : SseStream} (done : s.done = true) (calls : Nat) :
    s.after codec calls = s := by
  induction calls with
  | zero => rfl
  | succ calls ih => rw [after, recv_of_done codec done, ih]

/-- What is left to read holds exactly the events not returned yet. -/
theorem after_lines (codec : ChunkCodec) {texts : List Bytes} (room : Room 0 (lines texts))
    (calls : Nat) :
    ∃ left, left <:+ texts ∧ (after codec calls ⟨texts.map .line, false⟩).reads = left.map .line ∧
    ((after codec calls ⟨texts.map .line, false⟩).done = false →
      events (lines left) = (events (lines texts)).drop calls) := by
  induction calls generalizing texts with
  | zero => exact ⟨texts, List.suffix_refl _, rfl, fun _ => rfl⟩
  | succ calls ih =>
      have recv : Recv codec ⟨texts.map .line, false⟩ = scan codec (texts.map .line) [] 0 := rfl
      rw [after, recv]
      rcases scan_lines codec texts room with ⟨-, returns⟩ |
        ⟨values, left, suffix, later, next, returns⟩
      · rw [returns, after_of_done codec rfl]
        exact ⟨[], List.nil_suffix, rfl, nofun⟩
      · rw [returns, decode_state]
        by_cases stops : IsDone values
        · rw [decide_eq_true stops, after_of_done codec rfl]
          exact ⟨left, suffix, rfl, nofun⟩
        · rw [decide_eq_false stops]
          obtain ⟨rest, tail, reads, same⟩ := ih later
          refine ⟨rest, tail.trans suffix, reads, fun unfinished => ?_⟩
          rw [same unfinished, events_eq (lines texts), next, List.drop_succ_cons, events_eq]

/-- The results of the calls of `Recv` are those of the grammar, and after each
call the lines left hold exactly the events still to come. -/
theorem recv_reads_events (codec : ChunkCodec) (texts : List Bytes)
    (within : WithinLimit (lines texts)) (calls : Nat) :
    recvs codec calls ⟨texts.map .line, false⟩ = expected codec (lines texts) calls ∧
    ∃ left, left <:+ texts ∧ (after codec calls ⟨texts.map .line, false⟩).reads = left.map .line ∧
    ((after codec calls ⟨texts.map .line, false⟩).done = false →
      events (lines left) = (events (lines texts)).drop calls) :=
  ⟨recvs_lines codec within.room calls, after_lines codec within.room calls⟩

/-! Two events of one chunk, the first on two lines -/

/-- `encoding/json` on the given chunks and texts. -/
def tabulated (entries : List (ChatStreamChunk × Bytes)) : ChunkCodec where
  marshal
    | none => utf8 "null"
    | some chunk => ((entries.find? (·.1 = chunk)).map Prod.snd).getD []
  unmarshal text :=
    match entries.find? (·.2 = text) with
    | some entry => .ok entry.1
    | none => .error (.text "unexpected end of JSON input")

def sampleChunk : ChatStreamChunk := ⟨"chatcmpl-1", "chat.completion.chunk", 0, "m", [], none⟩

def sampleHead : Bytes := utf8 "\x7b\"id\":\"chatcmpl-1\",\"object\":\"chat.completion.chunk\","

def sampleTail : Bytes := utf8 "\"created\":0,\"model\":\"m\",\"choices\":[]\x7d"

/-- A line break between two members of an object is white space. -/
def sampleCodec : ChunkCodec :=
  tabulated [(sampleChunk, sampleHead ++ sampleTail),
    (sampleChunk, sampleHead ++ [10] ++ sampleTail)]

def sampleTexts : List Bytes :=
  [utf8 ": ping", utf8 "event: message", utf8 "data: " ++ sampleHead, utf8 "data:" ++ sampleTail,
    [13], [], utf8 "data: " ++ sampleHead ++ sampleTail, [], utf8 "data: [DONE] "]

theorem recv_reads_events_twice :
    WithinLimit (lines sampleTexts) ∧
      recvs sampleCodec 4 ⟨sampleTexts.map .line, false⟩ =
        [(some sampleChunk, none), (some sampleChunk, none), endOfStream, endOfStream] := by
  have last : weigh (fun line : Bytes => line.length + 1) [utf8 "data: [DONE] "] ≤
      maxSSEEventBytes := by
    decide
  have within : WithinLimit (lines sampleTexts) := ⟨by decide, by decide, by decide, last⟩
  refine ⟨within, ?_⟩
  rw [(recv_reads_events sampleCodec sampleTexts within 4).1]
  rfl

end ModelGate.Provider.SseStream
