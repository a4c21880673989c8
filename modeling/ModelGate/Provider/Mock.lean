import ModelGate.Data.Text
import ModelGate.Data.Words
import ModelGate.Errors
import ModelGate.Provider.Types

/-! The mock provider, and what its stream says of the answer it gives at once.

A context is read as the error it is done with, if any. The clock is an
argument of the operations that read it.
-/

set_option autoImplicit false

namespace ModelGate.Provider

open Data

/-- `strings.Fields`. -/
def Fields (text : String) : List String := (fields isSpace text.toList).map String.ofList

structure MockProvider where
  sequence : UInt64

def NewMockProvider : MockProvider := ⟨0⟩

def lastUserMessage (messages : List ChatMessage) : Option ChatMessage :=
  messages.reverse.find? fun message => message.role = "user"

def mockContent (messages : List ChatMessage) : String :=
  match lastUserMessage messages with
  | some message => "Mock response: " ++ trimSpace message.content
  | none => "ModelGate mock response"

def splitMockContent (content : String) : List String :=
  (Fields content).mapIdx fun index word => if index > 0 then " " ++ word else word

/-- `sequence.Add(1)` and the identifier made of it. -/
def MockProvider.nextID (p : MockProvider) : MockProvider × String :=
  (⟨p.sequence + 1⟩, "chatcmpl-mock-" ++ toString (p.sequence + 1))

def MockProvider.Chat (p : MockProvider) (done : Option ContextError) (now : Int)
    (req : ChatRequest) : MockProvider × Except Err ChatResponse :=
  match done with
  | some err => (p, .error (.ofContext err))
  | none =>
      let content := mockContent req.messages
      let (p, id) := p.nextID
      (p, .ok {
        provider := "", id, object := "chat.completion", created := now, model := req.model
        choices := [⟨0, ⟨"assistant", content⟩, "stop"⟩]
        usage := .zero })

structure MockStream where
  chunks : List ChatStreamChunk
  index : Nat
  closed : Bool

def MockProvider.ChatStream (p : MockProvider) (done : Option ContextError) (now : Int)
    (req : ChatRequest) : MockProvider × Except Err MockStream :=
  match done with
  | some err => (p, .error (.ofContext err))
  | none =>
      let content := mockContent req.messages
      let (p, id) := p.nextID
      let chunk (delta : ChatDelta) (finishReason : Option String) : ChatStreamChunk :=
        ⟨id, "chat.completion.chunk", now, req.model, [⟨0, delta, finishReason⟩], none⟩
      let chunks := [chunk ⟨"assistant", ""⟩ none] ++ (splitMockContent content).map
        (fun part => chunk ⟨"", part⟩ none) ++ [chunk ⟨"", ""⟩ (some "stop")]
      (p, .ok ⟨chunks, 0, false⟩)

def MockStream.Recv (s : MockStream) (done : Option ContextError) :
    MockStream × Option ChatStreamChunk × Option Err :=
  if s.closed then (s, none, some .eof)
  else
    match s.chunks[s.index]? with
    | none => (s, none, some .eof)
    | some chunk =>
        match done with
        | some err => (s, none, some (.ofContext err))
        | none => ({ s with index := s.index + 1 }, some chunk, none)

def MockStream.Close (s : MockStream) : MockStream × Option Err := ({ s with closed := true }, none)

/-- The chunks a caller gets that calls `Recv` until `io.EOF`, under a context that is never
done. -/
inductive MockStream.Received : MockStream → List ChatStreamChunk → Prop where
  | eof {s next : MockStream} : s.Recv none = (next, none, some .eof) → Received s []
  | chunk {s next : MockStream} {first : ChatStreamChunk} {rest : List ChatStreamChunk} :
      s.Recv none = (next, some first, none) → Received next rest → Received s (first :: rest)

def deltaContent (chunks : List ChatStreamChunk) : String :=
  String.join (chunks.flatMap fun chunk => chunk.choices.map fun choice => choice.delta.content)

theorem MockStream.received_drop {s : MockStream} (opened : s.closed = false) :
    s.Received (s.chunks.drop s.index) := by
  induction left : s.chunks.length - s.index generalizing s with
  | zero =>
      have past : s.chunks.length ≤ s.index := Nat.le_of_sub_eq_zero left
      rw [List.drop_eq_nil_of_le past]
      have ended : s.Recv none = (s, none, some .eof) := by
        simp [Recv, opened, List.getElem?_eq_none past]
      exact .eof ended
  | succ count ih =>
      have inside : s.index < s.chunks.length := by omega
      rw [List.drop_eq_getElem_cons inside]
      have received : s.Recv none = ({ s with index := s.index + 1 }, some s.chunks[s.index],
          none) := by
        simp [Recv, opened, inside]
      exact .chunk received (ih opened (by dsimp only; omega))

theorem MockStream.Received.unique {s : MockStream} {first second : List ChatStreamChunk}
    (once : s.Received first) (again : s.Received second) : first = second := by
  induction once generalizing second with
  | eof ended =>
      cases again with
      | eof _ => rfl
      | chunk received _ => cases ended.symm.trans received
  | chunk received _ ih =>
      cases again with
      | eof ended => cases ended.symm.trans received
      | chunk received' rest =>
          cases received.symm.trans received'
          rw [ih rest]

/-- From a fresh stream a caller gets its chunks, in order and nothing else. -/
theorem MockStream.received_iff {s : MockStream} (opened : s.closed = false)
    (chunks : List ChatStreamChunk) : s.Received chunks ↔ chunks = s.chunks.drop s.index := by
  constructor
  · intro received
    exact received.unique (received_drop opened)
  · rintro rfl
    exact received_drop opened

theorem join_splitMockContent (content : String) :
    (String.join (splitMockContent content)).toList =
      [' '].intercalate (fields isSpace content.toList) := by
  rw [splitMockContent, Fields, String.toList_join]
  cases fields isSpace content.toList with
  | nil => rfl
  | cons word words =>
      rw [List.map_cons, List.mapIdx_cons, List.flatMap_cons, intercalate_cons_flatMap]
      have others : (words.map String.ofList).mapIdx (fun index word =>
          if index + 1 > 0 then " " ++ word else word) = words.map fun word =>
            " " ++ String.ofList word := by
        apply List.ext_getElem <;> simp
      rw [others, List.flatMap_map]
      simp

/-- The last user message, trimmed, is not blank and has single spaces between its words. -/
def StreamsVerbatim (messages : List ChatMessage) : Prop :=
  ∀ message ∈ lastUserMessage messages,
    trimSpace message.content ≠ "" ∧ SingleSpaced isSpace ' ' (trimSpace message.content).toList

theorem fields_greeting (text : List Char) :
    fields isSpace ("Mock response: ".toList ++ text) = "Mock".toList :: "response:".toList ::
      fields isSpace text := by
  have shape : "Mock response: ".toList ++ text =
      "Mock".toList ++ ' ' :: ("response:".toList ++ ' ' :: text) := by
    simp
  have words : (∀ c ∈ "Mock".toList, isSpace c = false) ∧
      ∀ c ∈ "response:".toList, isSpace c = false := by
    simp [isSpace]
  rw [shape, fields_append_cons (by decide), fields_append_cons (by decide),
    fields_word (by decide) words.1, fields_word (by decide) words.2]
  rfl

theorem trimSpace_trimmed (text : String) : Trimmed isSpace (trimSpace text).toList := by
  rw [trimSpace, String.toList_ofList]
  exact trimmed_dropWhile _

theorem greeting_restored_iff {text : List Char} (trimmed : Trimmed isSpace text) :
    [' '].intercalate ("Mock".toList :: "response:".toList :: fields isSpace text) =
      "Mock response: ".toList ++ text ↔ text ≠ [] ∧ SingleSpaced isSpace ' ' text := by
  cases text with
  | nil =>
      -- Nothing follows the greeting, whose own last space is then no part of any word.
      simp [fields]
  | cons letter more =>
      have words := fields_ne_nil (trimmed.front letter rfl) more
      have shape : [' '].intercalate
          ("Mock".toList :: "response:".toList :: fields isSpace (letter :: more)) =
          "Mock response: ".toList ++ [' '].intercalate (fields isSpace (letter :: more)) := by
        rw [List.intercalate_cons_cons, List.intercalate_cons_of_ne_nil words]
        simp
      rw [shape, List.append_cancel_left_eq, intercalate_fields_iff (List.cons_ne_nil _ _) trimmed]
      simp

theorem join_mockContent_iff (messages : List ChatMessage) :
    String.join (splitMockContent (mockContent messages)) = mockContent messages ↔
    StreamsVerbatim messages := by
  rw [StreamsVerbatim, ← String.toList_inj, join_splitMockContent, mockContent]
  cases lastUserMessage messages with
  | none =>
      have fixed : [' '].intercalate (fields isSpace "ModelGate mock response".toList) =
          "ModelGate mock response".toList := by decide
      simp only [fixed, Option.not_mem_none, false_imp_iff, implies_true]
  | some message =>
      have nonempty : trimSpace message.content ≠ "" ↔ (trimSpace message.content).toList ≠ [] := by
        simp
      simp only [String.toList_append, fields_greeting, Option.mem_some_iff, forall_eq', nonempty]
      exact greeting_restored_iff (trimSpace_trimmed message.content)

theorem deltaContent_chatStream {p : MockProvider} {now : Int} {req : ChatRequest}
    {stream : MockStream} (opens : (p.ChatStream none now req).2 = .ok stream) :
    deltaContent stream.chunks = String.join (splitMockContent (mockContent req.messages)) := by
  cases opens
  apply String.toList_inj.mp
  simp [deltaContent, String.toList_join, List.flatMap_map]

/-- A stream of the mock says what its answer says, exactly when the last user message is
single spaced. -/
theorem mock_stream_agrees_iff (p q : MockProvider) (opened answered : Int) (req : ChatRequest) :
    ∃ stream response chunks, (p.ChatStream none opened req).2 = .ok stream ∧
    (q.Chat none answered req).2 = .ok response ∧
    (∀ received, stream.Received received ↔ received = chunks) ∧
    (response.choices.map (fun choice => choice.message.content) = [deltaContent chunks] ↔
      StreamsVerbatim req.messages) := by
  refine ⟨_, _, _, rfl, rfl, MockStream.received_iff rfl, ?_⟩
  rw [List.drop_zero, deltaContent_chatStream rfl, ← join_mockContent_iff]
  simp only [List.map_cons, List.map_nil, List.cons.injEq, and_true]
  exact eq_comm

/-- Two spaces in a message: the stream says one of them. -/
theorem mock_stream_drops_space :
    ∃ stream response chunks,
    (NewMockProvider.ChatStream none 0 ⟨"mock", [⟨"user", "a  b"⟩], none, none, none, true⟩).2 =
      .ok stream ∧ (NewMockProvider.Chat none 0 ⟨"mock", [⟨"user", "a  b"⟩], none, none, none,
        true⟩).2 = .ok response ∧ stream.Received chunks ∧
    deltaContent chunks = "Mock response: a b" ∧
    response.choices.map (fun choice => choice.message.content) = ["Mock response: a  b"] := by
  refine ⟨_, _, _, rfl, rfl, MockStream.received_drop rfl, ?_, by decide⟩
  decide

end ModelGate.Provider
