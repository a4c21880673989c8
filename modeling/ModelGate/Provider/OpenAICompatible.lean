import ModelGate.Provider.SseStream

/-! `OpenAICompatibleProvider`, by what the HTTP client replies.

An error of the transport comes with the verdict of `retryableTransportError`
on it. A reader of a body gets its content and then its failure, if it has one;
what a scanner meets in the body is kept apart.
-/

set_option autoImplicit false

namespace ModelGate.Provider

open Data

def maxUpstreamResponseBytes : Nat := 4 <<< 20

/-- `encoding/json` on requests and responses. -/
structure ChatCodec where
  marshal : ChatRequest → Except Err Bytes
  unmarshal : Bytes → Except Err ChatResponse

structure TransportError where
  err : Err
  retryable : Bool

structure HttpRequest where
  endpoint : String
  headers : List (String × String)
  body : Bytes

structure HttpResponse where
  statusCode : Int
  /-- What `mime.ParseMediaType` makes of the content type. -/
  mediaType : Option String
  content : Bytes
  failure : Option TransportError
  reads : List Read

/-- `http.NewRequestWithContext` and `Client.Do`. -/
structure HttpClient where
  refuses : HttpRequest → Option Err
  Do : HttpRequest → Except TransportError HttpResponse

structure OpenAICompatibleProvider where
  name : String
  endpoint : String
  apiKey : String

/-- `io.ReadAll` of a limited reader, which does not read on to a failure behind the limit. -/
def readAll (limit : Nat) (resp : HttpResponse) : Except TransportError Bytes :=
  if limit ≤ resp.content.length then .ok (resp.content.take limit)
  else
    match resp.failure with
    | some failed => .error failed
    | none => .ok resp.content

theorem readAll_short {limit : Nat} {resp : HttpResponse} {responseBody : Bytes}
    (read : readAll (limit + 1) resp = .ok responseBody) (short : responseBody.length ≤ limit) :
    resp.failure = none ∧ responseBody = resp.content ∧ resp.content.length ≤ limit := by
  unfold readAll at read
  split at read
  · obtain rfl := Except.ok.inj read
    rw [List.length_take] at short
    omega
  · split at read
    · cases read
    · obtain rfl := Except.ok.inj read
      exact ⟨‹_›, rfl, short⟩

namespace OpenAICompatibleProvider

variable (p : OpenAICompatibleProvider) (codec : ChatCodec) (client : HttpClient)

def failed (operation : String) (kind : ErrorKind) (retryable : Bool) (cause : Err) : Err :=
  .upstream ⟨p.name, operation, kind, 0, retryable⟩ (some cause)

def httpRequest (accept : String) (body : Bytes) : HttpRequest :=
  ⟨p.endpoint, [("Authorization", "Bearer " ++ p.apiKey), ("Content-Type", "application/json"),
    ("Accept", accept)], body⟩

def doRequest (req : ChatRequest) (accept : String) : Except Err HttpResponse :=
  match codec.marshal req with
  | .error err => .error (.wrap ("encode " ++ p.name ++ " request") err)
  | .ok body =>
      match client.refuses (p.httpRequest accept body) with
      | some err => .error (.wrap ("create " ++ p.name ++ " request") err)
      | none =>
          match client.Do (p.httpRequest accept body) with
          | .error lost => .error (p.failed "request" .network lost.retryable lost.err)
          | .ok resp =>
              if resp.statusCode < 200 ∨ resp.statusCode ≥ 300 then
                .error (.upstream ⟨p.name, "request", .httpStatus, resp.statusCode,
                  resp.statusCode = 429 ∨ resp.statusCode = 503⟩ none)
              else .ok resp

/-- What follows a body within the limit. The counts of the usage are not looked at. -/
def accept (responseBody : Bytes) : Except Err ChatResponse :=
  match codec.unmarshal responseBody with
  | .error err => .error (p.failed "decode response" .invalidResponse false err)
  | .ok chatResponse =>
      if chatResponse.id = "" ∨ chatResponse.choices.length = 0 then
        .error (p.failed "validate response" .invalidResponse false
          (.text "provider returned an incomplete response"))
      else .ok { chatResponse with provider := p.name }

def Chat (req : ChatRequest) : Except Err ChatResponse :=
  match p.doRequest codec client req "application/json" with
  | .error err => .error err
  | .ok resp =>
      match readAll (maxUpstreamResponseBytes + 1) resp with
      | .error lost => .error (p.failed "read response" .network lost.retryable lost.err)
      | .ok responseBody =>
          if responseBody.length > maxUpstreamResponseBytes then
            .error (p.failed "read response" .invalidResponse false
              (.text ("response exceeds " ++ toString maxUpstreamResponseBytes ++ " bytes")))
          else p.accept codec responseBody

def ChatStream (req : ChatRequest) : Except Err SseStream :=
  match p.doRequest codec client { req with stream := true } "text/event-stream" with
  | .error err => .error err
  | .ok resp =>
      if resp.mediaType ≠ some "text/event-stream" then
        .error (p.failed "validate stream response" .invalidResponse false
          (.text "provider returned a non-SSE response"))
      else .ok ⟨resp.reads, false⟩

variable {p codec client}

theorem accept_ok_iff {responseBody : Bytes} {response : ChatResponse} :
    p.accept codec responseBody = .ok response ↔
    ∃ decoded, codec.unmarshal responseBody = .ok decoded ∧ decoded.id ≠ "" ∧ decoded.choices ≠ [] ∧
    response = { decoded with provider := p.name } := by
  unfold accept
  cases codec.unmarshal responseBody with
  | error err => exact iff_of_false nofun nofun
  | ok decoded =>
      dsimp only
      split <;> rename_i incomplete
      · refine iff_of_false nofun ?_
        rintro ⟨_, same, id, choices, -⟩
        cases same
        exact incomplete.elim id fun none' => choices (List.length_eq_zero_iff.mp none')
      · obtain ⟨id, choices⟩ := not_or.mp incomplete
        constructor
        · intro same
          exact ⟨decoded, rfl, id, fun none' => choices (List.length_eq_zero_iff.mpr none'),
            (Except.ok.inj same).symm⟩
        · rintro ⟨_, same, -, -, rfl⟩
          cases same
          rfl

/-- A response is accepted for its size, its status, its identifier and its choices. -/
theorem chat_ok_iff {req : ChatRequest} {response : ChatResponse} :
    p.Chat codec client req = .ok response ↔
    ∃ resp decoded, p.doRequest codec client req "application/json" = .ok resp ∧
    resp.failure = none ∧ resp.content.length ≤ maxUpstreamResponseBytes ∧
    codec.unmarshal resp.content = .ok decoded ∧ decoded.id ≠ "" ∧ decoded.choices ≠ [] ∧
    response = { decoded with provider := p.name } := by
  constructor
  · intro accepted
    unfold Chat at accepted
    split at accepted
    · cases accepted
    · rename_i resp requested
      split at accepted
      · cases accepted
      · rename_i responseBody read
        split at accepted
        · cases accepted
        · rename_i short
          obtain ⟨whole, rfl, within⟩ := readAll_short read (Nat.le_of_not_lt short)
          obtain ⟨decoded, rest⟩ := accept_ok_iff.mp accepted
          exact ⟨resp, decoded, requested, whole, within, rest⟩
  · rintro ⟨resp, decoded, requested, whole, within, rest⟩
    have read : readAll (maxUpstreamResponseBytes + 1) resp = .ok resp.content := by
      rw [readAll, if_neg (Nat.not_le_of_lt (Nat.lt_succ_of_le within)), whole]
    simp only [Chat, requested, read, if_neg (Nat.not_lt_of_le within)]
    exact accept_ok_iff.mpr ⟨decoded, rest⟩

end OpenAICompatibleProvider

end ModelGate.Provider
