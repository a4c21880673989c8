import ModelGate.Api.Engine
import ModelGate.Metrics.Counters
import ModelGate.Provider.SseGrammar
import ModelGate.Service.AtMostOnce
import ModelGate.Service.Records
import ModelGate.Storage.Recording

/-! What a request leaves behind: its response, its records, its count and its log line. -/

set_option autoImplicit false

namespace ModelGate.Api

open Data Semantics Provider
open Service (RequestRecord formatRequestID signing SignedResult SignedStream)

variable {T : Signature} {id : String}

/-! The client -/

/-- `net.JoinHostPort`, as the address of a connection is written. -/
def JoinHostPort (host port : List Char) : List Char :=
  if ':' ∈ host then '[' :: host ++ ']' :: ':' :: port else host ++ ':' :: port

theorem lastIndex_of_notMem {c : Char} {text : List Char} (absent : c ∉ text) :
    lastIndex c text = none := by
  induction text with
  | nil => rfl
  | cons first rest ih =>
      obtain ⟨here, later⟩ := List.ne_and_not_mem_of_not_mem_cons absent
      rw [lastIndex, ih later]
      exact if_neg (Ne.symm here)

theorem lastIndex_append {c : Char} (front : List Char) {rest : List Char} (absent : c ∉ rest) :
    lastIndex c (front ++ c :: rest) = some front.length := by
  induction front with
  | nil => simp [lastIndex, lastIndex_of_notMem absent]
  | cons first front ih => rw [List.cons_append, lastIndex, ih, List.length_cons]

theorem idxOf?_append {c : Char} {front : List Char} (rest : List Char) (absent : c ∉ front) :
    (front ++ c :: rest).idxOf? c = some front.length := by
  induction front with
  | nil => simp [List.idxOf?_cons]
  | cons first front ih =>
      obtain ⟨here, later⟩ := List.ne_and_not_mem_of_not_mem_cons absent
      rw [List.cons_append, List.idxOf?_cons, ih later]
      simp [Ne.symm here]

theorem SplitHostPort_join {host port : List Char} (plain : '[' ∉ host ∧ ']' ∉ host)
    (digits : ':' ∉ port ∧ '[' ∉ port ∧ ']' ∉ port) :
    SplitHostPort (JoinHostPort host port) = some (host, port) := by
  obtain ⟨colon, opening, closing⟩ := digits
  unfold JoinHostPort
  split
  · have last : lastIndex ':' ('[' :: host ++ ']' :: ':' :: port) = some (host.length + 2) := by
      have split := lastIndex_append ('[' :: host ++ [']']) colon
      simpa using split
    have stop : ('[' :: host ++ ']' :: ':' :: port).idxOf? ']' = some (host.length + 1) := by
      have split := idxOf?_append (c := ']') (':' :: port) (by simp [plain.2] : ']' ∉ '[' :: host)
      simpa using split
    simp only [SplitHostPort, last, stop]
    have inner : ']' ∉ host.drop (host.length + 1) :=
      fun inside => plain.2 (List.mem_of_mem_drop inside)
    simp [plain.1, opening, closing, List.drop_append, inner]
  · rename_i single
    rw [SplitHostPort, lastIndex_append host colon]
    cases host with
    | nil => simp [opening, closing]
    | cons first host =>
        have other : first ≠ '[' := fun same => plain.1 (same ▸ List.mem_cons_self)
        simp only [List.mem_cons, not_or] at plain single
        simp [other, plain, single, opening, closing]

theorem trimSpace_unknown : trimSpace "unknown" ≠ "" := by decide +kernel

/-- A client is known by its host, whatever the port of the connection, and no client by a blank. -/
theorem client_identified (host port : String) (plain : '[' ∉ host.toList ∧ ']' ∉ host.toList)
    (digits : ':' ∉ port.toList ∧ '[' ∉ port.toList ∧ ']' ∉ port.toList) :
    (clientIdentity (String.ofList (JoinHostPort host.toList port.toList)) = if trimSpace host =
        "" then "unknown" else host) ∧
    ∀ remoteAddr, trimSpace (clientIdentity remoteAddr) ≠ "" := by
  constructor
  · have found : hostOf (String.ofList (JoinHostPort host.toList port.toList)) = host := by
      rw [hostOf, String.toList_ofList, SplitHostPort_join plain digits]
      exact String.ofList_toList
    rw [clientIdentity, found]
  · intro remoteAddr
    unfold clientIdentity
    split
    · exact trimSpace_unknown
    · assumption

theorem client_identified_v6 : clientIdentity "[2001:db8::1]:5000" = "2001:db8::1" := by
  have joined : String.ofList (JoinHostPort "2001:db8::1".toList "5000".toList) =
      "[2001:db8::1]:5000" := by
    decide +kernel
  have identified :=
    (client_identified "2001:db8::1" "5000" (by decide +kernel) (by decide +kernel)).1
  rw [joined] at identified
  rw [identified]
  decide +kernel

/-! The identifier on the response writer -/

/-- Setting a header field leaves the identifier as it is. -/
def Harmless (id : String) (header : String × String) : Prop :=
  header = ("X-Request-ID", id) ∨ header.1 ∈ otherFields

section Writer

variable {gin : Gin T} (lawful : gin.Lawful) {w : gin.Writer}

/-- The header is set, and was when the response began. -/
structure Bears (gin : Gin T) (id : String) (w : gin.Writer) : Prop where
  header : gin.header w "X-Request-ID" = id
  sent : ∀ status headers, gin.sent w = some (status, headers) → status = gin.status w ∧
    headers "X-Request-ID" = id

include lawful

theorem Bears.write (bears : Bears gin id w) (op : EngineEffect ⊕ Effect)
    (kept : ∀ name value, op = .inr (.header name value) → Harmless id (name, value)) :
    Bears gin id (gin.write w op) := by
  have header : gin.header (gin.write w op) "X-Request-ID" = id := by
    by_cases sets : ∃ name value, op = .inr (.header name value)
    · obtain ⟨name, value, rfl⟩ := sets
      rcases kept name value rfl with same | other
      · cases same
        exact lawful.set w id
      · exact (lawful.other w value name other).trans bears.header
    · exact (lawful.keeps w op fun name value same => sets ⟨name, value, same⟩).trans bears.header
  refine ⟨header, fun status headers sent => ?_⟩
  cases before : gin.sent w with
  | none =>
      obtain ⟨same, rfl⟩ := lawful.begins w op before status headers sent
      exact ⟨same, header⟩
  | some begun =>
      obtain ⟨stays, status'⟩ := lawful.stays w op begun before
      obtain rfl := Option.some.inj (stays.symm.trans sent)
      rw [status']
      exact bears.sent status headers before

theorem Bears.finish (bears : Bears gin id w) :
    ∃ headers, gin.sent (gin.finish w) = some (gin.status w, headers) ∧
    headers "X-Request-ID" = id := by
  cases before : gin.sent w with
  | none =>
      obtain ⟨headers, sent, same⟩ := lawful.finishes w before
      exact ⟨headers, sent, same.trans bears.header⟩
  | some begun =>
      obtain ⟨status, own⟩ := bears.sent begun.1 begun.2 before
      exact ⟨begun.2, (lawful.finished w begun before).trans (by rw [← status]), own⟩

end Writer

/-! Programs that keep to the identifier -/

/-- The identifier is not replaced in the response, and every record is signed with it. -/
def marking (T : Signature) (id : String) :
    Protocol (effects.sum (Service.effects.sum T)) Unit where
  may _
    | .inl (.header name value) => Harmless id (name, value)
    | .inl _ => True
    | .inr op => (signing T id).may () op
  answers _ _ _ := True
  after _ _ _ := ()

section Marks

variable {α β : Type} {post : Exit α → Unit → Prop}

theorem marks_effect {op : Effect}
    (kept : ∀ name value, op = .header name value → Harmless id (name, value))
    {next : effects.Reply op → Program (effects.sum (Service.effects.sum T)) α}
    (rest : ∀ reply, Obeys (marking T id) post (next reply) ()) :
    Obeys (marking T id) post (effect op >>= next) () := by
  refine obeys_call_bind (S := effects.sum (Service.effects.sum T)) ?_ fun reply _ => rest reply
  cases op with
  | header name value => exact kept name value rfl
  | _ => exact trivial

theorem marks_headers {headers : List (String × String)}
    (kept : ∀ header ∈ headers, Harmless id header)
    {next : Unit → Program (effects.sum (Service.effects.sum T)) α}
    (rest : Obeys (marking T id) post (next ()) ()) :
    Obeys (marking T id) post (setHeaders headers >>= next) () := by
  induction headers with
  | nil => exact rest
  | cons header headers ih =>
      obtain ⟨first, rest'⟩ := List.forall_mem_cons.mp kept
      rw [setHeaders, Program.bind_assoc]
      refine marks_effect (fun name value same => ?_) fun _ => ih rest'
      cases same
      exact first

theorem marks_gateway {program : Program (Service.effects.sum T) β} {Q : Exit β → Unit → Prop}
    (signs : Obeys (signing T id) Q program ()) (aborts : ∀ reason, post (.aborted reason) ())
    {next : β → Program (effects.sum (Service.effects.sum T)) α}
    (rest : ∀ value, Q (.returned value) () → Obeys (marking T id) post (next value) ()) :
    Obeys (marking T id) post (program.along (.inr effects _) >>= next) () := by
  rw [obeys_bind, obeys_along]
  refine signs.mono fun exit _ held => ?_
  cases exit with
  | returned value => exact followed_returned.mpr (rest value held)
  | aborted reason => exact followed_aborted.mpr (aborts reason)

theorem rateLimit_headers (decision : RateLimit.Decision) :
    ∀ header ∈ applyRateLimitHeaders decision, header.1 ∈ otherFields := by
  unfold applyRateLimitHeaders
  split <;> simp [otherFields]

/-- No answer to an error sets the identifier. -/
theorem mapped_headers (err : Err) :
    ∀ header ∈ (writeMappedError err).headers, header.1 ∈ otherFields := by
  have provider : ∀ header ∈ providerHeader err, header.1 ∈ otherFields := by
    unfold providerHeader
    split
    · split <;> simp [otherFields]
    · simp
  unfold writeMappedError
  dsimp only
  split
  · exact provider
  · split
    · rename_i decision _
      simp only [List.forall_mem_append, List.forall_mem_singleton]
      exact ⟨⟨provider, rateLimit_headers decision⟩, by decide⟩
    · split
      · simp only [List.forall_mem_append, List.forall_mem_singleton]
        exact ⟨provider, by decide⟩
      · split
        · exact provider
        · split
          · unfold writeUpstreamError
            split
            · exact provider
            · split <;> exact provider
          · split
            · exact provider
            · split <;> exact provider

theorem answerError_marks (err : Err) :
    Obeys (marking T id) (fun _ _ => True) (answerError err) () := by
  refine marks_headers (fun header member => .inr (mapped_headers err header member)) ?_
  exact obeys_perform.mpr ⟨trivial, fun _ _ => obeys_done.mpr trivial⟩

end Marks

section Relay

variable {codec : ChunkCodec} {stream : Stream (Service.effects.sum T)}
  (receives : Obeys (signing T id) (fun _ _ => True) stream.Recv ())

theorem writeSSEChunk_marks (chunk : Option ChatStreamChunk)
    {next : Option Err → Program (effects.sum (Service.effects.sum T)) Unit}
    (rest : ∀ failed, Obeys (marking T id) (fun _ _ => True) (next failed) ()) :
    Obeys (marking T id) (fun _ _ => True) (writeSSEChunk codec chunk >>= next) () := by
  rw [writeSSEChunk, Program.bind_assoc]
  refine marks_effect (by simp) fun failed => ?_
  cases failed with
  | some err => exact rest _
  | none => exact marks_effect (by simp) fun _ => rest _

include receives in
theorem forward_marks (rounds : Nat) :
    Obeys (marking T id) (fun _ _ => True) (forward codec stream rounds) () := by
  induction rounds with
  | zero => exact obeys_abort.mpr trivial
  | succ rounds ih =>
      unfold forward
      refine marks_gateway receives (fun _ => trivial) fun received _ => ?_
      split
      · refine writeSSEChunk_marks _ fun failed => ?_
        split
        · exact obeys_done.mpr trivial
        · exact ih
      · split
        · refine marks_effect (by simp) fun _ => ?_
          exact obeys_perform.mpr ⟨trivial, fun _ _ => obeys_done.mpr trivial⟩
        · exact obeys_done.mpr trivial

include receives in
theorem relay_marks (rounds : Nat) {headers : List (String × String)}
    (kept : ∀ header ∈ headers, Harmless id header) :
    Obeys (marking T id) (fun _ _ => True) (relay codec rounds stream headers) () := by
  refine marks_headers kept ?_
  refine marks_gateway receives (fun _ => trivial) fun received _ => ?_
  split
  · exact answerError_marks _
  · have other : ∀ header ∈ eventStream, header.1 ∈ otherFields := by decide
    refine marks_headers (fun header member => .inr (other header member)) ?_
    · refine marks_effect (by simp) fun _ => ?_
      refine writeSSEChunk_marks _ fun failed => ?_
      split
      · exact obeys_done.mpr trivial
      · exact forward_marks receives rounds

theorem stream_marks {rounds : Nat} {gateway : Service.GatewayService T} {req : ChatRequest}
    {metadata : Service.RequestMetadata}
    (signs : Obeys (signing T id) (SignedStream T id) (gateway.ChatStream req metadata) ()) :
    Obeys (marking T id) (fun _ _ => True) (streamChatCompletions codec rounds gateway req metadata)
      () := by
  refine marks_gateway signs (fun _ => trivial) fun result signed => ?_
  cases result with
  | error err => exact answerError_marks err
  | ok result =>
      obtain ⟨own, receives, closes⟩ := signed
      simp only [relayClosing]
      rw [obeys_ensuring]
      have cleanup (exit : Exit Unit) : (marking T id).cleaned (do
          let _ ← result.stream.Close.along (.inr effects _)
          pure ()) (fun _ _ => True) exit () := by
        unfold Protocol.cleaned
        refine marks_gateway closes (fun _ => trivial) fun _ _ => obeys_done.mpr trivial
      refine (relay_marks receives rounds fun header member => ?_).mono fun exit _ _ => cleanup exit
      rcases List.mem_append.mp member with limit | other
      · exact .inr (rateLimit_headers _ header limit)
      · simp only [List.mem_cons, List.not_mem_nil, or_false] at other
        rcases other with rfl | rfl
        · exact .inl (congrArg _ own)
        · exact .inr (by simp [otherFields])

end Relay

/-! The visit of a request -/

/-- What a request has done so far, with the state of its context. -/
structure Visit (gin : Gin T) where
  writer : gin.Writer
  model : String
  draws : List (Except Err (Vector UInt8 16))
  records : List RequestRecord
  observed : List (String × Nat)
  logged : List LogLine

section Visits

variable {gin : Gin T}

namespace Visit

def start (w : gin.Writer) : Visit gin := ⟨w, "", [], [], [], []⟩

/-- The context replies with what was set. -/
def Answers (v : Visit gin) : (op : (site T).Op) → (site T).Reply op → Prop
  | .inl (.getHeader name), value => value = gin.header v.writer name
  | .inl .getStatus, status => status = gin.status v.writer
  | .inl .getModel, model => model = v.model
  | _, _ => True

def after (v : Visit gin) : (op : (site T).Op) → (site T).Reply op → Visit gin
  | .inl .randRead, read => { v with draws := v.draws ++ [read] }
  | .inl (.getHeader _), _ | .inl .getStatus, _ | .inl .getModel, _ => v
  | .inl (.setModel model), _ => { v with model }
  | .inl (.observeRequest route status), _ => { v with observed := v.observed ++ [(route, status)] }
  | .inl (.log line), _ => { v with logged := v.logged ++ [line] }
  | .inl op, _ => { v with writer := gin.write v.writer (.inl op) }
  | .inr (.inl op), _ => { v with writer := gin.write v.writer (.inr op) }
  | .inr (.inr (.inl (.record record))), _ => { v with records := v.records ++ [record] }
  | .inr (.inr _), _ => v

/-- Under an identifier, before the request is counted. -/
structure Under (id : String) (read : Except Err (Vector UInt8 16)) (v : Visit gin) : Prop where
  bears : Bears gin id v.writer
  draws : v.draws = [read]
  records : ∀ record ∈ v.records, record.Signed id
  uncounted : v.observed = [] ∧ v.logged = []

end Visit

def visiting (gin : Gin T) : Protocol (site T) (Visit gin) where
  may _ _ := True
  answers := Visit.Answers
  after := Visit.after

variable {α : Type} {post : Exit α → Visit gin → Prop} {v : Visit gin}
  {read : Except Err (Vector UInt8 16)}

theorem visits_engine {op : EngineEffect} {next : engineEffects.Reply op → Program (site T) α}
    (rest : ∀ reply, v.Answers (.inl op) reply →
      Obeys (visiting gin) post (next reply) (v.after (.inl op) reply)) :
    Obeys (visiting gin) post (engineEffect op >>= next) v :=
  obeys_call_bind (S := site T) trivial rest

theorem visits_getStatus {next : Nat → Program (site T) α}
    (rest : Obeys (visiting gin) post (next (gin.status v.writer)) v) :
    Obeys (visiting gin) post (engineEffect .getStatus >>= next) v :=
  visits_engine fun status current => by
    obtain rfl : status = gin.status v.writer := current
    exact rest

theorem visits_getHeader {name : String} {next : String → Program (site T) α}
    (rest : Obeys (visiting gin) post (next (gin.header v.writer name)) v) :
    Obeys (visiting gin) post (engineEffect (.getHeader name) >>= next) v :=
  visits_engine fun value found => by
    obtain rfl : value = gin.header v.writer name := found
    exact rest

theorem visits_getModel {next : String → Program (site T) α}
    (rest : Obeys (visiting gin) post (next v.model) v) :
    Obeys (visiting gin) post (engineEffect .getModel >>= next) v :=
  visits_engine fun model found => by
    obtain rfl : model = v.model := found
    exact rest

theorem visits_observe {route : String} {status : Nat} {next : Unit → Program (site T) α}
    (rest : Obeys (visiting gin) post (next ())
      { v with observed := v.observed ++ [(route, status)] }) :
    Obeys (visiting gin) post (engineEffect (.observeRequest route status) >>= next) v :=
  visits_engine fun _ _ => rest

theorem Visit.Under.record (under : v.Under id read) {record : RequestRecord}
    (signed : record.Signed id) :
    Visit.Under id read { v with records := v.records ++ [record] } := by
  refine ⟨under.bears, under.draws, fun other member => ?_, under.uncounted⟩
  rcases List.mem_append.mp member with old | new
  · exact under.records other old
  · obtain rfl := List.mem_singleton.mp new
    exact signed

/-- What a handler leaves, however it ends. -/
def Keeps (gin : Gin T) (id : String) (read : Except Err (Vector UInt8 16)) :
    Exit Unit → Visit gin → Prop :=
  fun _ v => v.Under id read

section Lawful

variable (lawful : gin.Lawful)
include lawful

theorem Visit.Under.write (under : v.Under id read) (op : EngineEffect ⊕ Effect)
    (kept : ∀ name value, op = .inr (.header name value) → Harmless id (name, value)) :
    Visit.Under id read { v with writer := gin.write v.writer op } :=
  ⟨under.bears.write lawful op kept, under.draws, under.records, under.uncounted⟩

theorem Visit.Under.engine (under : v.Under id read) (op : EngineEffect) :
    Visit.Under id read { v with writer := gin.write v.writer (.inl op) } :=
  under.write lawful (.inl op) (by simp)

theorem visits_responding {program : Program (effects.sum (Service.effects.sum T)) α}
    {Q : Exit α → Unit → Prop}
    (marks : Obeys (marking T id) Q program ()) (under : v.Under id read) :
    Obeys (visiting gin) (fun exit last => last.Under id read ∧ Q exit ()) (respond program) v := by
  unfold respond
  rw [obeys_along]
  refine (marks.simulate (Q := (visiting gin).along (.inr engineEffects _))
    (R := fun _ visit => visit.Under id read)
    (fun _ visit op under allowed => ⟨trivial, fun reply _ => ⟨trivial, ?_⟩⟩) under).mono ?_
  · rcases op with op | op | op
    · refine under.write lawful (.inr op) fun name value same => ?_
      obtain rfl := Sum.inr.inj same
      exact allowed
    · cases op with
      | record record => exact under.record allowed
      | _ => exact under
    · exact under
  · rintro exit last ⟨_, kept, held⟩
    exact ⟨kept, held⟩

/-! Handlers -/

section Handlers

variable {h : Handler T} {value : Vector UInt8 16} (named : h.gateway.options.providerName ≠ "")
  (streams : ∀ req, Obeys (Service.unwatched T) Service.NamesStreams
    (h.gateway.chat.ChatStream req) ())

theorem answer_keeps {result : Except Err Service.ChatResult}
    (signed : SignedResult id (.returned result) ()) (under : v.Under id read) :
    Obeys (visiting gin) (Keeps gin id read) (Handler.answer result) v := by
  cases result with
  | error err =>
      exact (visits_responding lawful (answerError_marks err) under).mono fun _ _ kept => kept.1
  | ok result =>
      have kept : ∀ header ∈ applyResultHeaders result, Harmless id header := by
        intro header member
        simp only [applyResultHeaders, List.mem_append, List.mem_cons, List.not_mem_nil,
          or_false] at member
        rcases member with ((rfl | rfl | rfl) | replayed) | limit
        · exact .inl (congrArg _ signed)
        · exact .inr (by simp [otherFields])
        · exact .inr (by simp [otherFields])
        · split at replayed
          · obtain rfl := List.mem_singleton.mp replayed
            exact .inr (by decide)
          · cases replayed
        · exact .inr (rateLimit_headers _ header limit)
      have marked : Obeys (marking T id) (fun _ _ => True)
          (setHeaders (applyResultHeaders result)) () := by
        have bound : Obeys (marking T id) (fun _ _ => True)
            (setHeaders (applyResultHeaders result) >>= .done) () :=
          marks_headers kept (obeys_done.mpr trivial)
        rwa [Program.bind_done] at bound
      rw [Handler.answer, obeys_bind]
      refine (visits_responding lawful marked under).mono fun exit last kept => ?_
      cases exit with
      | aborted reason => exact kept.1
      | returned _ =>
          refine followed_returned.mpr
            (obeys_perform.mpr ⟨trivial, fun reply _ => obeys_done.mpr ?_⟩)
          exact kept.1.engine lawful (.render 200 result.response)

include named streams in
theorem chatCompletions_keeps (request : HttpRequest)
    (under : v.Under (formatRequestID value) read) :
    Obeys (visiting gin) (Keeps gin (formatRequestID value) read)
    (h.ChatCompletions request) v := by
  unfold Handler.ChatCompletions
  split
  · refine (visits_responding (Q := fun _ _ => True) lawful ?_ under).mono fun _ _ kept => kept.1
    exact obeys_perform.mpr ⟨trivial, fun _ _ => obeys_done.mpr trivial⟩
  · rename_i req _
    refine visits_engine fun reply _ => ?_
    have kept : Visit.Under (formatRequestID value) read { v with model := req.model } :=
      ⟨under.bears, under.draws, under.records, under.uncounted⟩
    rw [requestMetadata, Program.bind_assoc]
    -- The gateway gets the identifier of the response.
    refine visits_getHeader ?_
    rw [Visit.after, kept.bears.header]
    have given := Service.trimSpace_formatRequestID value
    have some' := Service.formatRequestID_ne_empty value
    simp only [Program.pure_eq, Program.done_bind]
    split
    · refine (visits_responding lawful (stream_marks ?_) kept).mono fun _ _ held => held.1
      exact Service.chatStream_signs named streams req given some'
    · have signs := Service.chat_signs (g := h.gateway) named req
        ⟨utf8 (clientIdentity request.remoteAddr), request.idempotencyKey, formatRequestID value⟩
        given some'
      have marked : Obeys (marking T (formatRequestID value)) (SignedResult (formatRequestID value))
          ((h.gateway.Chat req ⟨utf8 (clientIdentity request.remoteAddr), request.idempotencyKey,
            formatRequestID value⟩).along (.inr effects _)) () := by
        rw [obeys_along]
        exact signs
      rw [obeys_bind]
      refine (visits_responding lawful marked kept).mono fun exit last held => ?_
      cases exit with
      | aborted reason => exact held.1
      | returned result => exact followed_returned.mpr (answer_keeps lawful held.2 held.1)

include named streams in
theorem handle_keeps (request : HttpRequest) (route : Route)
    (under : v.Under (formatRequestID value) read) :
    Obeys (visiting gin) (Keeps gin (formatRequestID value) read) (h.handle request route) v := by
  cases route with
  | health =>
      exact obeys_perform.mpr
        ⟨trivial, fun _ _ => obeys_done.mpr (under.engine lawful .renderHealth)⟩
  | chatCompletions => exact chatCompletions_keeps lawful named streams request under
  | metrics =>
      exact obeys_perform.mpr ⟨trivial, fun _ _ => obeys_done.mpr (under.engine lawful .expose)⟩

theorem recovery_visits {next : Program (site T) Unit}
    (keeps : Obeys (visiting gin) (Keeps gin id read) next v) :
    Obeys (visiting gin) (fun exit last => exit = .returned () ∧ last.Under id read)
      (gin.Recovery next) v := by
  refine obeys_of_runs (fun _ _ => trivial) fun trace exit runs answered => ?_
  obtain ⟨rfl, returned | ⟨early, reason, panicked, rfl | rfl⟩⟩ :=
    lawful.recovers next trace exit runs
  · exact ⟨rfl, keeps.runs returned answered⟩
  · exact ⟨rfl, keeps.runs panicked answered⟩
  · have under : Visit.Under id read _ :=
      keeps.runs panicked (Protocol.answered_append.mp answered).1
    rw [Protocol.advance_append]
    exact ⟨rfl, under.engine lawful (.abortWithStatus 500)⟩

end Handlers

end Lawful

end Visits

/-! The chain of handlers -/

structure LogLine.Tells (method route : String) (status : Nat) (id : String) (line : LogLine) :
    Prop where
  request : line.method = method ∧ line.route = route
  status : line.status = status ∧ line.error = decide (500 ≤ status)
  requestID : line.requestID = id

section Chain

variable {gin : Gin T} {v : Visit gin}

namespace Visit

structure Refused (err : Err) (v : Visit gin) : Prop where
  draws : v.draws = [.error err]
  sent : ∃ headers, gin.sent (gin.finish v.writer) = some (503, headers)
  silent : v.records = [] ∧ v.observed = [] ∧ v.logged = []

structure Completed (counted : Bool) (method route : String) (value : Vector UInt8 16)
    (v : Visit gin) : Prop where
  draws : v.draws = [.ok value]
  sent : ∃ headers, gin.sent (gin.finish v.writer) = some (gin.status v.writer, headers) ∧
    headers "X-Request-ID" = formatRequestID value
  records : ∀ record ∈ v.records, record.Signed (formatRequestID value)
  observed : v.observed = if counted then [(route, gin.status v.writer)] else []
  logged : if counted then
      ∃ line, v.logged = [line] ∧
        line.Tells method route (gin.status v.writer) (formatRequestID value)
    else v.logged = []

def Accounted (counted : Bool) (method route : String) (v : Visit gin) : Prop :=
  (∃ err, v.Refused err) ∨ ∃ value, v.Completed counted method route value

end Visit

variable {value : Vector UInt8 16} (lawful : gin.Lawful)
include lawful

theorem HTTPMiddleware_visits {request : HttpRequest} {fullPath : String}
    {next : Program (site T) Unit}
    (keeps : Obeys (visiting gin) (fun exit last => exit = .returned () ∧
        last.Under (formatRequestID value) (.ok value)) next v) :
    Obeys (visiting gin) (fun exit last => exit = .returned () ∧
      last.Completed (decide (request.path ≠ "/metrics")) request.method
        (if fullPath = "" then "unmatched" else fullPath) value)
      (HTTPMiddleware request fullPath next) v := by
  rw [HTTPMiddleware, obeys_bind]
  refine keeps.mono fun exit last held => ?_
  obtain ⟨rfl, under⟩ := held
  rw [followed_returned]
  obtain ⟨uncounted, unlogged⟩ := under.uncounted
  have sent := under.bears.finish lawful
  generalize (if fullPath = "" then "unmatched" else fullPath) = route
  by_cases counted : request.path = "/metrics"
  · rw [if_pos counted]
    refine obeys_done.mpr ⟨rfl, under.draws, sent, under.records, ?_, ?_⟩
    · simpa [counted] using uncounted
    · simpa [counted] using unlogged
  · rw [if_neg counted]
    refine visits_getStatus
      (visits_observe (visits_getHeader (visits_getHeader (visits_getModel ?_))))
    refine obeys_perform.mpr ⟨trivial, fun _ _ => obeys_done.mpr ⟨rfl, ?_⟩⟩
    have counts : decide (request.path ≠ "/metrics") = true := decide_eq_true counted
    rw [counts]
    refine ⟨under.draws, sent, under.records, ?_, _, congrArg (· ++ [_]) unlogged, ⟨rfl, rfl⟩,
      ⟨rfl, rfl⟩, ?_⟩
    · exact congrArg (· ++ [_]) uncounted
    · exact under.bears.header

/-- The identifier is drawn first and once. -/
theorem router_visits {h : Handler T} (named : h.gateway.options.providerName ≠ "")
    (streams : ∀ req, Obeys (Service.unwatched T) Service.NamesStreams
      (h.gateway.chat.ChatStream req) ())
    (metrics : Bool) (request : HttpRequest) (matched : Option Route) {w : gin.Writer}
    (unsent : gin.sent w = none) :
    Obeys (visiting gin) (fun exit last => exit = .returned () ∧
      last.Accounted (metrics && decide (request.path ≠ "/metrics")) request.method
        (matched.elim "unmatched" Route.fullPath)) (NewRouter gin h metrics request matched)
      (.start w) := by
  refine visits_engine fun read _ => ?_
  cases read with
  -- No identifier: the chain is aborted with 503, before the metrics and the recovery.
  | error err =>
      refine obeys_perform.mpr
        ⟨trivial, fun _ _ => obeys_done.mpr ⟨rfl, .inl ⟨err, rfl, ?_, rfl, rfl, rfl⟩⟩⟩
      obtain ⟨headers, begun⟩ := lawful.json w 503 _ _ _ unsent
      exact ⟨headers, lawful.finished _ _ begun⟩
  | ok value =>
      refine obeys_perform.mpr ⟨trivial, fun _ _ => ?_⟩
      let begun : Visit gin :=
        ⟨gin.write w (.inr (.header "X-Request-ID" (formatRequestID value))), "", [.ok value],
          [], [], []⟩
      have drawn : begun.Under (formatRequestID value) (.ok value) := by
        refine ⟨⟨lawful.set w _, fun status headers sent => ?_⟩, rfl,
          List.forall_mem_nil _, rfl, rfl⟩
        obtain ⟨same, rfl⟩ := lawful.begins w _ unsent status headers sent
        exact ⟨same, lawful.set w _⟩
      -- `Recovery` is the innermost handler, so a panic is 500 before it is counted and logged.
      have recovered : Obeys (visiting gin) (fun exit last => exit = .returned () ∧
            last.Under (formatRequestID value) (.ok value))
          (gin.Recovery (matched.elim (pure ()) (h.handle request))) begun := by
        refine recovery_visits lawful ?_
        cases matched with
        | none => exact obeys_done.mpr drawn
        | some route => exact handle_keeps lawful named streams request route drawn
      cases metrics with
      | true =>
          refine (HTTPMiddleware_visits lawful recovered).mono
            fun exit last held => ⟨held.1, .inr ⟨value, ?_⟩⟩
          have label : (if matched.elim "" Route.fullPath = "" then "unmatched"
              else matched.elim "" Route.fullPath) = matched.elim "unmatched" Route.fullPath := by
            rcases matched with - | - | - | - <;> rfl
          rw [← label]
          exact held.2
      | false =>
          refine recovered.mono fun exit last held => ⟨held.1, .inr ⟨value, ?_⟩⟩
          obtain ⟨uncounted, unlogged⟩ := held.2.uncounted
          exact ⟨held.2.draws, held.2.bears.finish lawful, held.2.records, uncounted, unlogged⟩

end Chain

/-! Whole requests -/

/-- The server over a router, as `run` puts it together. -/
def server (chunks : ChunkCodec) (rounds : Nat) (codec : Service.Codec) (r : Routing.Router T)
    (options : Service.GatewayOptions) : Handler (Routing.effects.sum T) :=
  ⟨chunks, rounds, Service.NewGatewayService codec r.provider options⟩

/-! A response writer that keeps the laws, and one request through a server with one provider -/

structure SampleWriter where
  headers : String → String
  status : Nat
  sent : Option (Nat × (String → String))

namespace SampleWriter

def set (w : SampleWriter) (name value : String) : SampleWriter :=
  { w with headers := Function.update w.headers name value }

def setStatus (w : SampleWriter) (status : Nat) : SampleWriter :=
  match w.sent with
  | none => { w with status }
  | some _ => w

def begin (w : SampleWriter) : SampleWriter :=
  match w.sent with
  | none => { w with sent := some (w.status, w.headers) }
  | some _ => w

def json (w : SampleWriter) (status : Nat) : SampleWriter :=
  ((w.setStatus status).set "Content-Type" "application/json; charset=utf-8").begin

def write (w : SampleWriter) : EngineEffect ⊕ Effect → SampleWriter
  | .inl (.render status _) => w.json status
  | .inl .renderHealth => w.json 200
  | .inl .expose =>
      ((w.setStatus 200).set "Content-Type" "text/plain; version=0.0.4; charset=utf-8").begin
  | .inl (.abortWithStatus status) => (w.setStatus status).begin
  | .inl _ => w
  | .inr (.header name value) => w.set name value
  | .inr (.status status) => w.setStatus status
  | .inr (.json status _ _ _) => w.json status
  | .inr (.writeString _) | .inr .flush => w.begin

end SampleWriter

def sampleGin (T : Signature) : Gin T where
  Writer := SampleWriter
  header := SampleWriter.headers
  status := SampleWriter.status
  sent := SampleWriter.sent
  write := SampleWriter.write
  finish := SampleWriter.begin
  Recovery next := next.recovering fun _ => engineEffect (.abortWithStatus 500)

theorem SampleWriter.write_sent (w : SampleWriter) (op : EngineEffect ⊕ Effect) :
    match w.sent with
    | none => ((w.write op).sent = none ∨
      (w.write op).sent = some ((w.write op).status, (w.write op).headers))
    | some begun => (w.write op).sent = some begun ∧ (w.write op).status = w.status := by
  obtain ⟨headers, status, - | begun⟩ := w <;> rcases op with op |
    op <;> cases op <;> simp [write, json, set, setStatus, begin]

theorem sampleGin_lawful : (sampleGin T).Lawful where
  set w value := by
    have own := Function.update_self "X-Request-ID" value (SampleWriter.headers w)
    exact own
  other w value name listed := by
    have different : ∀ name ∈ otherFields, "X-Request-ID" ≠ name := by decide
    exact Function.update_of_ne (different name listed) ..
  keeps w op plain := by
    obtain ⟨headers, status, - | begun⟩ := w <;> rcases op with op | op <;> cases op <;>
      first | exact absurd rfl (plain _ _) | rfl
  begins w op unsent status headers sent := by
    have written := w.write_sent op
    rw [show w.sent = none from unsent] at written
    rcases written with none' | some'
    · cases none'.symm.trans sent
    · obtain ⟨rfl, rfl⟩ := Prod.mk.inj (Option.some.inj (some'.symm.trans sent))
      exact ⟨rfl, rfl⟩
  stays w op begun sent := by
    have written := w.write_sent op
    rw [show w.sent = some begun from sent] at written
    exact written
  json w status errorType code message unsent := by
    obtain ⟨headers, before, sent⟩ := w
    cases unsent
    exact ⟨_, rfl⟩
  finishes w unsent := by
    obtain ⟨headers, before, sent⟩ := w
    cases unsent
    exact ⟨headers, rfl, rfl⟩
  finished w begun sent := by
    obtain ⟨headers, before, sent'⟩ := w
    cases sent
    rfl
  recovers next trace exit runs := by
    rcases Program.Runs.recovering runs with ⟨value, rfl, returned⟩ |
      ⟨early, late, reason, rfl, panicked, handled⟩
    · exact ⟨rfl, .inl returned⟩
    · obtain ⟨reply, later, rfl, done⟩ := Program.runs_perform.mp handled
      obtain ⟨rfl, rfl⟩ := Program.runs_done.mp done
      exact ⟨rfl, .inr ⟨early, reason, panicked, .inr rfl⟩⟩

def mockRouter : Routing.Router calls := ⟨.roundRobin, [⟨⟨outside, "mock", pure true⟩, 1⟩]⟩

theorem mockRouter_made : Routing.New (fun name => name) .roundRobin
    [⟨some ⟨outside, "mock", pure true⟩, 1⟩] = .ok mockRouter :=
  rfl

def sampleServer : Handler (Routing.effects.sum calls) :=
  server SseStream.sampleCodec 0 Service.sampleCodec mockRouter
    { Service.sampleOptions with recorder := true }

def samplePost : HttpRequest :=
  ⟨"POST", "/v1/chat/completions", "192.0.2.1:5000", "", .ok Service.sampleRequest⟩

/-- A provider that reports this usage, and the context of a request that was answered with
a status. -/
def sampleAnswers (usage : ChatUsage) (status : Nat) (provider : String) :
    (op : (site (Routing.effects.sum calls)).Op) → (site (Routing.effects.sum calls)).Reply op
  | .inl .randRead => .ok (.replicate 16 0)
  | .inl (.getHeader name) =>
      if name = "X-Request-ID" then formatRequestID (.replicate 16 0) else provider
  | .inl .getStatus => status
  | .inl .getModel => "m"
  | .inl (.setModel _) | .inl (.render _ _) | .inl .renderHealth | .inl .expose |
      .inl (.abortWithStatus _)
  | .inl (.observeRequest _ _) | .inl (.log _) => ()
  | .inr (.inl (.writeString _)) => none
  | .inr (.inl (.header _ _)) | .inr (.inl (.status _)) | .inr (.inl .flush) |
      .inr (.inl (.json _ _ _ _)) => ()
  | .inr (.inr (.inl (.observeTokens name observed))) =>
      Metrics.panicked ((⟨fun _ _ => 0⟩ : Metrics.Counters).ObserveTokens name observed)
  | .inr (.inr (.inl op)) => (Service.sampleReplies (fun _ => none) (.inl op)).1
  | .inr (.inr (.inr (.inl .lock))) => (⟨0, [0]⟩ : Routing.Cursor)
  | .inr (.inr (.inr (.inl (.unlock _)))) => ()
  | .inr (.inr (.inr (.inr (.chat _)))) => .ok { Service.sampleResponse with usage }
  | .inr (.inr (.inr (.inr call))) => (Service.sampleReplies (fun _ => none) (.inr call)).1

def sampleTrace (usage : ChatUsage) (status : Nat) (provider : String) :
    List (Event (site (Routing.effects.sum calls))) :=
  ((NewRouter (sampleGin _) sampleServer true samplePost (some .chatCompletions)).run
    (sampleAnswers usage status provider)).1

def sampleStart : (sampleGin (Routing.effects.sum calls)).Writer :=
  (⟨fun _ => "", 200, none⟩ : SampleWriter)

def sampleVisit (usage : ChatUsage) (status : Nat) (provider : String) :
    Visit (sampleGin (Routing.effects.sum calls)) :=
  (visiting _).advance (.start sampleStart) (sampleTrace usage status provider)

theorem sample_answered : (visiting _).Answered (.start sampleStart)
    (sampleTrace ⟨1, 1, 2⟩ 200 "mock") :=
  ⟨trivial, trivial, trivial, rfl, trivial, trivial, trivial, trivial, trivial, trivial, trivial,
    trivial, trivial, trivial, rfl, trivial, rfl, rfl, rfl, trivial, trivial⟩

section Server

variable {gin : Gin (Routing.effects.sum T)} (lawful : gin.Lawful) {quote : String → String}
  {strategy : Routing.Strategy} {targets : List (Routing.WeightedTarget T)} {r : Routing.Router T}
  (made : Routing.New quote strategy targets = .ok r) (chunks : ChunkCodec) (rounds : Nat)
  (codec : Service.Codec) (options : Service.GatewayOptions) (metrics : Bool)
  (request : HttpRequest) (matched : Option Route) {w : gin.Writer} (unsent : gin.sent w = none)
include lawful made unsent

theorem server_visits : Obeys (visiting gin) (fun exit last => exit = .returned () ∧
      last.Accounted (metrics && decide (request.path ≠ "/metrics")) request.method
      (matched.elim "unmatched" Route.fullPath))
    (NewRouter gin (server chunks rounds codec r options) metrics request matched) (.start w) := by
  refine router_visits lawful ?_ (Service.router_names_streams r (Service.named_of_new made))
    metrics request matched unsent
  show (if options.providerName = "" then "unknown" else options.providerName) ≠ ""
  split
  · decide
  · assumption

variable {trace : List (Event (site (Routing.effects.sum T)))} {exit : Exit Unit}
  (runs : (NewRouter gin (server chunks rounds codec r options) metrics request matched).Runs
    trace exit)
  (answered : (visiting gin).Answered (.start w) trace)
include runs answered

/-- The records of a request, as `Record` is called with them while no connection fails and
no context ends. The row has the identifier that was drawn. An error is returned only for a
negative latency or count, for a text with a zero byte, for a provider or a model beyond the
indexes and for an identifier that is there already; otherwise the request has exactly one
row, and its usage one. -/
theorem records_storable {record : RequestRecord}
    (recorded : record ∈ ((visiting gin).advance (.start w) trace).records)
    {limits : Storage.Usage.Limits} (free : limits.cost (.ofRat 0) = true)
    {base : Storage.Usage.Rows} {pool : Pool (Storage.Usage.ledgerSystem limits false)}
    (consistent : base.Consistent) (steps : (Pool.initial (.start base)).Steps pool)
    {thread : Thread (Storage.Usage.ledgerSystem limits false)} (member : thread ∈ pool.threads)
    {latency : Int} (called : thread.task = record.stored latency) {outcome : Exit (Option Err)}
    (ended : thread.exit = some outcome) :
    ∃ value, ((visiting gin).advance (.start w) trace).draws = [.ok value] ∧
    parseUUID (record.stored latency).requestID = some (Service.stamped value).toList ∧
    ((record.stored latency).Complete ↔ 0 ≤ latency ∧ Metrics.NonNegative record.usage) ∧
    ((record.stored latency).Storable limits ↔
      (∀ text ∈ [record.provider, record.model, record.errorCode],
        Storage.Usage.storable text = true) ∧
      limits.name record.provider = true ∧
      limits.model record.provider record.model = true) ∧
    (outcome ≠ .returned none → ¬(record.stored latency).Complete ∨
      ¬(record.stored latency).Storable limits ∨
      (Service.stamped value).toList ∈ pool.shared.tables.requestIDs) ∧
    ((record.stored latency).Complete → (record.stored latency).Storable limits →
      pool.shared.tables.requestIDs.count (Service.stamped value).toList = 1 ∧
      pool.shared.tables.usageIDs.count (Service.stamped value).toList = 1) := by
  have left := (server_visits lawful made chunks rounds codec options metrics request matched
    unsent).runs runs answered
  -- Without an identifier the request is refused before anything is recorded.
  rcases left.2 with ⟨err, refused⟩ | ⟨value, completed⟩
  · rw [refused.silent.1] at recorded
    cases recorded
  · have signed := completed.records record recorded
    have parsed : parseUUID (record.stored latency).requestID =
        some (Service.stamped value).toList := by
      rw [RequestRecord.stored, signed.requestID]
      exact Service.parseUUID_formatRequestID value
    refine ⟨value, completed.draws, parsed, ?_, ?_, fun failed => ?_, fun complete fits => ?_⟩
    · refine ⟨fun complete => complete.counted, fun counted => ?_⟩
      exact signed.complete (Service.formatRequestID_ne_empty value) counted.1 counted.2
    · refine ⟨fun storable => ⟨?_, storable.indexed⟩, fun fits =>
        signed.storable free fits.2 fits.1⟩
      have texts := storable.texts
      simp only [RequestRecord.stored, List.forall_mem_cons, List.not_mem_nil, false_imp_iff,
        implies_true, and_true] at texts ⊢
      exact ⟨texts.1, texts.2.1, texts.2.2.2⟩
    · have reasons := (Storage.Usage.ended_cases consistent steps member ended).resolve_left failed
      rw [called] at reasons
      refine reasons.imp_right (Or.imp_right ?_)
      rintro ⟨uuid, same, taken⟩
      obtain rfl := Option.some.inj (parsed.symm.trans same)
      rw [Storage.Usage.Database.tables_requestIDs]
      exact taken
    · have taken := Storage.Usage.taken_of_ended consistent steps member ended (called ▸ complete)
        (called ▸ fits)
      rw [called] at taken
      obtain ⟨uuid, same, once⟩ := Storage.Usage.rows_of_taken consistent steps taken
      obtain rfl := Option.some.inj (parsed.symm.trans same)
      exact once

end Server

def recordedSample : RequestRecord :=
  ⟨"00000000-0000-4000-8000-000000000000", "mock", "m", .succeeded, ⟨1, 1, 2⟩, .bypass, ""⟩

def recordingSample : Pool (Storage.Usage.ledgerSystem Storage.Usage.sampleLimits false) :=
  (⟨.start .empty, [.start (recordedSample.stored 1500000)]⟩ : Pool _).schedule
    (Storage.Usage.Database.answer Storage.Usage.sampleLimits) [0, 0, 0, 0, 0, 0, 0]

theorem recordingSample_steps : (Pool.initial (.start .empty)).Steps recordingSample :=
  (Pool.spawn_steps [recordedSample.stored 1500000] (fun _ _ => trivial) []).trans
    (Pool.schedule_steps Storage.Usage.Database.handles_of_answer _ _)

theorem recordedSample_ended : ∃ thread ∈ recordingSample.threads, thread.task =
      recordedSample.stored 1500000 ∧ thread.exit = some (.returned none) :=
  ⟨_, List.mem_cons_self, rfl, rfl⟩

theorem records_storable_sample : recordedSample ∈ (sampleVisit ⟨1, 1, 2⟩ 200 "mock").records ∧
    ∃ uuid, parseUUID "00000000-0000-4000-8000-000000000000" = some uuid ∧
    recordingSample.shared.tables.requestIDs.count uuid = 1 ∧
    recordingSample.shared.tables.usageIDs.count uuid = 1 := by
  have recorded : recordedSample ∈ (sampleVisit ⟨1, 1, 2⟩ 200 "mock").records := by decide +kernel
  obtain ⟨thread, member, called, ended⟩ := recordedSample_ended
  obtain ⟨value, -, parsed, complete, storable, -, rows⟩ := records_storable sampleGin_lawful
    mockRouter_made SseStream.sampleCodec 0 Service.sampleCodec
    { Service.sampleOptions with recorder := true } true samplePost (some .chatCompletions) rfl
    (Program.run_runs (sampleAnswers ⟨1, 1, 2⟩ 200 "mock") _) sample_answered recorded rfl
    Storage.Usage.empty_consistent recordingSample_steps member called ended
  refine ⟨recorded, _, parsed, rows (complete.mpr ?_) (storable.mpr ?_)⟩
  · decide
  · exact ⟨by decide +kernel, by decide +kernel, by decide +kernel⟩

end ModelGate.Api
