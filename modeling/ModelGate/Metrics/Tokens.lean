import ModelGate.Api.Lifecycle
import ModelGate.Provider.OpenAICompatible

/-! The counts of upstream replies that reach the token counters.

What a request hands to the counters is the usage of the response it got, and
what a stream hands to them is the last usage before its end. Nothing on the way
through the adapters, the governed provider, the router and the gateway looks at
the counts.
-/

set_option autoImplicit false

namespace ModelGate.Metrics

open Data Semantics Provider Service Service.GatewayService
open Routing (fleet Member)
open Api (stack)

/-! The way of a response -/

/-- The usages of the responses that upstream replied. -/
def replied (trace : List (Event stack)) : List ChatUsage :=
  trace.filterMap (behind (behind Routing.replied))

structure Tally where
  replied : List ChatUsage
  observed : List ChatUsage

def tallying : Protocol stack Tally where
  may _ _ := True
  answers _ _ _ := True
  after tally op reply :=
    ⟨tally.replied ++ (behind (behind Routing.replied) ⟨op, reply⟩).toList,
      tally.observed ++ (observedOf ⟨op, reply⟩).toList⟩

theorem answered_tallying {tally : Tally} {trace : List (Event stack)} :
    tallying.Answered tally trace := by
  induction trace generalizing tally with
  | nil => trivial
  | cons event trace ih => exact ⟨trivial, ih⟩

theorem toList_append_filterMap {α β : Type} (sees : α → Option β) (first : α) (rest : List α) :
    (sees first).toList ++ rest.filterMap sees = (first :: rest).filterMap sees := by
  rw [List.filterMap_cons]
  cases sees first <;> rfl

theorem advance_tallying {tally : Tally} {trace : List (Event stack)} :
    tallying.advance tally trace =
      ⟨tally.replied ++ replied trace, tally.observed ++ observed trace⟩ := by
  induction trace generalizing tally with
  | nil => simp [Protocol.advance, replied, observed]
  | cons event trace ih =>
      show tallying.advance ⟨_, _⟩ trace = _
      rw [ih, List.append_assoc, List.append_assoc]
      exact congrArg₂ Tally.mk (congrArg _ (toList_append_filterMap _ _ _))
        (congrArg _ (toList_append_filterMap _ _ _))

/-- However the program ends, it has observed what was replied. -/
def Bills {α : Type} (program : Program stack α) (tally : Tally) : Prop :=
  Obeys tallying (fun _ last => last.replied = last.observed) program tally

/-- Neither a response nor an observation. -/
def Uncounted (op : Effect) : Prop := ∀ provider usage, op ≠ .observeTokens provider usage

theorem Bills.observed {α : Type} {program : Program stack α} (bills : Bills program ⟨[], []⟩)
    {trace : List (Event stack)} {exit : Exit α} (runs : program.Runs trace exit) :
    observed trace = replied trace := by
  have last := Obeys.runs bills runs answered_tallying
  rw [advance_tallying] at last
  exact last.symm

section Chat

variable {g : GatewayService (Routing.effects.sum fleet)} {α : Type} {tally : Tally}
  {counted : List ChatUsage}

theorem bills_done (value : α) : Bills (pure value) ⟨counted, counted⟩ := obeys_done.mpr rfl

theorem tallying_ignores {op : Effect} (other : Uncounted op) :
    tallying.Ignores tally (.inl op) := by
  refine ⟨trivial, fun reply => ?_⟩
  have unseen : observedOf (⟨.inl op, reply⟩ : Event stack) = none := by
    unfold observedOf
    split
    · rename_i provider usage _ same
      cases same
      exact absurd rfl (other provider usage)
    · rfl
  show Tally.mk (tally.replied ++ [])
    (tally.observed ++ (observedOf (⟨.inl op, reply⟩ : Event stack)).toList) = tally
  rw [unseen, List.append_nil]
  exact congrArg (Tally.mk tally.replied) (List.append_nil _)

theorem tallying_aside (op : Effect) (aside : op.Aside) : tallying.Ignores tally (.inl op) := by
  refine tallying_ignores ?_
  rintro provider usage rfl
  exact aside

theorem bills_effect {op : Effect} (other : Uncounted op)
    {next : Service.effects.Reply op → Program stack α} (rest : ∀ reply, Bills (next reply) tally) :
    Bills (effect op >>= next) tally :=
  obeys_effect (tallying_ignores other) rest

theorem bills_record (record : RequestRecord) {next : Unit → Program stack α}
    (rest : Bills (next ()) tally) : Bills (g.record record >>= next) tally :=
  obeys_recording tallying_aside g record (tallying_ignores nofun) rest

theorem bills_cacheResponse (payload : Bytes) (cacheKey : Option String)
    {next : Unit → Program stack α} (rest : Bills (next ()) tally) :
    Bills (cacheResponse payload cacheKey >>= next) tally :=
  obeys_caching tallying_aside (fun _ => tallying_ignores (by simp [Uncounted])) cacheKey rest

theorem bills_complete (payload : Bytes) (reservation : Option Reservation)
    {next : Unit → Program stack α} (rest : Bills (next ()) tally) :
    Bills (completeIdempotency payload reservation >>= next) tally :=
  obeys_completing tallying_aside (fun _ _ => tallying_ignores (by simp [Uncounted]))
    reservation rest

theorem bills_release (reservation : Option Reservation) {next : Unit → Program stack α}
    (rest : Bills (next ()) tally) : Bills (releaseIdempotency reservation >>= next) tally :=
  obeys_releasing tallying_aside (fun _ _ => tallying_ignores (by simp [Uncounted]))
    reservation rest

/-- A usage is observed whether or not the observer panics. -/
theorem bills_observeTokens (providerName : String) (usage : ChatUsage) (value : α) :
    Bills (observeTokens providerName usage >>= fun _ => pure value)
      ⟨counted ++ [usage], counted⟩ := by
  rw [observeTokens, Program.bind_assoc]
  refine obeys_call_bind (S := stack) trivial fun panicked _ => ?_
  cases panicked with
  | none => exact obeys_done.mpr (List.append_nil _)
  | some reason => exact obeys_abort.mpr (List.append_nil _)

/-- The answer has been counted as replied and is still to be observed. -/
theorem settle_bills (a : Admitted) (reservation : Option Reservation) (cacheKey : Option String)
    (answer : Except Err (Option ChatResponse)) :
    Bills (g.settle a reservation cacheKey answer) ⟨counted ++ Governance.usageOf answer,
      counted⟩ := by
  match answer with
  | .error err =>
      rw [Governance.usageOf, List.append_nil]
      exact bills_release reservation (bills_record _ (bills_done _))
  | .ok none =>
      rw [Governance.usageOf, List.append_nil]
      exact obeys_abort.mpr rfl
  | .ok (some response) =>
      exact bills_cacheResponse _ cacheKey
        (bills_complete _ reservation (bills_record _ (bills_observeTokens _ _ _)))

theorem hit_bills (a : Admitted) (reservation : Option Reservation) (payload : Bytes)
    (cached : ChatResponse) : Bills (g.hit a reservation payload cached) ⟨counted, counted⟩ :=
  bills_effect (by simp [Uncounted]) fun _ => bills_complete _ reservation
    (bills_record _ (bills_done _))

/-! The provider behind the gateway -/

section Asked

variable {quote : String → String} {strategy : Routing.Strategy} {members : List (Member × Int)}
  {r : Routing.Router fleet} (made : Routing.New quote strategy (Routing.fleetOf members) = .ok r)
  (built : ∀ entry ∈ members, Routing.Built entry.1) (asked : g.chat = r.provider)
include made built asked

theorem ask_bills (req : ChatRequest) {next : Except Err (Option ChatResponse) → Program stack α}
    (rest : ∀ answer, Bills (next answer) ⟨counted ++ Governance.usageOf answer, counted⟩) :
    Bills ((ChatService.Chat g.chat req).along
        (.inr Service.effects (Routing.effects.sum fleet)) >>= next) ⟨counted, counted⟩ := by
  have refused (err : Err) : Bills (next (.error err)) ⟨counted, counted⟩ := by
    have goes := rest (.error err)
    rwa [Governance.usageOf, List.append_nil] at goes
  unfold ChatService.Chat
  split
  · exact refused _
  · split
    · exact refused _
    · rw [asked, Bills, obeys_bind]
      -- The router as it runs in the gateway, with the responses of the whole call.
      refine obeys_of_runs (fun _ _ => trivial) fun trace exit runs _ => ?_
      obtain ⟨inner, rfl, own⟩ := runs.along
      have replies := Routing.chat_replies made built own
      have unobserved :
          observed (inner.map (Event.along (.inr Service.effects (Routing.effects.sum fleet)))) =
          [] := by
        rw [observed, List.filterMap_map, List.filterMap_eq_nil_iff]
        intro event member
        rfl
      rw [advance_tallying, replied, behind_passed, replies, unobserved, List.append_nil]
      cases exit with
      | aborted reason => exact List.append_nil _
      | returned answer => exact rest answer

theorem execute_bills (a : Admitted) (reservation : Option Reservation) (cacheKey : Option String) :
    Bills (g.execute a reservation cacheKey) ⟨counted, counted⟩ :=
  ask_bills made built asked a.req fun answer => settle_bills a reservation cacheKey answer

theorem consult_bills (a : Admitted) (reservation : Option Reservation) (key : String)
    (found : Except Err (Option Bytes)) :
    Bills (g.consult a reservation key found) ⟨counted, counted⟩ := by
  have executes : Bills (g.execute a reservation (some key)) ⟨counted, counted⟩ :=
    execute_bills made built asked a _ _
  match found with
  | .error err => exact bills_effect (by simp [Uncounted]) fun _ => executes
  | .ok none => exact executes
  | .ok (some payload) =>
      simp only [consult]
      split
      · exact bills_effect (by simp [Uncounted]) fun _ => executes
      · exact hit_bills a reservation payload _

theorem lookup_bills (a : Admitted) (reservation : Option Reservation) :
    Bills (g.lookup a reservation) ⟨counted, counted⟩ := by
  have executes : Bills (g.execute a reservation none) ⟨counted, counted⟩ :=
    execute_bills made built asked a _ _
  unfold lookup
  split
  · exact bills_release reservation (bills_done _)
  · exact executes
  · split
    · exact executes
    · exact bills_effect (by simp [Uncounted]) fun found =>
        consult_bills made built asked a reservation _ found

theorem begun_bills (a : Admitted) (key fingerprint : String)
    (result : Except Err Idempotency.Result) :
    Bills (g.begun a key fingerprint result) ⟨counted, counted⟩ := by
  match result with
  | .error err => exact bills_done _
  | .ok .acquired => exact lookup_bills made built asked a _
  | .ok .pending => exact bills_record _ (bills_done _)
  | .ok .conflict => exact bills_record _ (bills_done _)
  | .ok (.completed response) =>
      simp only [begun, replay]
      split
      · exact bills_done _
      · exact bills_record _ (bills_done _)

theorem reserve_bills (a : Admitted) : Bills (g.reserve a) ⟨counted, counted⟩ := by
  unfold reserve
  split
  · exact lookup_bills made built asked a none
  · split
    · exact bills_done _
    · split
      · exact bills_done _
      · exact bills_effect (by simp [Uncounted]) fun result =>
          begun_bills made built asked a _ _ result

theorem chat_bills (req : ChatRequest) (metadata : RequestMetadata) :
    Bills (g.Chat req metadata) ⟨counted, counted⟩ := by
  have admits (idempotencyKey requestID : String) (decision : Except Err RateLimit.Decision) :
      Bills (g.admitted req metadata.clientIdentity idempotencyKey requestID decision)
      ⟨counted, counted⟩ := by
    cases decision with
    | error err => exact bills_record _ (bills_done _)
    | ok decision => exact reserve_bills made built asked _
  have serves : Bills (g.serve req metadata) ⟨counted, counted⟩ := by
    unfold serve
    split
    · exact bills_done _
    · split
      · exact bills_done _
      · split
        · exact bills_done _
        · refine obeys_requestID tallying_aside metadata fun id => ?_
          cases id with
          | error err => exact bills_done _
          | ok requestID => exact obeys_enforceRateLimit tallying_aside g _ (admits _ requestID)
  -- The deferred cancellation counts nothing, also after a panic.
  refine obeys_ensuring.mpr (serves.mono fun exit last same => ?_)
  refine obeys_perform.mpr ⟨trivial, fun _ _ => obeys_done.mpr ?_⟩
  show last.replied ++ [] = last.observed ++ []
  rw [List.append_nil, List.append_nil, same]

end Asked

end Chat

/-! The way of the chunks -/

section Streams

open Api (Act Lease Story Turn Turned acts memory returnedOf settlement)

variable {g : GatewayService (Routing.effects.sum fleet)}
  {metered : Metered (Routing.effects.sum fleet)} {lease : Lease}

/-- The last usage up to the end of a stream, if it ends. -/
def settledUsage : ChatUsage → List Returned → Option ChatUsage
  | _, [] => none
  | usage, returned :: returns =>
      if returned.terminal then some (returned.usage.getD usage)
      else settledUsage (returned.usage.getD usage) returns

def usageObserved : Act → Option ChatUsage
  | .observed _ usage => some usage
  | _ => none

theorem observed_acts (trace : List (Event stack)) :
    observed trace = (acts trace).filterMap usageObserved := by
  rw [observed, acts, List.filterMap_filterMap]
  congr 1
  funext event
  obtain ⟨op, reply⟩ := event
  rcases op with op | op | ⟨target, op | op⟩
  · cases op <;> rfl
  · rfl
  · cases op with
    | retry op => cases op <;> rfl
    | _ => rfl
  · rfl

theorem settlement_observed {recorder : Bool} {outcome : CircuitBreaker.Outcome}
    {record : RequestRecord} :
    (settlement recorder lease outcome record).filterMap usageObserved = [record.usage] := by
  cases recorder <;> rfl

theorem story_observed {spent : Bool} {usage : ChatUsage} {turns : List Turn}
    (story : Story g metered lease spent usage turns) :
    (turns.flatMap fun turn => observed turn.events) =
      if spent then [] else (settledUsage usage (turns.map Turn.returned)).toList := by
  induction turns generalizing spent usage with
  | nil => cases spent <;> rfl
  | cons turn turns ih =>
      obtain ⟨⟨-, done⟩, story⟩ := story
      have later := ih story
      rw [List.flatMap_cons, observed_acts, done, later, List.map_cons, settledUsage]
      cases spent with
      | true => rfl
      | false =>
          cases ends : turn.returned.terminal with
          | true => exact congrArg (· ++ []) settlement_observed
          | false => rfl

theorem opening_observed {members : List (Member × Int)} {request : ChatRequest} {index cell : Nat}
    {m : Governance.Managed upstreamCalls} {passing : List (Event stack)}
    {before : List (Event (Routing.effects.sum fleet))}
    {events : List (Event (Retry.effects.sum upstreamCalls))} (passes : Passing passing)
    (earlier : ∀ event ∈ before, Routing.Earlier members
      (fun p => p.ChatStream request) index event) :
    observed (Api.opening index m cell passing before events) = [] := by
  rw [observed_acts, List.filterMap_eq_nil_iff]
  intro act member
  have elsewhere := Api.opening_elsewhere passes earlier act member
  cases act with
  | observed provider usage => cases elsewhere
  | _ => rfl

theorem turns_heard {stream : Stream stack} {turns : List Turn}
    (on : ∀ turn ∈ turns, turn.On stream) :
    (turns.flatMap Turn.events).filterMap returnedOf = turns.map Turn.returned := by
  induction turns with
  | nil => rfl
  | cons turn turns ih =>
      obtain ⟨first, rest⟩ := List.forall_mem_cons.mp on
      rw [List.flatMap_cons, List.filterMap_append, first.heard, ih rest]
      rfl

end Streams

/-- Under counters that panic on a negative count, the observer panics just when such a
count was handed to it. -/
theorem calm_iff {T : Signature} {trace : List (Event (Service.effects.sum T))}
    (observes : Observes trace) :
    panicIn trace = none ↔ ∀ usage ∈ observed trace, NonNegative usage := by
  rw [panicIn_observes observes]
  split
  · exact iff_of_true rfl ‹_›
  · exact iff_of_false nofun ‹_›

/-- What reaches the counters is the usage of a response and the last usage of a stream, as
upstream sent them. The counters panic just when one of its counts is negative. -/
theorem observed_tokens_nonNegative {quote : String → String} {strategy : Routing.Strategy}
    {members : List (Member × Int)} {r : Routing.Router fleet}
    (made : Routing.New quote strategy (Routing.fleetOf members) = .ok r)
    (built : ∀ entry ∈ members, Routing.Built entry.1)
    {g : GatewayService (Routing.effects.sum fleet)} (asked : g.chat = r.provider) :
    (∀ {req : ChatRequest} {metadata : RequestMetadata} {trace : List (Event stack)}
      {exit : Exit (Except Err ChatResult)}, (g.Chat req metadata).Runs trace exit →
      ((∀ usage ∈ observed trace, NonNegative usage) ↔ ∀ usage ∈ replied trace, NonNegative usage) ∧
      (Observes trace → (panicIn trace = none ↔ ∀ usage ∈ replied trace, NonNegative usage))) ∧
    ∀ {req : ChatRequest} {metadata : RequestMetadata} {early : List (Event stack)}
    {result : StreamResult (Routing.effects.sum fleet)}, (g.ChatStream req metadata).Runs early
      (.returned (.ok result)) → ∃ lease : Api.Lease, lease.Opened early ∧
    ∀ (calls : List StreamCall) (late : List (Event stack)) (exit : Exit (List (Exit Returned))),
    (result.stream.drive calls).Runs late exit → (Api.memory lease.toRef).Answered .zero late →
    ((∀ usage ∈ observed (early ++ late), NonNegative usage) ↔
      ∀ usage ∈ settledUsage .zero (late.filterMap Api.returnedOf), NonNegative usage) ∧
    (Observes (early ++ late) →
      (panicIn (early ++ late) = none ↔
        ∀ usage ∈ settledUsage .zero (late.filterMap Api.returnedOf), NonNegative usage)) := by
  refine ⟨fun runs => ?_, fun opened => ?_⟩
  · have same := (chat_bills made built asked _ _).observed runs
    exact ⟨by rw [same], fun observes => by rw [calm_iff observes, same]⟩
  obtain ⟨metered, passing, during, opens, passes, rfl, wraps, -⟩ := chatStream_opens opened
  rw [asked] at opens
  obtain ⟨index, name, m, source, cancel, label, before, events, inner, upstream', cancels, created,
    earlier, -, rfl⟩ :=
    Routing.chatStream_opens made built opens
  refine ⟨Api.leaseOf index m cancel metered.stream, Api.opening_opened cancels created, ?_⟩
  intro calls late exit drives kept
  rw [wraps] at drives
  obtain ⟨turns, -, rfl, -, each, story⟩ :=
    Api.drive_turns inner cancels upstream' calls drives kept
  -- Opening a stream counts nothing, and the calls on it count once, when it settles.
  have same : observed
      (Api.opening index m metered.stream passing before events ++ turns.flatMap Api.Turn.events) =
      (settledUsage .zero (turns.map Api.Turn.returned)).toList := by
    rw [observed, List.filterMap_append, ← observed, opening_observed passes earlier,
      List.nil_append, List.filterMap_flatMap]
    exact story_observed story
  have counts : (∀ usage ∈ observed
        (Api.opening index m metered.stream passing before events ++ turns.flatMap Api.Turn.events),
        NonNegative usage) ↔
      ∀ usage ∈ settledUsage .zero ((turns.flatMap Api.Turn.events).filterMap Api.returnedOf),
      NonNegative usage := by
    rw [same, turns_heard each]
    exact forall_congr' fun _ => imp_congr_left Option.mem_toList
  exact ⟨counts, fun observes => (calm_iff observes).trans counts⟩

/-! Replies of the adapters -/

/-- The calls on the providers of a stack. -/
def upstreamOf : Event stack → Option (Event upstreamCalls)
  | ⟨.inr (.inr (_, .inr call)), reply⟩ => some ⟨call, reply⟩
  | _ => none

/-- The reply is one of an adapter, which has read it off some HTTP response. -/
def Adapted (codec : ChatCodec) (chunks : ChunkCodec) : Event upstreamCalls → Prop
  | ⟨.chat req, reply⟩ => ∃ (p : OpenAICompatibleProvider) (client : HttpClient),
      reply = (p.Chat codec client req).map some
  | ⟨.chatStream req, reply⟩ =>
      ∃ (p : OpenAICompatibleProvider) (client : HttpClient) (stream : Nat),
      reply = (p.ChatStream codec client req).map fun _ => some (stream, none)
  | ⟨.recv _, received⟩ => ∃ s : SseStream, received = (s.Recv chunks).1
  | ⟨.close _, _⟩ => True

/-! A response and a chunk with a usage -/

section Sample

open Api (ofGateway ofMember ofRouter ofUpstream soleCalls soleExits soleGateway soleMembers
  soleOpening soleRouter streamMetadata streamRequest usedChunk)

def chatRequest : ChatRequest := { streamRequest with stream := false }

def soleChat (response : ChatResponse) (panicked : Option String) : List (Event stack) :=
  [ofRouter .lock ⟨0, [0]⟩, ofMember .available true, ofRouter (.unlock ⟨0, [0]⟩) (),
    ofMember .acquire (.ok 0), ofMember .allow (some 0), ofMember (.retry .ctxErr) none,
    ofMember (.retry .withTimeout) (0 : Nat), ofUpstream (.chat chatRequest) (.ok (some response)),
    ofMember (.retry (.onAttempt 1 none)) (), ofMember (.retry (.cancel 0)) (),
    ofMember (.done 0 .success) (), ofMember (.release 0) (),
    ofGateway (.record ⟨"id", "sole", "m", .succeeded, response.usage, .bypass, ""⟩) none,
    ofGateway (.observeTokens "sole" response.usage) panicked, ofGateway .cancel ()]

theorem soleChat_runs (response : ChatResponse) (panicked : Option String) :
    (soleGateway.Chat chatRequest streamMetadata).Runs (soleChat response panicked)
      (panicked.elim (.returned
          (.ok ⟨{ response with provider := "sole" }, "id", "sole", .bypass, false, unlimited⟩))
        .aborted) := by
  cases panicked <;>
  · repeat' apply Program.Leads.step
    exact .refl _

/-- What the counters make of a usage. -/
def outcomeOf (usage : ChatUsage) : Option String :=
  panicked (Counters.ObserveTokens ⟨fun _ _ => 0⟩ "sole" usage)

theorem soleChat_observes (response : ChatResponse) :
    Observes (soleChat response (outcomeOf response.usage)) := by
  intro providerName usage reply member
  simp [soleChat, ofGateway, ofMember, ofRouter, ofUpstream, own] at member
  obtain ⟨⟨rfl, rfl⟩, same⟩ := member
  cases same
  exact ⟨_, rfl⟩

theorem soleCalls_observes (usage : ChatUsage) :
    Observes (soleOpening ++ soleCalls usage (outcomeOf usage)) := by
  intro providerName observed reply member
  simp [soleOpening, soleCalls, Api.soleEnd, Api.soleClose, ofGateway, ofMember, ofRouter,
    ofUpstream, own] at member
  obtain ⟨⟨rfl, rfl⟩, same⟩ := member
  cases same
  exact ⟨_, rfl⟩

def requestBody : Bytes :=
  utf8 "\x7b\"model\":\"m\",\"messages\":[\x7b\"role\":\"user\",\"content\":\"hello\"\x7d]\x7d"

/-- Bodies of the two kinds, with a given count of prompt tokens. -/
def responseBody (promptTokens : String) : Bytes :=
  utf8 ("\x7b\"id\":\"r\",\"choices\":[\x7b\x7d],\"usage\":\x7b\"prompt_tokens\":" ++
    promptTokens ++ "\x7d\x7d")

def chunkData (promptTokens : String) : Bytes :=
  utf8 ("\x7b\"id\":\"chatcmpl-1\",\"object\":\"chat.completion.chunk\",\"created\":0,\"model\":\"m\",\"choices\":[]," ++
    "\"usage\":\x7b\"prompt_tokens\":" ++ promptTokens ++
    ",\"completion_tokens\":0,\"total_tokens\":0\x7d\x7d")

/-- What `encoding/json` makes of these bodies. -/
def decodedResponse (usage : ChatUsage) : ChatResponse :=
  ⟨"", "r", "", 0, "", [⟨0, ⟨"", ""⟩, ""⟩], usage⟩

def soleChatCodec (promptTokens : String) (usage : ChatUsage) : ChatCodec where
  marshal req := if req = chatRequest then .ok requestBody
    else .error (.text "json: unsupported value")
  unmarshal body :=
    if body = responseBody promptTokens then .ok (decodedResponse usage)
    else .error (.text "unexpected end of JSON input")

def soleChunkCodec (promptTokens : String) (usage : ChatUsage) : ChunkCodec :=
  SseStream.tabulated [(usedChunk usage, chunkData promptTokens)]

def soleAdapter : OpenAICompatibleProvider := ⟨"sole", "https://upstream/chat/completions", "key"⟩

def soleClient (content : Bytes) : HttpClient where
  refuses _ := none
  Do _ := .ok ⟨200, some "application/json", content, none, []⟩

def soleSse (promptTokens : String) : SseStream :=
  ⟨[.line (utf8 "data: " ++ chunkData promptTokens), .line []], false⟩

def acceptedResponse (usage : ChatUsage) : ChatResponse :=
  { decodedResponse usage with provider := "sole" }

section Adapters

variable {promptTokens : String} {usage : ChatUsage} {panicked : Option String}

theorem soleAdapter_accepts (short : (responseBody promptTokens).length ≤
      maxUpstreamResponseBytes) :
    soleAdapter.Chat (soleChatCodec promptTokens usage) (soleClient (responseBody promptTokens))
    chatRequest =
      .ok (acceptedResponse usage) := by
  have sent : soleAdapter.doRequest (soleChatCodec promptTokens usage)
    (soleClient (responseBody promptTokens)) chatRequest "application/json" =
    .ok ⟨200, some "application/json", responseBody promptTokens, none, []⟩ := rfl
  have decoded : (soleChatCodec promptTokens usage).unmarshal (responseBody promptTokens) =
      .ok (decodedResponse usage) := by
    simp [soleChatCodec]
  have named : "r" ≠ "" := by decide
  exact OpenAICompatibleProvider.chat_ok_iff.mpr
    ⟨_, decodedResponse usage, sent, rfl, short, decoded, named, nofun, rfl⟩

theorem soleChat_adapted (short : (responseBody promptTokens).length ≤ maxUpstreamResponseBytes)
    {chunks : ChunkCodec} :
    ∀ event ∈ (soleChat (acceptedResponse usage) panicked).filterMap upstreamOf,
    Adapted (soleChatCodec promptTokens usage) chunks event := by
  intro event member
  obtain rfl := List.mem_singleton.mp member
  exact ⟨soleAdapter, _, congrArg (Except.map some) (soleAdapter_accepts short).symm⟩

theorem soleCalls_adapted
    (heard : ((soleSse promptTokens).Recv (soleChunkCodec promptTokens usage)).1 =
      (some (usedChunk usage), none))
    {codec : ChatCodec} :
    ∀ event ∈ (soleCalls usage panicked).filterMap upstreamOf,
    Adapted codec (soleChunkCodec promptTokens usage) event := by
  refine List.forall_mem_cons.mpr ⟨⟨soleSse promptTokens, heard.symm⟩,
    List.forall_mem_cons.mpr ⟨⟨⟨[], true⟩, rfl⟩, ?_⟩⟩
  exact List.forall_mem_cons.mpr ⟨trivial, List.forall_mem_nil _⟩

end Adapters

set_option maxRecDepth 1024 in
theorem soleSse_recv : ((soleSse "-1").Recv (soleChunkCodec "-1" ⟨-1, 0, 0⟩)).1 =
    (some (usedChunk ⟨-1, 0, 0⟩), none) :=
  rfl

/-- A response and a stream with a usage, and the counters that take both. -/
theorem observed_tokens_nonNegative_sole :
    panicIn (soleChat (acceptedResponse ⟨1, 0, 0⟩) (outcomeOf ⟨1, 0, 0⟩)) = none ∧ ∃ lease :
    Api.Lease, lease.Opened soleOpening ∧
    settledUsage .zero ((soleCalls ⟨1, 0, 0⟩ (outcomeOf ⟨1, 0, 0⟩)).filterMap Api.returnedOf) =
      some ⟨1, 0, 0⟩ ∧
    panicIn (soleOpening ++ soleCalls ⟨1, 0, 0⟩ (outcomeOf ⟨1, 0, 0⟩)) = none := by
  have made : Routing.New id .roundRobin (Routing.fleetOf soleMembers) = .ok soleRouter := rfl
  have counts : NonNegative ⟨1, 0, 0⟩ := by decide
  obtain ⟨chat, streams⟩ :=
    observed_tokens_nonNegative made Api.soleMembers_built (g := soleGateway) rfl
  obtain ⟨lease, opened, fine⟩ := streams Api.soleOpening_runs
  obtain ⟨-, calm⟩ := chat (soleChat_runs (acceptedResponse ⟨1, 0, 0⟩) (outcomeOf ⟨1, 0, 0⟩))
  obtain ⟨-, ends⟩ :=
    fine _ _ _ (Api.soleCalls_runs ⟨1, 0, 0⟩ (outcomeOf ⟨1, 0, 0⟩)) (Api.soleCalls_answered _ _ _)
  refine ⟨(calm (soleChat_observes _)).mpr ?_, lease, opened, rfl,
    (ends (soleCalls_observes _)).mpr ?_⟩
  · rintro usage member
    obtain rfl := List.mem_singleton.mp member
    exact counts
  · rintro usage ⟨⟩
    exact counts

/-- A negative count is accepted in a response and in a chunk. Both ways it reaches the
counters, which panic. -/
theorem not_observed_tokens_nonNegative : (soleGateway.Chat chatRequest streamMetadata).Runs
      (soleChat (acceptedResponse ⟨-1, 0, 0⟩) (outcomeOf ⟨-1, 0, 0⟩)) (.aborted decreasePanic) ∧
    (∀ event ∈ (soleChat (acceptedResponse ⟨-1, 0, 0⟩) (outcomeOf ⟨-1, 0, 0⟩)).filterMap upstreamOf,
      Adapted (soleChatCodec "-1" ⟨-1, 0, 0⟩) (soleChunkCodec "-1" ⟨-1, 0, 0⟩) event) ∧
    observed (soleChat (acceptedResponse ⟨-1, 0, 0⟩) (outcomeOf ⟨-1, 0, 0⟩)) = [⟨-1, 0, 0⟩] ∧
    (soleGateway.ChatStream streamRequest streamMetadata).Runs soleOpening
      (.returned (.ok Api.soleResult)) ∧
    (Api.soleResult.stream.drive [.recv, .recv, .close]).Runs
      (soleCalls ⟨-1, 0, 0⟩ (outcomeOf ⟨-1, 0, 0⟩))
      (.returned [.returned (.received (some (usedChunk ⟨-1, 0, 0⟩)) none), .aborted decreasePanic,
        .returned (.closed none)]) ∧
    (∀ ref, (Api.memory ref).Answered .zero (soleCalls ⟨-1, 0, 0⟩ (outcomeOf ⟨-1, 0, 0⟩))) ∧
    (∀ event ∈ (soleCalls ⟨-1, 0, 0⟩ (outcomeOf ⟨-1, 0, 0⟩)).filterMap upstreamOf,
      Adapted (soleChatCodec "-1" ⟨-1, 0, 0⟩) (soleChunkCodec "-1" ⟨-1, 0, 0⟩) event) ∧
    observed (soleCalls ⟨-1, 0, 0⟩ (outcomeOf ⟨-1, 0, 0⟩)) = [⟨-1, 0, 0⟩] ∧
    ∀ m : Counters, m.ObserveTokens "sole" ⟨-1, 0, 0⟩ = .error m := by
  have short : (responseBody "-1").length ≤ maxUpstreamResponseBytes := by decide
  exact ⟨soleChat_runs _ _, soleChat_adapted short, rfl, Api.soleOpening_runs,
    Api.soleCalls_runs _ _, fun ref => Api.soleCalls_answered _ _ ref,
    soleCalls_adapted soleSse_recv, rfl, fun m => rfl⟩

end Sample

end ModelGate.Metrics
