import ModelGate.Service.AtMostOnce

/-! Which requests leave a usage record.

A run of `Chat` is determined by the replies of what it calls. A run of a
stream is a sequence of `Recv` and `Close` calls, with the cells of the stream
read and written in order and every other reply arbitrary.
-/

set_option autoImplicit false

namespace ModelGate.Service

open Data Semantics Provider GatewayService

def recordIn : Event gatewayCalls → Option RequestRecord
  | ⟨.inl (.record record), _⟩ => some record
  | _ => none

/-- The records a run hands to the recorder. -/
def recordsOf (trace : List (Event gatewayCalls)) : List RequestRecord := trace.filterMap recordIn

def RecordedOnce (id : String) (records : List RequestRecord) : Prop :=
  ∃ record, records = [record] ∧ record.requestID = id

section Chat

variable (env : (op : gatewayCalls.Op) → gatewayCalls.Reply op) {α : Type}

def recordsIn (program : Program gatewayCalls α) : List RequestRecord :=
  recordsOf (program.run env).1

theorem recordsIn_effect {op : Effect} {next : effects.Reply op → Program gatewayCalls α}
    (other : ∀ record, op ≠ .record record) :
    recordsIn env (effect op >>= next) = recordsIn env (next (env (.inl op))) := by
  have silent : recordIn ⟨.inl op, env (.inl op)⟩ = none := by
    cases op <;> first | rfl | exact absurd rfl (other _)
  exact List.filterMap_cons_none silent

theorem recordsIn_sink (failed : Option Err) {next : Unit → Program gatewayCalls α} :
    recordsIn env (sink failed >>= next) = recordsIn env (next ()) := by
  cases failed with
  | none => rfl
  | some err => exact recordsIn_effect env (by simp)

theorem recordsIn_record {g : GatewayService calls} (recorder : g.options.recorder = true)
    (record : RequestRecord) {next : Unit → Program gatewayCalls α} :
    recordsIn env (g.record record >>= next) = record :: recordsIn env (next ()) := by
  rw [GatewayService.record, if_pos recorder, Program.bind_assoc]
  exact congrArg (record :: ·) (recordsIn_sink env _)

theorem recordsIn_complete (payload : Bytes) (reservation : Option Reservation)
    {next : Unit → Program gatewayCalls α} :
    recordsIn env (completeIdempotency payload reservation >>= next) = recordsIn env (next ()) := by
  cases reservation with
  | none => rfl
  | some reservation =>
      rw [completeIdempotency, Program.bind_assoc, recordsIn_effect env (by simp)]
      exact recordsIn_sink env _

theorem recordsIn_release (reservation : Option Reservation)
    {next : Unit → Program gatewayCalls α} :
    recordsIn env (releaseIdempotency reservation >>= next) = recordsIn env (next ()) := by
  cases reservation with
  | none => rfl
  | some reservation =>
      rw [releaseIdempotency, Program.bind_assoc, recordsIn_effect env (by simp)]
      exact recordsIn_sink env _

theorem recordsIn_cacheResponse (payload : Bytes) (cacheKey : Option String)
    {next : Unit → Program gatewayCalls α} :
    recordsIn env (cacheResponse payload cacheKey >>= next) = recordsIn env (next ()) := by
  cases cacheKey with
  | none => rfl
  | some key =>
      rw [cacheResponse, Program.bind_assoc, recordsIn_effect env (by simp)]
      exact recordsIn_sink env _

/-- The observer is no recorder, whether it panics or not. -/
theorem recordsIn_observed (providerName : String) (usage : ChatUsage) (value : α) :
    recordsIn env (observeTokens providerName usage >>= fun _ => pure value) = [] := by
  rw [observeTokens, Program.bind_assoc, recordsIn_effect env (by simp)]
  cases env (.inl (.observeTokens providerName usage)) with
  | none => rfl
  | some reason => rfl

theorem recordsIn_cancel (program : Program gatewayCalls α) :
    recordsIn env (program.ensuring (effect .cancel)) = recordsIn env program := by
  induction program with
  | done value => rfl
  | abort reason => rfl
  | perform op next ih =>
      have rest := ih (env op)
      simp only [recordsIn, recordsOf, Program.ensuring, Program.run, List.filterMap_cons] at rest ⊢
      rw [rest]

theorem recordsIn_ask (req : ChatRequest)
    (next : Except Err (Option ChatResponse) → Program gatewayCalls α) :
    ∃ answer : Except Err ChatResponse, recordsIn env
      ((ChatService.Chat outside req).along (.inr effects calls) >>= next) =
      recordsIn env (next (answer.map some)) := by
  unfold ChatService.Chat
  split
  · exact ⟨.error _, rfl⟩
  · split
    · exact ⟨.error _, rfl⟩
    · exact ⟨env (.inr (.chat req)), rfl⟩

/-- The identifier `requestID` computes from what the random source replies. -/
def idFor (metadata : RequestMetadata) (read : Except Err (Vector UInt8 16)) : Except Err String :=
  if trimSpace metadata.requestID = "" then
    (NewRequestID read).mapError fun err => .dependency "request_id_unavailable" (some err)
  else .ok (trimSpace metadata.requestID)

theorem recordsIn_requestID (metadata : RequestMetadata)
    {next : Except Err String → Program gatewayCalls α} :
    recordsIn env (requestID metadata >>= next) =
      recordsIn env (next (idFor metadata (env (.inl .randRead)))) := by
  unfold requestID idFor
  split
  · rw [Program.bind_assoc, recordsIn_effect env (by simp)]
    rfl
  · rfl

variable (g : GatewayService calls)

/-- The decision `enforceRateLimit` makes of what the limiter replies. -/
def decisionFor (answer : Except Err RateLimit.Decision) : Except Err RateLimit.Decision :=
  if !g.options.limiter then .ok unlimited
  else
    match answer with
    | .error err =>
        if g.options.rateLimitFailOpen then .ok unlimited
        else .error (.dependency "rate_limiter_unavailable" (some err))
    | .ok decision => if !decision.allowed then .error (.rateLimit decision) else .ok decision

theorem recordsIn_enforceRateLimit (identity : Bytes)
    {next : Except Err RateLimit.Decision → Program gatewayCalls α} :
    recordsIn env (g.enforceRateLimit identity >>= next) =
      recordsIn env (next (decisionFor g (env (.inl (.allow identity))))) := by
  unfold enforceRateLimit decisionFor
  split
  · rfl
  · rw [Program.bind_assoc, recordsIn_effect env (by simp)]
    cases env (.inl (.allow identity)) with
    | error err =>
        refine (recordsIn_effect env (by simp)).trans ?_
        dsimp only
        split <;> rfl
    | ok decision =>
        simp only [limited]
        split
        · exact recordsIn_effect env (by simp)
        · rfl

section Recorded

variable {g} (recorder : g.options.recorder = true) (asked : g.chat = outside)
include recorder

theorem settle_recorded (a : Admitted) (reservation : Option Reservation) (cacheKey : Option String)
    (answer : Except Err ChatResponse) :
    RecordedOnce a.requestID
      (recordsIn env (g.settle a reservation cacheKey (answer.map some))) := by
  cases answer with
  | error err =>
      exact ⟨_, (recordsIn_release env reservation).trans (recordsIn_record env recorder _), rfl⟩
  | ok response =>
      have observed := recordsIn_observed (α := Except Err ChatResult) env
      refine ⟨_, (recordsIn_cacheResponse env _ cacheKey).trans
        ((recordsIn_complete env _ reservation).trans
          ((recordsIn_record env recorder _).trans (congrArg (List.cons _) (observed _ _ _)))), rfl⟩

theorem hit_recorded (a : Admitted) (reservation : Option Reservation) (payload : Bytes)
    (cached : ChatResponse) :
    RecordedOnce a.requestID (recordsIn env (g.hit a reservation payload cached)) :=
  ⟨_, (recordsIn_effect env (by simp)).trans ((recordsIn_complete env _ reservation).trans
    (recordsIn_record env recorder _)), rfl⟩

theorem reject_recorded (a : Admitted) (err : Err) :
    RecordedOnce a.requestID (recordsIn env (g.reject a err)) :=
  ⟨_, recordsIn_record env recorder _, rfl⟩

include asked

theorem execute_recorded (a : Admitted) (reservation : Option Reservation)
    (cacheKey : Option String) :
    RecordedOnce a.requestID (recordsIn env (g.execute a reservation cacheKey)) := by
  unfold execute
  rw [asked]
  obtain ⟨answer, same⟩ := recordsIn_ask env a.req (g.settle a reservation cacheKey)
  rw [same]
  exact settle_recorded env recorder a reservation cacheKey answer

theorem consult_recorded (a : Admitted) (reservation : Option Reservation) (key : String)
    (found : Except Err (Option Bytes)) :
    RecordedOnce a.requestID (recordsIn env (g.consult a reservation key found)) := by
  have executes := execute_recorded env recorder asked a reservation (some key)
  match found with
  | .error err =>
      rw [consult, recordsIn_effect env (by simp)]
      exact executes
  | .ok none => exact executes
  | .ok (some payload) =>
      simp only [consult]
      split
      · rw [recordsIn_effect env (by simp)]
        exact executes
      · exact hit_recorded env recorder a reservation payload _

/-- The cache key is the one thing that can still go wrong unrecorded. -/
theorem lookup_recorded (a : Admitted) (reservation : Option Reservation) :
    (RecordedOnce a.requestID (recordsIn env (g.lookup a reservation)) ∧
      (Cache.Cacheable a.req → ∃ payload, g.codec.marshalRequest a.req = .ok payload)) ∨
    (recordsIn env (g.lookup a reservation) = [] ∧
      ¬ (Cache.Cacheable a.req → ∃ payload, g.codec.marshalRequest a.req = .ok payload)) := by
  have executes := execute_recorded env recorder asked a reservation
  unfold lookup Cache.Key
  by_cases cacheable : Cache.Cacheable a.req
  · rw [if_neg (not_not.mpr cacheable)]
    cases encoded : g.codec.marshalRequest a.req with
    | error err =>
        refine .inr ⟨recordsIn_release env reservation, fun ok => ?_⟩
        obtain ⟨payload, impossible⟩ := ok cacheable
        cases impossible
    | ok payload =>
        refine .inl ⟨?_, fun _ => ⟨payload, rfl⟩⟩
        simp only
        split
        · exact executes none
        · rw [recordsIn_effect env (by simp)]
          exact consult_recorded env recorder asked a reservation _ _
  · rw [if_pos cacheable]
    exact .inl ⟨executes none, fun present => absurd present cacheable⟩

/-- What a request that the limiter lets through needs to be recorded: its
cache key without an idempotency key, and otherwise a configured store, a
fingerprint, an answer of `Begin`, and a stored response that decodes. -/
def Accountable (g : GatewayService calls) (req : ChatRequest) (identity : Bytes)
    (idempotencyKey : String) : Prop :=
  if idempotencyKey = "" then Cache.Cacheable req →
    ∃ payload, g.codec.marshalRequest req = .ok payload
  else
    g.options.idempotency = true ∧
      ∃ fingerprint result, requestFingerprint g.codec req = .ok fingerprint ∧
      env (.inl (.begin (Idempotency.ScopedKey g.codec.sha256 identity idempotencyKey)
          fingerprint)) = .ok result ∧ ∀ response, result = .completed response →
      ∃ decoded, g.codec.unmarshalResponse response = .ok decoded

theorem begun_recorded (a : Admitted) (key : String) {fingerprint : String}
    (computed : requestFingerprint g.codec a.req = .ok fingerprint)
    (result : Except Err Idempotency.Result) :
    (RecordedOnce a.requestID (recordsIn env (g.begun a key fingerprint result)) ∧
      ∃ value, result = .ok value ∧ ∀ response, value = .completed response →
      ∃ decoded, g.codec.unmarshalResponse response = .ok decoded) ∨
    (recordsIn env (g.begun a key fingerprint result) = [] ∧ ¬ ∃ value, result = .ok value ∧
      ∀ response, value = .completed response →
      ∃ decoded, g.codec.unmarshalResponse response = .ok decoded) := by
  -- The branches that return without a record: an error of `Begin` and a stored response that
  -- does not decode.
  match result with
  | .error err =>
      refine .inr ⟨rfl, fun ⟨_, impossible, _⟩ => ?_⟩
      cases impossible
  | .ok .acquired =>
      have encodes : ∃ payload, g.codec.marshalRequest a.req = .ok payload := by
        unfold requestFingerprint at computed
        split at computed
        · cases computed
        · exact ⟨_, ‹_›⟩
      rcases lookup_recorded env recorder asked a (some ⟨key, fingerprint⟩) with ⟨recorded, _⟩ |
        ⟨_, failed⟩
      · exact .inl ⟨recorded, _, rfl, fun _ impossible => nomatch impossible⟩
      · exact absurd (fun _ => encodes) failed
  | .ok .pending =>
      exact .inl ⟨reject_recorded env recorder a _, _, rfl, fun _ impossible => nomatch impossible⟩
  | .ok .conflict =>
      exact .inl ⟨reject_recorded env recorder a _, _, rfl, fun _ impossible => nomatch impossible⟩
  | .ok (.completed response) =>
      simp only [begun, replay]
      cases decoded : g.codec.unmarshalResponse response with
      | error err =>
          refine .inr ⟨rfl, fun ⟨_, same, decodes⟩ => ?_⟩
          obtain rfl := Except.ok.inj same
          obtain ⟨value, impossible⟩ := decodes response rfl
          rw [decoded] at impossible
          cases impossible
      | ok value =>
          refine .inl ⟨⟨_, recordsIn_record env recorder _, rfl⟩, _, rfl, fun other same => ?_⟩
          obtain rfl := Idempotency.Result.completed.inj same
          exact ⟨value, decoded⟩

theorem reserve_recorded (a : Admitted) :
    (RecordedOnce a.requestID (recordsIn env (g.reserve a)) ∧
      Accountable env g a.req a.identity a.idempotencyKey) ∨
    (recordsIn env (g.reserve a) = [] ∧ ¬ Accountable env g a.req a.identity a.idempotencyKey) := by
  unfold reserve Accountable
  by_cases absent : a.idempotencyKey = ""
  · rw [if_pos absent, if_pos absent]
    exact lookup_recorded env recorder asked a none
  · rw [if_neg absent, if_neg absent]
    cases configured : g.options.idempotency with
    | false => exact .inr ⟨rfl, fun wanted => absurd wanted.1 (by simp)⟩
    | true =>
        cases computed : requestFingerprint g.codec a.req with
        | error err =>
            refine .inr ⟨rfl, fun ⟨_, _, _, impossible, _⟩ => ?_⟩
            cases impossible
        | ok fingerprint =>
            generalize Idempotency.ScopedKey g.codec.sha256 a.identity a.idempotencyKey = key
            have begins : recordsIn env
                (effect (.begin key fingerprint) >>= g.begun a key fingerprint) =
                recordsIn env (g.begun a key fingerprint (env (.inl (.begin key fingerprint)))) :=
              recordsIn_effect env (by simp)
            simp only [Bool.not_true, Bool.false_eq_true, if_false]
            rw [begins]
            rcases begun_recorded env recorder asked a _ computed _ with
              ⟨recorded, value, same, decodes⟩ | ⟨none, failed⟩
            · exact .inl ⟨recorded, trivial, fingerprint, value, rfl, same, decodes⟩
            · refine .inr ⟨none, fun ⟨_, other, value, equal, same, decodes⟩ => failed
                ⟨value, ?_, decodes⟩⟩
              obtain rfl := Except.ok.inj equal
              exact same

theorem chat_recorded (req : ChatRequest) (metadata : RequestMetadata) {idempotencyKey id : String}
    (valid : ValidateChatRequest (some req) = none) (plain : req.stream = false)
    (normalized : normalizeIdempotencyKey metadata.idempotencyKey = .ok idempotencyKey)
    (identified : idFor metadata (env (.inl .randRead)) = .ok id) :
    RecordedOnce id (recordsIn env (g.Chat req metadata)) ↔
      ((∃ decision, decisionFor g (env (.inl (.allow metadata.clientIdentity))) = .ok decision) →
        Accountable env g req metadata.clientIdentity idempotencyKey) := by
  have serves : recordsIn env (g.Chat req metadata) =
      recordsIn env (g.admitted req metadata.clientIdentity idempotencyKey id
        (decisionFor g (env (.inl (.allow metadata.clientIdentity))))) := by
    rw [GatewayService.Chat, recordsIn_cancel, serve, valid]
    simp only [plain, Bool.false_eq_true, if_false, normalized]
    rw [recordsIn_requestID, identified]
    exact recordsIn_enforceRateLimit env g _
  rw [serves]
  cases decisionFor g (env (.inl (.allow metadata.clientIdentity))) with
  | error err =>
      refine iff_of_true ⟨_, recordsIn_record env recorder _, rfl⟩ fun ⟨_, impossible⟩ => ?_
      cases impossible
  | ok decision =>
      rcases reserve_recorded env recorder asked
        ⟨req, metadata.clientIdentity, idempotencyKey, id, decision⟩ with
        ⟨recorded, accountable⟩ | ⟨none, unaccountable⟩
      · exact iff_of_true recorded fun _ => accountable
      · refine iff_of_false (fun ⟨record, one, _⟩ => ?_) fun wanted =>
          unaccountable (wanted ⟨decision, rfl⟩)
        have silent : recordsIn env
          (g.admitted req metadata.clientIdentity idempotencyKey id (.ok decision)) = [] := none
        rw [silent] at one
        cases one

end Recorded

end Chat

/-! Streams -/

/-- The mutable fields of the streams of a service. -/
structure Cells where
  next : Nat
  entered : List Nat
  usage : Nat → ChatUsage

namespace Cells

def start : Cells := ⟨0, [], fun _ => .zero⟩

/-- What the cells and the random source reply; everything else may reply
anything. -/
def Replies (read : Except Err (Vector UInt8 16)) (cells : Cells) :
    (op : gatewayCalls.Op) → gatewayCalls.Reply op → Prop
  | .inl .randRead, reply => reply = read
  | .inl .newStream, reply => reply = cells.next
  | .inl (.enterOnce stream), reply => reply = decide (stream ∉ cells.entered)
  | .inl (.loadUsage stream), reply => reply = cells.usage stream
  | _, _ => True

def after (cells : Cells) : gatewayCalls.Op → Cells
  | .inl .newStream => { cells with next := cells.next + 1 }
  | .inl (.enterOnce stream) => { cells with entered := stream :: cells.entered }
  | .inl (.storeUsage stream usage) =>
      { cells with usage := Function.update cells.usage stream usage }
  | _ => cells

end Cells

structure Account where
  cells : Cells
  records : List RequestRecord

/-- The cells of the streams and the records so far. -/
def accounting (read : Except Err (Vector UInt8 16)) : Protocol gatewayCalls Account where
  may _ _ := True
  answers account op reply := account.cells.Replies read op reply
  after account op reply :=
    ⟨account.cells.after op, account.records ++ (recordIn ⟨op, reply⟩).toList⟩

theorem advance_records (read : Except Err (Vector UInt8 16)) (account : Account)
    (trace : List (Event gatewayCalls)) :
    ((accounting read).advance account trace).records = account.records ++ recordsOf trace := by
  induction trace generalizing account with
  | nil => exact (List.append_nil _).symm
  | cons event trace ih =>
      refine (ih _).trans ?_
      simp only [recordsOf, List.filterMap_cons, accounting, List.append_assoc]
      cases recordIn event <;> rfl

def useResult (uses : List StreamCall) :
    Except Err (StreamResult calls) → Program gatewayCalls (Except Err (List (Exit Returned)))
  | .error err => pure (.error err)
  | .ok result => do
      let exits ← result.stream.drive uses
      pure (.ok exits)

/-- A streaming request, and the calls on the stream if it gets one. -/
def session (g : GatewayService calls) (req : ChatRequest) (metadata : RequestMetadata)
    (uses : List StreamCall) :
    Program gatewayCalls (Except Err (List (Exit Returned))) := do
  let answer ← g.ChatStream req metadata
  useResult uses answer

section Streams

variable {read : Except Err (Vector UInt8 16)} {α : Type} {post : Exit α → Account → Prop}
  {account : Account} {g : GatewayService calls} {m : Metered calls}

theorem accounting_incidental (op : Effect) (incidental : op.Incidental) :
    (accounting read).Ignores account (.inl op) := by
  refine ⟨trivial, fun reply => ?_⟩
  cases op <;> first
    | exact congrArg (Account.mk _) (List.append_nil _)
    | exact absurd incidental id

theorem accounting_aside (op : Effect) (aside : op.Aside) :
    (accounting read).Ignores account (.inl op) :=
  accounting_incidental op aside.incidental

theorem accounting_loadUsage {stream : Nat} :
    (accounting read).Ignores account (.inl (.loadUsage stream)) :=
  ⟨trivial, fun _ => congrArg (Account.mk _) (List.append_nil _)⟩

theorem accounting_leaveOnce {stream : Nat} :
    (accounting read).Ignores account (.inl (.leaveOnce stream)) :=
  ⟨trivial, fun _ => congrArg (Account.mk _) (List.append_nil _)⟩

/-- Whether a stream has seen its terminal event: its once is entered and the
record handed over, or neither. -/
def Metering (m : Metered calls) (finished : Bool) (account : Account) : Prop :=
  if finished then m.stream ∈ account.cells.entered ∧ RecordedOnce m.requestID account.records
  else m.stream ∉ account.cells.entered ∧ account.records = []

section Finishing

variable (recorder : g.options.recorder = true) (status : RecordStatus) (errorCode : String)
  (panics : ∀ reason later, Metering m true later → post (.aborted reason) later)
  {next : Unit → Program gatewayCalls α}
  (rest : ∀ later, Metering m true later → Obeys (accounting read) post (next ()) later)
include recorder panics rest

theorem finish_obeys (usage : ChatUsage) (entered : m.stream ∈ account.cells.entered)
    (silent : account.records = []) :
    Obeys (accounting read) post (g.finish m status errorCode usage >>= next) account := by
  unfold finish
  rw [Program.bind_assoc, GatewayService.record, if_pos recorder, Program.bind_assoc]
  refine obeys_call_bind (S := gatewayCalls) trivial fun failed _ =>
    obeys_sink accounting_aside _ ?_
  have metering : Metering m true
      ((accounting read).after account (.inl (.record (m.record status errorCode usage))) failed) :=
    ⟨entered, _, congrArg (· ++ [_]) silent, rfl⟩
  exact obeys_observing (accounting_incidental (.observeTokens _ _) trivial)
    (fun reason => panics reason _ metering) (rest _ metering)

theorem finishOnce_obeys {finished : Bool} (metering : Metering m finished account) :
    Obeys (accounting read) post (g.finishOnce m status errorCode >>= next) account := by
  unfold finishOnce onceDo
  rw [Program.bind_assoc]
  refine obeys_call_bind (S := gatewayCalls) trivial fun entered replied => ?_
  cases finished with
  | true =>
      obtain ⟨member, recorded⟩ := metering
      obtain rfl : entered = false := by simpa [accounting, Cells.Replies, member] using replied
      refine rest _ ⟨List.mem_cons_of_mem _ member, ?_⟩
      simpa [accounting, recordIn] using recorded
  | false =>
      obtain ⟨fresh, silent⟩ := metering
      obtain rfl : entered = true := by simpa [accounting, Cells.Replies, fresh] using replied
      simp only [if_true]
      rw [obeys_bind, obeys_ensuring]
      refine obeys_effect (accounting_incidental .cancel trivial) fun _ => ?_
      refine obeys_ignored (S := gatewayCalls) accounting_loadUsage fun usage _ => ?_
      rw [← Program.bind_done (g.finish m status errorCode usage)]
      -- The `once` is left on both ways out.
      refine finish_obeys recorder status errorCode (fun reason later metering => ?_)
        (fun later metering => ?_) usage (List.mem_cons_self ..) ?_
      · refine obeys_perform.mpr ⟨trivial, fun _ _ => obeys_done.mpr ?_⟩
        rw [accounting_leaveOnce.2]
        exact panics reason later metering
      · refine obeys_done.mpr (obeys_perform.mpr ⟨trivial, fun _ _ => obeys_done.mpr ?_⟩)
        rw [accounting_leaveOnce.2]
        exact followed_returned.mpr (rest later metering)
      · simpa [accounting, recordIn] using silent

end Finishing

theorem noteUsage_obeys (chunk : Option ChatStreamChunk) {finished : Bool}
    (metering : Metering m finished account) {next : Unit → Program gatewayCalls α}
    (rest : ∀ later, Metering m finished later → Obeys (accounting read) post (next ()) later) :
    Obeys (accounting read) post (noteUsage m chunk >>= next) account := by
  unfold noteUsage
  split
  · exact rest account metering
  · refine obeys_call_bind (S := gatewayCalls) trivial fun _ _ => rest _ ?_
    simpa [Metering, accounting, recordIn, Cells.after] using metering

theorem noteEnd_obeys (recorder : g.options.recorder = true) (err : Option Err) {finished : Bool}
    (metering : Metering m finished account) {next : Unit → Program gatewayCalls α}
    (panics : ∀ reason later, Metering m true later → post (.aborted reason) later)
    (rest : ∀ later, Metering m (finished || err.isSome) later →
      Obeys (accounting read) post (next ()) later) :
    Obeys (accounting read) post (g.noteEnd m err >>= next) account := by
  cases err with
  | none => exact rest account (by simpa using metering)
  | some err =>
      have ended (later : Account) (done : Metering m true later) : Obeys (accounting read) post
          (next ()) later :=
        rest later (by simpa using done)
      unfold noteEnd
      dsimp only
      split <;> exact finishOnce_obeys recorder _ _ panics ended metering

def outsideStream (stream : Nat) (name : Option String) : Stream calls :=
  ⟨.call (S := calls) (.recv stream), .call (S := calls) (.close stream), name⟩

theorem accounting_call {call : Call} : (accounting read).Ignores account (.inr call) :=
  ⟨trivial, fun _ => congrArg (Account.mk _) (List.append_nil _)⟩

section Inner

variable {source : Nat} {name : Option String} (inner : m.inner = some (outsideStream source name))
  (recorder : g.options.recorder = true) {finished : Bool} (metering : Metering m finished account)
include inner recorder metering

theorem invoke_obeys (use : StreamCall) :
    Obeys (accounting read) (fun exit later => Metering m (finished || terminates exit) later)
      ((g.metered m).invoke use) account := by
  have panics (reason : String) (later : Account) (ended : Metering m true later) :
      Metering m (finished || terminates (.aborted reason)) later := by
    simpa [terminates] using ended
  cases use with
  | recv =>
      simp only [Stream.invoke, metered, GatewayService.Recv, inner]
      rw [Program.bind_assoc]
      refine obeys_ignored (S := gatewayCalls) accounting_call fun received _ => ?_
      rw [Program.bind_assoc]
      refine noteUsage_obeys _ metering fun later kept => ?_
      rw [Program.bind_assoc]
      exact noteEnd_obeys recorder _ kept panics fun last ended => obeys_done.mpr ended
  | close =>
      simp only [Stream.invoke, metered, GatewayService.Close, inner]
      rw [Program.bind_assoc]
      refine obeys_ignored (S := gatewayCalls) accounting_call fun failed _ => ?_
      rw [Program.bind_assoc]
      refine finishOnce_obeys recorder _ _ panics (fun later ended => obeys_done.mpr ?_) metering
      simpa [terminates, Returned.terminal] using ended

theorem drive_obeys (uses : List StreamCall) {next : List (Exit Returned) → Program gatewayCalls α}
    (rest : ∀ exits later, Metering m (finished || exits.any terminates) later →
      Obeys (accounting read) post (next exits) later) :
    Obeys (accounting read) post ((g.metered m).drive uses >>= next) account := by
  -- `finished` says whether the `once` of the stream is spent; any call may find it so.
  induction uses generalizing account finished next with
  | nil => exact rest [] account (by simpa using metering)
  | cons use uses ih =>
      rw [Stream.drive, Program.bind_assoc, obeys_bind, obeys_caught]
      refine (invoke_obeys inner recorder metering use).mono fun exit later kept => ?_
      rw [followed_returned, Program.bind_assoc]
      refine ih kept fun exits last ended => rest _ last ?_
      simpa [Bool.or_assoc] using ended

end Inner

theorem requestID_obeys (metadata : RequestMetadata)
    {next : Except Err String → Program gatewayCalls α}
    (rest : Obeys (accounting read) post (next (idFor metadata read)) account) :
    Obeys (accounting read) post (requestID metadata >>= next) account := by
  unfold requestID
  unfold idFor at rest
  split <;> rename_i empty
  · rw [if_pos empty] at rest
    rw [Program.bind_assoc]
    refine obeys_ignored (S := gatewayCalls) (accounting_incidental .randRead trivial)
      fun reply replied => ?_
    obtain rfl : reply = read := replied
    exact rest
  · rw [if_neg empty] at rest
    exact rest

theorem record_obeys (recorder : g.options.recorder = true) (record : RequestRecord)
    (silent : account.records = []) {next : Unit → Program gatewayCalls α}
    (rest : ∀ later, later.records = [record] → Obeys (accounting read) post (next ()) later) :
    Obeys (accounting read) post (g.record record >>= next) account := by
  rw [GatewayService.record, if_pos recorder, Program.bind_assoc]
  refine obeys_call_bind (S := gatewayCalls) trivial fun failed _ => obeys_sink accounting_aside _
    (rest _ ?_)
  exact congrArg (· ++ [record]) silent

/-- The second validation may refuse; otherwise a stream comes from outside. -/
theorem ask_obeys (req : ChatRequest)
    {next : Except Err (Option (Stream calls)) → Program gatewayCalls α}
    (failed : ∀ err, Obeys (accounting read) post (next (.error err)) account)
    (opened : ∀ source name, Obeys (accounting read) post
      (next (.ok (some (outsideStream source name)))) account) :
    Obeys (accounting read) post
      ((ChatService.ChatStream outside req).along (.inr effects calls) >>= next) account := by
  unfold ChatService.ChatStream
  split
  · exact failed _
  · split
    · exact failed _
    · have ignored : (accounting read).Ignores account (.inr (.chatStream req)) := accounting_call
      refine obeys_ignored (S := gatewayCalls) ignored fun answer _ => ?_
      match answer with
      | .error err => exact failed err
      | .ok (source, name) => exact opened source name

/-- The records of a streaming request by the time its calls have ended: one
once the request was refused or a call on its stream was a terminal event, none
before. -/
def Billed (requestID : String) :
    Exit (Except Err (List (Exit Returned))) → List RequestRecord → Prop
  | .returned (.error _), records => RecordedOnce requestID records
  | .returned (.ok exits), records =>
      if exits.any terminates then RecordedOnce requestID records else records = []
  | .aborted _, _ => False

theorem billed_of_metering {exits : List (Exit Returned)}
    (metering : Metering m (exits.any terminates) account) :
    Billed m.requestID (.returned (.ok exits)) account.records := by
  unfold Metering at metering
  unfold Billed
  split at metering <;> rename_i ended
  · simp only [ended, if_true]
    exact metering.2
  · simp only [ended]
    exact metering.2

theorem opened_obeys (recorder : g.options.recorder = true) (req : ChatRequest) (requestID : String)
    (decision : RateLimit.Decision) (uses : List StreamCall) {cells : Cells}
    (fresh : cells.next ∉ cells.entered) (source : Nat) (name : Option String) :
    Obeys (accounting read) (fun exit account => Billed requestID exit account.records)
      (g.opened req requestID decision (.ok (some (outsideStream source name))) >>= useResult uses)
      ⟨cells, []⟩ := by
  unfold opened
  rw [Program.bind_assoc]
  refine obeys_call_bind (S := gatewayCalls) trivial fun cell replied => ?_
  obtain rfl : cell = cells.next := replied
  have unused (inner : Option (Stream calls)) (provider : String) :
      Metering ⟨inner, cells.next, requestID, provider, req.model⟩ false
        ((accounting read).after ⟨cells, []⟩ (.inl .newStream) cells.next) := ⟨fresh, rfl⟩
  refine drive_obeys rfl recorder (unused _ _) uses fun exits later metering => ?_
  exact obeys_done.mpr (billed_of_metering metering)

theorem session_obeys (recorder : g.options.recorder = true) (asked : g.chat = outside)
    (req : ChatRequest) (metadata : RequestMetadata) {requestID : String}
    (valid : ValidateChatRequest (some req) = none) (streams : req.stream = true)
    (unkeyed : trimSpace metadata.idempotencyKey = "")
    (identified : idFor metadata read = .ok requestID) (uses : List StreamCall) :
    Obeys (accounting read) (fun exit account => Billed requestID exit account.records)
      (session g req metadata uses) ⟨.start, []⟩ := by
  have refused (record : RequestRecord) (named : record.requestID = requestID) (err : Err) :
      Obeys (accounting read) (fun exit account => Billed requestID exit account.records)
      ((do g.record record; effect .cancel; pure (.error err)) >>= useResult uses)
      ⟨.start, []⟩ := by
    rw [Program.bind_assoc]
    refine record_obeys recorder record rfl fun later single => ?_
    exact obeys_effect (accounting_incidental .cancel trivial) fun _ =>
      obeys_done.mpr ⟨record, single, named⟩
  unfold session ChatStream
  simp only [valid, streams, unkeyed, Bool.not_true, Bool.false_eq_true, if_false, ne_eq, not_true]
  rw [Program.bind_assoc]
  refine requestID_obeys metadata ?_
  rw [identified, identifiedStream, Program.bind_assoc]
  refine obeys_enforceRateLimit accounting_aside g _ fun decision => ?_
  cases decision with
  | error err => exact refused _ (by rfl) err
  | ok decision =>
      rw [admittedStream, Program.bind_assoc, asked]
      refine ask_obeys req (fun err => refused _ (by rfl) err) fun source name => ?_
      exact opened_obeys recorder req requestID decision uses List.not_mem_nil source name

end Streams

/-- A request to `Chat` is recorded exactly once if and only if it is
accountable or the limiter refuses it; a streaming request always is, by its
first terminal event. -/
theorem requests_recorded_once (codec : Codec) (options : GatewayOptions)
    (recorder : options.recorder = true) :
    (∀ env req metadata idempotencyKey requestID, ValidateChatRequest (some req) = none →
      req.stream = false → normalizeIdempotencyKey metadata.idempotencyKey = .ok idempotencyKey →
      idFor metadata (env (.inl .randRead)) = .ok requestID →
      (RecordedOnce requestID
          (recordsIn env ((NewGatewayService codec outside options).Chat req metadata)) ↔
        ((∃ decision, decisionFor (NewGatewayService codec outside options)
          (env (.inl (.allow metadata.clientIdentity))) = .ok decision) →
        Accountable env (NewGatewayService codec outside options) req metadata.clientIdentity
          idempotencyKey))) ∧
    (∀ read req metadata requestID uses trace exit, ValidateChatRequest (some req) = none →
      req.stream = true → trimSpace metadata.idempotencyKey = "" →
      idFor metadata read = .ok requestID →
      (session (NewGatewayService codec outside options) req metadata uses).Runs trace exit →
      (accounting read).Answered ⟨.start, []⟩ trace → Billed requestID exit (recordsOf trace)) := by
  constructor
  · intro env req metadata idempotencyKey requestID valid plain normalized identified
    exact chat_recorded env (g := NewGatewayService codec outside options) recorder rfl req metadata
      valid plain normalized identified
  · intro read req metadata requestID uses trace exit valid streams unkeyed identified runs answered
    have obeys := session_obeys (g := NewGatewayService codec outside options) recorder rfl req
      metadata valid streams unkeyed identified uses
    have billed := obeys.runs runs answered
    rwa [advance_records] at billed

def recordingGateway : GatewayService calls :=
  NewGatewayService sampleCodec outside { sampleOptions with recorder := true }

def answering : (op : gatewayCalls.Op) → gatewayCalls.Reply op
  | .inr (.chatStream _) => .ok (0, some "mock")
  | op => (sampleReplies (fun _ => none) op).1

def streamedToEnd : List (Event gatewayCalls) × Exit (Except Err (List (Exit Returned))) :=
  (session recordingGateway { sampleRequest with stream := true } ⟨sampleIdentity, "", "id"⟩
    [.recv]).run answering

theorem streamed_answered : (accounting (.ok (.replicate 16 0))).Answered
    ⟨.start, []⟩ streamedToEnd.1 :=
  ⟨trivial, rfl, trivial, rfl, trivial, rfl, trivial, trivial, trivial, trivial⟩

theorem requests_recorded_once_sample :
    RecordedOnce "id" (recordsIn answering (recordingGateway.Chat sampleRequest sampleMetadata)) ∧
    RecordedOnce "id" (recordsOf streamedToEnd.1) := by
  have recorded := requests_recorded_once sampleCodec { sampleOptions with recorder := true } rfl
  constructor
  · refine (recorded.1 answering sampleRequest sampleMetadata "k" "id" rfl rfl rfl rfl).mpr
      fun _ => ?_
    exact ⟨rfl, _, .acquired, rfl, rfl, fun _ impossible => nomatch impossible⟩
  · have runs : (session recordingGateway { sampleRequest with stream := true }
        ⟨sampleIdentity, "", "id"⟩ [.recv]).Runs streamedToEnd.1 streamedToEnd.2 :=
      Program.run_runs answering _
    exact recorded.2 (.ok (.replicate 16 0)) { sampleRequest with stream := true }
      ⟨sampleIdentity, "", "id"⟩ "id" [.recv] streamedToEnd.1 streamedToEnd.2 rfl rfl rfl rfl runs
      streamed_answered

/-- The idempotency store cannot be reached. -/
def unreachable : (op : gatewayCalls.Op) → gatewayCalls.Reply op
  | .inl (.begin _ _) => .error (.text "connection refused")
  | op => answering op

/-- `Chat` returns the error of `Begin` and records nothing. -/
theorem not_requests_recorded_once :
    ¬ ∀ env req metadata idempotencyKey requestID,
      ValidateChatRequest (some req) = none → req.stream = false →
      normalizeIdempotencyKey metadata.idempotencyKey = .ok idempotencyKey →
      idFor metadata (env (.inl .randRead)) = .ok requestID →
      RecordedOnce requestID (recordsIn env (recordingGateway.Chat req metadata)) := by
  intro recorded
  obtain ⟨record, one, _⟩ :=
    recorded unreachable sampleRequest sampleMetadata "k" "id" rfl rfl rfl rfl
  have silent : recordsIn unreachable (recordingGateway.Chat sampleRequest sampleMetadata) = [] :=
    rfl
  rw [silent] at one
  cases one

end ModelGate.Service
