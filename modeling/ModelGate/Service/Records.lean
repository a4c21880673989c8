import ModelGate.Routing.Router
import ModelGate.Service.RequestId
import ModelGate.Storage.Calls

/-! What the gateway hands to the usage repository.

A request that arrives with an identifier is recorded under it, on every path
of `Chat` and of a stream, with a provider and a model that are not empty.
-/

set_option autoImplicit false

namespace ModelGate.Service

open Data Numeric Semantics Provider GatewayService

/-! The record as `internal/storage` gets it -/

/-- The constants of `internal/storage`. -/
def RecordStatus.text : RecordStatus → String
  | .succeeded => "succeeded"
  | .failed => "failed"
  | .rateLimited => "rate_limited"
  | .idempotencyReplay => "idempotency_replay"
  | .cacheHit => "cache_hit"
  | .rejected => "rejected"

/-- The gateway sets neither a cost nor a time. -/
def RequestRecord.stored (record : RequestRecord) (latency : Int) :
    Storage.Usage.RequestRecord where
  requestID := record.requestID
  provider := record.provider
  model := record.model
  status := record.status.text
  inputTokens := record.usage.promptTokens
  outputTokens := record.usage.completionTokens
  totalTokens := record.usage.totalTokens
  latency
  estimatedCost := .ofRat 0
  cacheStatus := record.cacheStatus.text
  errorCode := record.errorCode
  createdAt := none

/-- A record of the request with this identifier, with its names filled in. -/
structure RequestRecord.Signed (id : String) (record : RequestRecord) : Prop where
  requestID : record.requestID = id
  provider : record.provider ≠ ""
  model : record.model ≠ ""

variable {T : Signature} {id : String} {α β : Type}

/-- Every record is signed; whatever else is done is allowed. -/
def signing (T : Signature) (id : String) : Protocol (effects.sum T) Unit where
  may _
    | .inl (.record record) => record.Signed id
    | _ => True
  answers _ _ _ := True
  after _ _ _ := ()

/-- Nothing is asked of a provider. -/
def unwatched (T : Signature) : Protocol T Unit where
  may _ _ := True
  answers _ _ _ := True
  after _ _ _ := ()

section Rules

variable {post : Exit α → Unit → Prop}

theorem signing_ignores (op : Effect) (other : ∀ record, op ≠ .record record) :
    (signing T id).Ignores () (.inl op) := by
  refine ⟨?_, fun _ => rfl⟩
  cases op <;> first | trivial | exact absurd rfl (other _)

theorem signing_aside (op : Effect) (aside : op.Aside) : (signing T id).Ignores () (.inl op) :=
  signing_ignores op fun record same => by
    subst same
    exact aside

theorem signs_effect {op : Effect} (other : ∀ record, op ≠ .record record)
    {next : effects.Reply op → Program (effects.sum T) α}
    (rest : ∀ reply, Obeys (signing T id) post (next reply) ()) :
    Obeys (signing T id) post (effect op >>= next) () :=
  obeys_effect (signing_ignores op other) rest

theorem signs_record (g : GatewayService T) (record : RequestRecord) (signed : record.Signed id)
    {next : Unit → Program (effects.sum T) α} (rest : Obeys (signing T id) post (next ()) ()) :
    Obeys (signing T id) post (g.record record >>= next) () :=
  obeys_recording signing_aside g record ⟨signed, fun _ => rfl⟩ rest

theorem signs_behind {program : Program T β} {Q : Exit β → Unit → Prop}
    (known : Obeys (unwatched T) Q program ()) (aborts : ∀ reason, post (.aborted reason) ())
    {next : β → Program (effects.sum T) α}
    (rest : ∀ value, Q (.returned value) () → Obeys (signing T id) post (next value) ()) :
    Obeys (signing T id) post (program.along (.inr effects T) >>= next) () := by
  rw [obeys_bind, obeys_along]
  refine known.mono fun exit last held => ?_
  cases exit with
  | returned value => exact followed_returned.mpr (rest value held)
  | aborted reason => exact followed_aborted.mpr (aborts reason)

theorem unwatched_any (program : Program T β) : Obeys (unwatched T) (fun _ _ => True) program () :=
  obeys_of_runs (fun _ _ => trivial) fun _ _ _ _ => trivial

theorem unwatched_bind {program : Program T β} {Q : Exit β → Unit → Prop}
    (known : Obeys (unwatched T) Q program ()) (aborts : ∀ reason, post (.aborted reason) ())
    {next : β → Program T α}
    (rest : ∀ value, Q (.returned value) () → Obeys (unwatched T) post (next value) ()) :
    Obeys (unwatched T) post (program >>= next) () := by
  rw [obeys_bind]
  refine known.mono fun exit last held => ?_
  cases exit with
  | returned value => exact followed_returned.mpr (rest value held)
  | aborted reason => exact followed_aborted.mpr (aborts reason)

end Rules

/-! `Chat` -/

section Chat

variable {g : GatewayService T} (named : g.options.providerName ≠ "")

def SignedResult (id : String) : Exit (Except Err ChatResult) → Unit → Prop
  | .returned (.ok result), _ => result.requestID = id
  | _, _ => True

variable {a : Admitted} (own : a.requestID = id) (model : a.req.model ≠ "")

theorem providerNameFromError_ne_empty (err : Err) {fallback : String} (named : fallback ≠ "") :
    providerNameFromError err fallback ≠ "" := by
  unfold providerNameFromError
  split
  · split
    · assumption
    · exact named
  · exact named

section Admitted

include own model

theorem hit_signs (reservation : Option Reservation) (payload : Bytes) (cached : ChatResponse) :
    Obeys (signing T id) (SignedResult id) (g.hit a reservation payload cached) () := by
  refine signs_effect (by simp) fun _ => ?_
  refine obeys_completing signing_aside (fun _ _ => signing_ignores _ (by simp)) reservation ?_
  exact signs_record g _ ⟨own, (by decide : "cache" ≠ ""), model⟩ (obeys_done.mpr own)

theorem replay_signs (payload : Bytes) :
    Obeys (signing T id) (SignedResult id) (g.replay a payload) () := by
  unfold GatewayService.replay
  split
  · exact obeys_done.mpr trivial
  · exact signs_record g _ ⟨own, (by decide : "idempotency" ≠ ""), model⟩ (obeys_done.mpr own)

include named

theorem settle_signs (reservation : Option Reservation) (cacheKey : Option String)
    (answer : Except Err (Option ChatResponse)) :
    Obeys (signing T id) (SignedResult id) (g.settle a reservation cacheKey answer) () := by
  cases answer with
  | error err =>
      refine obeys_releasing signing_aside (fun _ _ => signing_ignores _ (by simp)) reservation ?_
      refine signs_record g _ ⟨own, providerNameFromError_ne_empty err named, model⟩ ?_
      exact obeys_done.mpr trivial
  | ok response =>
      cases response with
      | none => exact obeys_abort.mpr trivial
      | some response =>
          refine obeys_caching signing_aside (fun _ => signing_ignores _ (by simp)) cacheKey ?_
          refine obeys_completing signing_aside (fun _ _ => signing_ignores _ (by simp))
            reservation ?_
          refine signs_record g _ ⟨own, ?_, model⟩ ?_
          · dsimp only
            split
            · exact named
            · assumption
          · exact obeys_observing (signing_ignores _ (by simp)) (fun _ => trivial)
              (obeys_done.mpr own)

theorem execute_signs (reservation : Option Reservation) (cacheKey : Option String) :
    Obeys (signing T id) (SignedResult id) (g.execute a reservation cacheKey) () :=
  signs_behind (unwatched_any _) (fun _ => trivial) fun answer _ =>
    settle_signs named own model reservation cacheKey answer

theorem consult_signs (reservation : Option Reservation) (key : String)
    (found : Except Err (Option Bytes)) :
    Obeys (signing T id) (SignedResult id) (g.consult a reservation key found) () := by
  have ask := execute_signs named own model reservation (some key)
  cases found with
  | error err => exact signs_effect (by simp) fun _ => ask
  | ok entry =>
      cases entry with
      | none => exact ask
      | some payload =>
          simp only [GatewayService.consult]
          split
          · exact signs_effect (by simp) fun _ => ask
          · exact hit_signs own model reservation payload _

theorem lookup_signs (reservation : Option Reservation) :
    Obeys (signing T id) (SignedResult id) (g.lookup a reservation) () := by
  unfold GatewayService.lookup
  split
  · exact obeys_releasing signing_aside (fun _ _ => signing_ignores _ (by simp)) reservation
      (obeys_done.mpr trivial)
  · exact execute_signs named own model reservation none
  · split
    · exact execute_signs named own model reservation none
    · exact signs_effect (by simp) fun found => consult_signs named own model reservation _ found

theorem reject_signs (err : Err) : Obeys (signing T id) (SignedResult id) (g.reject a err) () :=
  signs_record g _ ⟨own, named, model⟩ (obeys_done.mpr trivial)

theorem begun_signs (key fingerprint : String) (result : Except Err Idempotency.Result) :
    Obeys (signing T id) (SignedResult id) (g.begun a key fingerprint result) () := by
  cases result with
  | error err => exact obeys_done.mpr trivial
  | ok result =>
      cases result with
      | acquired => exact lookup_signs named own model _
      | pending => exact reject_signs named own model _
      | conflict => exact reject_signs named own model _
      | completed response => exact replay_signs own model response

theorem reserve_signs : Obeys (signing T id) (SignedResult id) (g.reserve a) () := by
  unfold GatewayService.reserve
  split
  · exact lookup_signs named own model none
  · split
    · exact obeys_done.mpr trivial
    · split
      · exact obeys_done.mpr trivial
      · exact signs_effect (by simp) fun result => begun_signs named own model _ _ result

end Admitted

theorem model_ne_empty {req : ChatRequest} (valid : ValidateChatRequest (some req) = none) :
    req.model ≠ "" := by
  intro empty
  have blank : trimSpace req.model = "" := by
    rw [empty]
    decide
  simp [ValidateChatRequest, blank] at valid

theorem requestID_given {metadata : RequestMetadata} (given : trimSpace metadata.requestID = id)
    (some' : id ≠ "") : (requestID metadata : Program (effects.sum T) _) = .done (.ok id) := by
  rw [requestID, given, if_neg some']
  rfl

include named in
/-- A request that comes with an identifier is recorded and answered under it. -/
theorem chat_signs (req : ChatRequest) (metadata : RequestMetadata)
    (given : trimSpace metadata.requestID = id) (some' : id ≠ "") :
    Obeys (signing T id) (SignedResult id) (g.Chat req metadata) () := by
  rw [GatewayService.Chat, obeys_ensuring]
  have kept (exit : Exit (Except Err ChatResult)) (signed : SignedResult id exit ()) :
      (signing T id).cleaned (effect .cancel) (SignedResult id) exit () :=
    obeys_perform.mpr ⟨trivial, fun _ _ => obeys_done.mpr signed⟩
  suffices signs : Obeys (signing T id) (SignedResult id) (g.serve req metadata) () from
    signs.mono fun exit _ signed => kept exit signed
  unfold GatewayService.serve
  split
  · exact obeys_done.mpr trivial
  · rename_i valid
    split
    · exact obeys_done.mpr trivial
    · split
      · exact obeys_done.mpr trivial
      · rw [requestID_given given some']
        refine obeys_enforceRateLimit signing_aside g metadata.clientIdentity fun decision => ?_
        cases decision with
        | error err =>
            refine signs_record g ⟨id, _, _, _, _, _, _⟩ ?_ ?_
            · exact ⟨rfl, named, model_ne_empty valid⟩
            · exact obeys_done.mpr trivial
        | ok decision => exact reserve_signs named rfl (model_ne_empty valid)

end Chat

/-! Streams -/

section Streams

variable {g : GatewayService T} {m : Metered T}

theorem finishOnce_signs (own : m.requestID = id) (provider : m.provider ≠ "")
    (model : m.model ≠ "") (status : RecordStatus) (errorCode : String)
    {post : Exit α → Unit → Prop} (panics : ∀ reason, post (.aborted reason) ())
    {next : Unit → Program (effects.sum T) α} (rest : Obeys (signing T id) post (next ()) ()) :
    Obeys (signing T id) post (g.finishOnce m status errorCode >>= next) () := by
  unfold GatewayService.finishOnce onceDo
  rw [Program.bind_assoc]
  refine signs_effect (by simp) fun entered => ?_
  split
  · rw [obeys_bind, obeys_ensuring]
    refine signs_effect (by simp) fun _ => ?_
    refine signs_effect (by simp) fun usage => ?_
    refine signs_record g (m.record status errorCode usage) ⟨own, provider, model⟩ ?_
    rw [← Program.bind_done (observeTokens m.provider usage)]
    refine obeys_observing (signing_ignores _ (by simp)) (fun reason => ?_) (obeys_done.mpr ?_)
    · exact obeys_perform.mpr ⟨trivial, fun _ _ => obeys_done.mpr (panics reason)⟩
    · exact obeys_perform.mpr ⟨trivial, fun _ _ => obeys_done.mpr (followed_returned.mpr rest)⟩
  · exact rest

section Metered

variable (own : m.requestID = id) (provider : m.provider ≠ "") (model : m.model ≠ "")
include own provider model

theorem recv_signs : Obeys (signing T id) (fun _ _ => True) (g.Recv m) () := by
  unfold GatewayService.Recv
  split
  · exact obeys_abort.mpr trivial
  · refine signs_behind (unwatched_any _) (fun _ => trivial) fun received _ => ?_
    have ended : Obeys (signing T id) (fun _ _ => True)
        (g.noteEnd m received.2 >>= fun _ => (pure received : Program (effects.sum T) _)) () := by
      unfold GatewayService.noteEnd
      split
      · exact obeys_done.mpr trivial
      · split <;>
          exact finishOnce_signs own provider model _ _ (fun _ => trivial) (obeys_done.mpr trivial)
    unfold GatewayService.noteUsage
    split
    · exact ended
    · exact signs_effect (by simp) fun _ => ended

theorem close_signs : Obeys (signing T id) (fun _ _ => True) (g.Close m) () := by
  unfold GatewayService.Close
  split
  · exact obeys_abort.mpr trivial
  · refine signs_behind (unwatched_any _) (fun _ => trivial) fun failed _ => ?_
    exact finishOnce_signs own provider model _ _ (fun _ => trivial) (obeys_done.mpr trivial)

end Metered

/-- A stream with a name has one that is not empty. -/
def NamesStreams : Exit (Except Err (Option (Stream T))) → Unit → Prop
  | .returned (.ok stream), _ => StreamProviderName stream ≠ ""
  | _, _ => True

/-- The result of a streaming request, whose stream signs its records too. -/
def SignedStream (T : Signature) (id : String) : Exit (Except Err (StreamResult T)) → Unit → Prop
  | .returned (.ok result), _ => result.requestID = id ∧
      Obeys (signing T id) (fun _ _ => True) result.stream.Recv () ∧
      Obeys (signing T id) (fun _ _ => True) result.stream.Close ()
  | _, _ => True

theorem opened_signs (named : g.options.providerName ≠ "") {req : ChatRequest}
    (model : req.model ≠ "") (decision : RateLimit.Decision)
    (answer : Except Err (Option (Stream T))) (known : NamesStreams (.returned answer) ()) :
    Obeys (signing T id) (SignedStream T id) (g.opened req id decision answer) () := by
  cases answer with
  | error err =>
      refine signs_record g ⟨id, _, _, _, _, _, _⟩
        ⟨rfl, providerNameFromError_ne_empty err named, model⟩ ?_
      exact signs_effect (by simp) fun _ => obeys_done.mpr trivial
  | ok stream =>
      refine signs_effect (by simp) fun cell => obeys_done.mpr ?_
      have provider : (if StreamProviderName stream = "unknown" then g.options.providerName
          else StreamProviderName stream) ≠ "" := by
        split
        · exact named
        · exact known
      exact ⟨rfl, recv_signs (m := ⟨stream, cell, id, _, req.model⟩) rfl provider model,
        close_signs (m := ⟨stream, cell, id, _, req.model⟩) rfl provider model⟩

theorem refuseStream_signs (err : Err) :
    Obeys (signing T id) (SignedStream T id) (refuseStream err) () :=
  signs_effect (by simp) fun _ => obeys_done.mpr trivial

/-- A streaming request that comes with an identifier is recorded and answered under it, now
and by its stream. -/
theorem chatStream_signs (named : g.options.providerName ≠ "")
    (streams : ∀ req, Obeys (unwatched T) NamesStreams (g.chat.ChatStream req) ())
    (req : ChatRequest) {metadata : RequestMetadata} (given : trimSpace metadata.requestID = id)
    (some' : id ≠ "") :
    Obeys (signing T id) (SignedStream T id) (g.ChatStream req metadata) () := by
  unfold GatewayService.ChatStream
  split
  · exact refuseStream_signs _
  · rename_i valid
    split
    · exact refuseStream_signs _
    · split
      · exact refuseStream_signs _
      · rw [requestID_given given some']
        refine obeys_enforceRateLimit signing_aside g metadata.clientIdentity fun decision => ?_
        have model := model_ne_empty valid
        cases decision with
        | error err =>
            refine signs_record g ⟨id, _, _, _, _, _, _⟩ ⟨rfl, named, model⟩ ?_
            exact signs_effect (by simp) fun _ => obeys_done.mpr trivial
        | ok decision =>
            refine signs_behind (Q := NamesStreams) ?_ (fun _ => trivial) fun answer known =>
              opened_signs named model decision answer known
            unfold ChatService.ChatStream
            split
            · exact obeys_done.mpr trivial
            · split
              · exact obeys_done.mpr trivial
              · exact streams req

end Streams

/-! The streams of a router -/

section Router

open Routing (Router Routed Target Cursor)

variable (r : Router T)

def Picks : Exit (Option (Target T) × Cursor) → Unit → Prop
  | .returned (some target, _), _ => target.name ∈ r.targets.map fun state => state.target.name
  | _, _ => True

theorem roundRobin_picks (excluded : List String) (left : Nat) (cursor : Cursor) :
    Obeys (unwatched _) (Picks r) (r.roundRobin excluded left cursor) () := by
  induction left generalizing cursor with
  | zero => exact obeys_done.mpr trivial
  | succ left ih =>
      unfold Router.roundRobin
      split
      · exact obeys_abort.mpr trivial
      · rename_i candidate found
        refine unwatched_bind (unwatched_any _) (fun _ => trivial) fun passed _ => ?_
        split
        · exact obeys_done.mpr (List.mem_map_of_mem (List.mem_of_getElem? found))
        · exact ih _

theorem choose_picks (excluded : List String) (cursor : Cursor) :
    Obeys (unwatched _) (Picks r) (r.choose excluded cursor) () := by
  unfold Router.choose
  split
  · exact roundRobin_picks r excluded _ cursor
  · refine unwatched_bind (unwatched_any _) (fun _ => trivial) fun w _ => ?_
    unfold Router.weighted
    split
    · exact obeys_done.mpr trivial
    · split
      · exact obeys_abort.mpr trivial
      · rename_i found
        exact obeys_done.mpr (List.mem_map_of_mem (List.mem_of_getElem? found))
  · exact obeys_done.mpr trivial

/-- The stream of a target goes by the name of the target. -/
def Renamed : Exit (Routed (Stream (Routing.effects.sum T))) → Unit → Prop
  | .returned (.answered (.ok stream)), _ =>
      ∃ name ∈ r.targets.map fun state => state.target.name, stream.name = some name
  | _, _ => True

theorem route_renames (operation nilMessage : String)
    (call : Target T → Program T (Except Err (Option (Stream T)))) (rounds : Nat)
    (excluded : List String) :
    Obeys (unwatched _) (Renamed r)
      (r.route operation nilMessage call
        (fun name stream => Routing.namedStream name (stream.along (.inr Routing.effects T))) rounds
        excluded) () := by
  induction rounds generalizing excluded with
  | zero => exact obeys_abort.mpr trivial
  | succ rounds ih =>
      unfold Router.route
      split
      · rw [Router.selectTarget, Program.bind_assoc]
        refine unwatched_bind (unwatched_any _) (fun _ => trivial) fun cursor _ => ?_
        rw [Program.bind_assoc]
        refine unwatched_bind (choose_picks r excluded cursor) (fun _ => trivial)
          fun (selected, left) picked => ?_
        rw [Program.bind_assoc]
        refine unwatched_bind (unwatched_any _) (fun _ => trivial) fun _ _ => ?_
        cases selected with
        | none => exact obeys_done.mpr trivial
        | some target =>
            simp only [Program.pure_eq, Program.done_bind]
            refine unwatched_bind (unwatched_any _) (fun _ => trivial) fun answer _ => ?_
            match answer with
            | .error err =>
                simp only [Router.heard]
                split
                · exact ih _
                · exact obeys_done.mpr trivial
            | .ok none => exact obeys_done.mpr trivial
            | .ok (some stream) => exact obeys_done.mpr ⟨target.name, picked, rfl⟩
      · exact obeys_done.mpr trivial

theorem enroll_named {quote : String → String} {candidates : List (Routing.WeightedTarget T)}
    {names : List String} {states enrolled : List (Routing.TargetState T)}
    (accepted : Routing.enroll quote candidates names states = .ok enrolled)
    (named : ∀ state ∈ states, state.target.name ≠ "") :
    ∀ state ∈ enrolled, state.target.name ≠ "" := by
  induction candidates generalizing names states with
  | nil =>
      obtain rfl := Except.ok.inj accepted
      exact named
  | cons candidate candidates ih =>
      simp only [Routing.enroll] at accepted
      split at accepted
      · cases accepted
      · rename_i target _
        split at accepted
        · cases accepted
        · rename_i visible
          split at accepted
          · cases accepted
          · split at accepted
            · cases accepted
            · refine ih accepted fun state member => ?_
              rcases List.mem_append.mp member with old | new
              · exact named state old
              · obtain rfl := List.mem_singleton.mp new
                intro empty
                refine visible ?_
                show trimSpace target.name = ""
                rw [show target.name = "" from empty]
                decide

theorem named_of_new {quote : String → String} {strategy : Routing.Strategy}
    {targets : List (Routing.WeightedTarget T)} {r : Router T}
    (made : Routing.New quote strategy targets = .ok r) :
    ∀ state ∈ r.targets, state.target.name ≠ "" := by
  unfold Routing.New at made
  split at made
  · cases made
  · split at made
    · cases made
    · cases enrolled : Routing.enroll quote targets [] [] with
      | error err =>
          rw [enrolled] at made
          cases made
      | ok states =>
          rw [enrolled] at made
          cases made
          exact enroll_named enrolled (List.forall_mem_nil _)

theorem router_names_streams (named : ∀ state ∈ r.targets, state.target.name ≠ "")
    (req : ChatRequest) : Obeys (unwatched _) NamesStreams (r.provider.ChatStream req) () := by
  refine unwatched_bind (route_renames r _ _ _ _ _) (fun _ => trivial)
    fun routed renamed => obeys_done.mpr ?_
  match routed with
  | .unavailable err => exact trivial
  | .answered (.error err) => exact trivial
  | .answered (.ok stream) =>
      obtain ⟨name, member, same⟩ := renamed
      obtain ⟨state, among, rfl⟩ := List.mem_map.mp member
      show StreamProviderName (some stream) ≠ ""
      rw [StreamProviderName, Option.bind_some, same]
      exact named state among

end Router

/-! What the repository makes of a record -/

section Stored

variable {record : RequestRecord} {latency : Int}

theorem status_stored (status : RecordStatus) : status.text ∈ Storage.Usage.statuses := by
  cases status <;> decide

theorem cacheStatus_stored (status : Cache.Status) : Storage.Usage.storable status.text = true := by
  cases status <;> decide +kernel

/-- The counts are the provider's; the rest the repository asks for is there. -/
theorem RequestRecord.Signed.complete (signed : record.Signed id) (some' : id ≠ "")
    (elapsed : 0 ≤ latency)
    (counted : 0 ≤ record.usage.promptTokens ∧ 0 ≤ record.usage.completionTokens ∧
      0 ≤ record.usage.totalTokens) : (record.stored latency).Complete :=
  ⟨⟨signed.provider, signed.model, fun empty => some' (signed.requestID ▸ empty)⟩, elapsed, counted⟩

theorem RequestRecord.Signed.storable {limits : Storage.Usage.Limits} {value : Vector UInt8 16}
    (signed : record.Signed (formatRequestID value)) (free : limits.cost (.ofRat 0) = true)
    (indexed : limits.name record.provider = true ∧
      limits.model record.provider record.model = true)
    (texts : ∀ text ∈ [record.provider, record.model, record.errorCode],
      Storage.Usage.storable text = true) : (record.stored latency).Storable limits := by
  simp only [List.forall_mem_cons, List.not_mem_nil, false_imp_iff, implies_true, and_true] at texts
  obtain ⟨provider, model, errorCode⟩ := texts
  refine ⟨⟨(stamped value).toList, ?_⟩, ?_, status_stored _, indexed, free⟩
  · rw [RequestRecord.stored, signed.requestID]
    exact parseUUID_formatRequestID value
  · simp only [RequestRecord.stored, List.forall_mem_cons, List.not_mem_nil, false_imp_iff,
      implies_true, and_true]
    exact ⟨provider, model, cacheStatus_stored _, errorCode⟩

end Stored

end ModelGate.Service
