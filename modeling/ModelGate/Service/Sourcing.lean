import ModelGate.Semantics.Pool
import ModelGate.Service.Gateway

/-! What one request has heard before it stores or returns a response. -/

set_option autoImplicit false

namespace ModelGate.Service

open Data Semantics Provider

/-- The key a valid request has in the cache. -/
def Codec.CacheKey (codec : Codec) (request : Request) (key : String) : Prop :=
  ValidateChatRequest (some request.req) = none ∧
    Cache.Key codec.sha256 codec.marshalRequest request.metadata.clientIdentity request.req =
      .ok (some key)

/-- The normalized key of a valid request, and what it begins with. -/
structure Codec.Scope (codec : Codec) (request : Request) (idempotencyKey key fingerprint :
      String) : Prop where
  valid : ValidateChatRequest (some request.req) = none
  normalized : normalizeIdempotencyKey request.metadata.idempotencyKey = .ok idempotencyKey
  present : idempotencyKey ≠ ""
  located : key = Idempotency.ScopedKey codec.sha256 request.metadata.clientIdentity idempotencyKey
  fingerprinted : requestFingerprint codec request.req = .ok fingerprint

def chatEvent (req : ChatRequest) (answer : Except Err ChatResponse) : Event gatewayCalls :=
  ⟨.inr (.chat req), answer⟩

def hitEvent (key : String) (payload : Bytes) : Event gatewayCalls :=
  ⟨.inl (.get key), .ok (some payload)⟩

def replayEvent (key fingerprint : String) (payload : Bytes) : Event gatewayCalls :=
  ⟨.inl (.begin key fingerprint), .ok (.completed payload)⟩

/-- The operations that put a response into a store. -/
def Stores : gatewayCalls.Op → Prop
  | .inl (.set _ _) | .inl (.complete _ _ _) => True
  | _ => False

def notable : gatewayCalls.Op → Bool
  | .inl (.begin _ _) | .inl (.complete _ _ _) | .inl (.get _) | .inl (.set _ _) | .inr _ => true
  | .inl _ => false

/-- A request and what it has done that matters for the stores. -/
structure Story where
  request : Request
  past : List (Event gatewayCalls)

namespace Story

def hear (story : Story) (event : Event gatewayCalls) : Story :=
  ⟨story.request, story.past ++ [event]⟩

def Unfailed (past : List (Event gatewayCalls)) : Prop :=
  ∀ req err, chatEvent req (.error err) ∉ past

def Unstored (past : List (Event gatewayCalls)) : Prop := ∀ event ∈ past, ¬ Stores event.op

def Answered (codec : Codec) (story : Story) (payload : Bytes) : Prop :=
  ∃ response, chatEvent story.request.req (.ok response) ∈ story.past ∧
    payload = codec.marshalResponse response

/-- The payload is what the cache held for the request. -/
def Found (codec : Codec) (story : Story) (payload : Bytes) : Prop :=
  ∃ key cached, hitEvent key payload ∈ story.past ∧ codec.unmarshalResponse payload = .ok cached

variable {past : List (Event gatewayCalls)} {event : Event gatewayCalls}

theorem Unfailed.hear (unfailed : Unfailed past)
    (other : ∀ req err, chatEvent req (.error err) ≠ event) : Unfailed (past ++ [event]) := by
  intro req err member
  rcases List.mem_append.mp member with old | new
  · exact unfailed req err old
  · exact other req err (List.mem_singleton.mp new)

theorem Unstored.hear (unstored : Unstored past) (other : ¬ Stores event.op) :
    Unstored (past ++ [event]) := by
  intro told member
  rcases List.mem_append.mp member with old | new
  · exact unstored told old
  · obtain rfl := List.mem_singleton.mp new
    exact other

end Story

/-- A request stores a response only once the provider has answered with it or
the cache has held it, and only under its own keys. -/
def sourcing (codec : Codec) : Protocol gatewayCalls Story where
  may story
    | .inl (.get key) => codec.CacheKey story.request key
    | .inl (.set key payload) =>
        codec.CacheKey story.request key ∧ Story.Unfailed story.past ∧ story.Answered codec payload
    | .inl (.begin key fingerprint) =>
        ∃ idempotencyKey, codec.Scope story.request idempotencyKey key fingerprint
    | .inl (.complete key fingerprint payload) =>
        (∃ idempotencyKey, codec.Scope story.request idempotencyKey key fingerprint) ∧
          Story.Unfailed story.past ∧ (story.Answered codec payload ∨ story.Found codec payload)
    | .inr (.chat req) => req = story.request.req ∧ Story.Unstored story.past
    | .inr _ => False
    | .inl _ => True
  answers _ _ _ := True
  after story op reply := if notable op then story.hear ⟨op, reply⟩ else story

/-- Where a result that is not the provider's own comes from. -/
def Sourced (codec : Codec) : Exit (Except Err ChatResult) → Story → Prop
  | .returned (.ok result), story =>
      (result.cacheStatus = .hit → ∃ key payload, hitEvent key payload ∈ story.past ∧
        codec.unmarshalResponse payload = .ok result.response) ∧
      (result.idempotencyReplayed = true →
        ∃ key fingerprint payload, replayEvent key fingerprint payload ∈ story.past ∧
        codec.unmarshalResponse payload = .ok result.response)
  | _, _ => True

section Obedience

open GatewayService

variable {codec : Codec} {story : Story} {α : Type} {post : Exit α → Story → Prop}

theorem sourcing_ignores {op : gatewayCalls.Op} (plain : notable op = false) :
    (sourcing codec).Ignores story op := by
  constructor
  · cases op with
    | inr call => cases plain
    | inl op => cases op <;> trivial
  · intro reply
    exact if_neg (by simp [plain])

theorem sourcing_incidental (op : Effect) (incidental : op.Incidental) :
    (sourcing codec).Ignores story (.inl op) := by
  apply sourcing_ignores
  cases op <;> first | rfl | exact absurd incidental id

theorem sourcing_aside (op : Effect) (aside : op.Aside) :
    (sourcing codec).Ignores story (.inl op) :=
  sourcing_incidental op aside.incidental

theorem record_sourced (g : GatewayService calls) (record : RequestRecord)
    {next : Unit → Program gatewayCalls α} (rest : Obeys (sourcing codec) post (next ()) story) :
    Obeys (sourcing codec) post (g.record record >>= next) story :=
  obeys_recording sourcing_aside g record (sourcing_ignores rfl) rest

theorem release_sourced (reservation : Option Reservation) {next : Unit → Program gatewayCalls α}
    (rest : Obeys (sourcing codec) post (next ()) story) :
    Obeys (sourcing codec) post (releaseIdempotency reservation >>= next) story :=
  obeys_releasing sourcing_aside (fun _ _ => sourcing_ignores rfl) reservation rest

/-- The reservation a request may have is one of its own. -/
def Own (codec : Codec) (request : Request) (reservation : Option Reservation) : Prop :=
  ∀ held, reservation = some held →
    ∃ idempotencyKey, codec.Scope request idempotencyKey held.key held.fingerprint

section Request

variable {request : Request} {past : List (Event gatewayCalls)}

theorem complete_sourced {payload : Bytes} {reservation : Option Reservation}
    (own : Own codec request reservation) (unfailed : Story.Unfailed past)
    (source : Story.Answered codec ⟨request, past⟩ payload ∨
      Story.Found codec ⟨request, past⟩ payload)
    {next : Unit → Program gatewayCalls α}
    (rest : ∀ later, (∀ event ∈ past, event ∈ later) →
      Obeys (sourcing codec) post (next ()) ⟨request, later⟩) :
    Obeys (sourcing codec) post (completeIdempotency payload reservation >>= next)
      ⟨request, past⟩ := by
  cases reservation with
  | none => exact rest past fun _ member => member
  | some held =>
      unfold completeIdempotency
      rw [Program.bind_assoc]
      apply obeys_perform.mpr
      refine ⟨⟨own held rfl, unfailed, source⟩, fun failed _ => obeys_sink sourcing_aside failed ?_⟩
      exact rest _ fun _ => List.mem_append_left _

theorem cacheResponse_sourced {payload : Bytes} {cacheKey : Option String}
    (keyed : ∀ key, cacheKey = some key → codec.CacheKey request key)
    (unfailed : Story.Unfailed past) (source : Story.Answered codec ⟨request, past⟩ payload)
    {next : Unit → Program gatewayCalls α}
    (rest : ∀ later, Story.Unfailed later → Story.Answered codec ⟨request, later⟩ payload →
      Obeys (sourcing codec) post (next ()) ⟨request, later⟩) :
    Obeys (sourcing codec) post (cacheResponse payload cacheKey >>= next) ⟨request, past⟩ := by
  cases cacheKey with
  | none => exact rest past unfailed source
  | some key =>
      unfold cacheResponse
      rw [Program.bind_assoc]
      apply obeys_perform.mpr
      refine ⟨⟨keyed key rfl, unfailed, source⟩, fun failed _ =>
        obeys_sink sourcing_aside failed ?_⟩
      obtain ⟨response, told, encoded⟩ := source
      have clean : Story.Unfailed (past ++ [⟨.inl (.set key payload), failed⟩]) := by
        apply unfailed.hear
        intro req err same
        cases same
      exact rest _ clean ⟨response, List.mem_append_left _ told, encoded⟩

variable {g : GatewayService calls} (asked : g.chat = outside) {a : Admitted}
  (same : a.req = request.req) (client : a.identity = request.metadata.clientIdentity)
  {reservation : Option Reservation}

theorem fail_sourced (cacheKey : Option String) (err : Err) :
    Obeys (sourcing g.codec) (Sourced g.codec) (g.fail a reservation cacheKey err)
      ⟨request, past⟩ :=
  release_sourced reservation (record_sourced g _ (obeys_done.mpr trivial))

theorem replay_sourced {key fingerprint : String} {payload : Bytes}
    (told : replayEvent key fingerprint payload ∈ past) :
    Obeys (sourcing g.codec) (Sourced g.codec) (g.replay a payload) ⟨request, past⟩ := by
  unfold replay
  split
  · exact obeys_done.mpr trivial
  · apply record_sourced
    apply obeys_done.mpr
    constructor
    · intro hit
      cases hit
    · intro _
      exact ⟨key, fingerprint, payload, told, ‹_›⟩

section Held

variable (own : Own g.codec request reservation) (unfailed : Story.Unfailed past)
include own unfailed

theorem succeed_sourced {cacheKey : Option String} {response : ChatResponse}
    (keyed : ∀ key, cacheKey = some key → g.codec.CacheKey request key)
    (answered : chatEvent request.req (.ok response) ∈ past) :
    Obeys (sourcing g.codec) (Sourced g.codec) (g.succeed a reservation cacheKey response)
      ⟨request, past⟩ := by
  unfold succeed
  apply cacheResponse_sourced keyed unfailed ⟨response, answered, rfl⟩
  intro later clean source
  apply complete_sourced own clean (.inl source)
  intro last _
  apply record_sourced
  apply obeys_observing (sourcing_incidental (.observeTokens _ _) trivial) (fun _ => trivial)
  apply obeys_done.mpr
  constructor
  · intro hit
    dsimp only at hit
    split at hit <;> cases hit
  · intro replayed
    cases replayed

theorem hit_sourced {key : String} {payload : Bytes}
    {cached : ChatResponse} (told : hitEvent key payload ∈ past)
    (decoded : g.codec.unmarshalResponse payload = .ok cached) :
    Obeys (sourcing g.codec) (Sourced g.codec) (g.hit a reservation payload cached)
    ⟨request, past⟩ := by
  apply obeys_effect (sourcing_incidental .observeCacheHit trivial)
  intro _
  apply complete_sourced own unfailed (.inr ⟨key, cached, told, decoded⟩)
  intro later kept
  apply record_sourced
  apply obeys_done.mpr
  constructor
  · intro _
    exact ⟨key, payload, kept _ told, decoded⟩
  · intro replayed
    cases replayed

variable (unstored : Story.Unstored past)
include asked same unstored

theorem execute_sourced {cacheKey : Option String}
    (keyed : ∀ key, cacheKey = some key → g.codec.CacheKey request key) :
    Obeys (sourcing g.codec) (Sourced g.codec) (g.execute a reservation cacheKey)
      ⟨request, past⟩ := by
  unfold execute ChatService.Chat
  rw [asked, same]
  split
  · exact fail_sourced cacheKey _
  · split
    · exact fail_sourced cacheKey _
    · apply obeys_perform.mpr
      refine ⟨⟨rfl, unstored⟩, fun answer _ => ?_⟩
      cases answer with
      | error err => exact fail_sourced cacheKey err
      | ok response =>
          have clean : Story.Unfailed (past ++ [chatEvent request.req (.ok response)]) := by
            apply unfailed.hear
            intro req err equal
            cases equal
          exact succeed_sourced own clean keyed
            (List.mem_append_right _ (List.mem_singleton_self _))

theorem consult_sourced {key : String} (keyed : g.codec.CacheKey request key)
    (found : Except Err (Option Bytes)) :
    Obeys (sourcing g.codec) (Sourced g.codec) (g.consult a reservation key found)
      ⟨request, past ++ [⟨.inl (.get key), found⟩]⟩ := by
  have clean : Story.Unfailed (past ++ [⟨.inl (.get key), found⟩]) := by
    apply unfailed.hear
    intro req err equal
    cases equal
  have executes : Obeys (sourcing g.codec) (Sourced g.codec) (g.execute a reservation (some key))
      ⟨request, past ++ [⟨.inl (.get key), found⟩]⟩ := by
    apply execute_sourced asked same own clean
    · exact unstored.hear id
    · intro other equal
      obtain rfl := Option.some.inj equal
      exact keyed
  match found with
  | .error err => exact obeys_effect (sourcing_incidental (.errorSink _) trivial) fun _ => executes
  | .ok none => exact executes
  | .ok (some payload) =>
      simp only [consult]
      split
      · exact obeys_effect (sourcing_incidental (.errorSink _) trivial) fun _ => executes
      · exact hit_sourced own clean (List.mem_append_right _ (List.mem_singleton_self _)) ‹_›

include client in
theorem lookup_sourced (valid : ValidateChatRequest (some request.req) = none) :
    Obeys (sourcing g.codec) (Sourced g.codec) (g.lookup a reservation) ⟨request, past⟩ := by
  have plain : Obeys (sourcing g.codec) (Sourced g.codec) (g.execute a reservation none)
      ⟨request, past⟩ :=
    execute_sourced asked same own unfailed unstored fun _ impossible => nomatch impossible
  unfold lookup
  split
  · exact release_sourced reservation (obeys_done.mpr trivial)
  · exact plain
  · rename_i key computed
    split
    · exact plain
    · have keyed : g.codec.CacheKey request key := by
        rw [same, client] at computed
        exact ⟨valid, computed⟩
      apply obeys_perform.mpr
      exact ⟨keyed, fun found _ => consult_sourced asked same own unfailed unstored keyed found⟩

end Held

section Fresh

variable (valid : ValidateChatRequest (some request.req) = none)
include asked same client valid

theorem begun_sourced {idempotencyKey key fingerprint : String}
    (scope : g.codec.Scope request idempotencyKey key fingerprint)
    (result : Except Err Idempotency.Result) :
    Obeys (sourcing g.codec) (Sourced g.codec) (g.begun a key fingerprint result)
      ⟨request, [⟨.inl (.begin key fingerprint), result⟩]⟩ := by
  match result with
  | .error err => exact obeys_done.mpr trivial
  | .ok .acquired =>
      have own : Own g.codec request (some ⟨key, fingerprint⟩) := by
        intro held equal
        obtain rfl := Option.some.inj equal
        exact ⟨idempotencyKey, scope⟩
      apply lookup_sourced asked same client own _ _ valid
      · intro req err member
        cases List.mem_singleton.mp member
      · intro event member
        obtain rfl := List.mem_singleton.mp member
        exact id
  | .ok .pending => exact record_sourced g _ (obeys_done.mpr trivial)
  | .ok .conflict => exact record_sourced g _ (obeys_done.mpr trivial)
  | .ok (.completed response) => exact replay_sourced (List.mem_singleton_self _)

theorem reserve_sourced
    (normalized : normalizeIdempotencyKey request.metadata.idempotencyKey = .ok a.idempotencyKey) :
    Obeys (sourcing g.codec) (Sourced g.codec) (g.reserve a) ⟨request, []⟩ := by
  unfold reserve
  split
  · apply lookup_sourced asked same client _ _ _ valid
    · exact fun held impossible => nomatch impossible
    · exact fun req err => List.not_mem_nil
    · exact fun event member => absurd member List.not_mem_nil
  · rename_i present
    split
    · exact obeys_done.mpr trivial
    · split
      · exact obeys_done.mpr trivial
      · rename_i fingerprint computed
        rw [same] at computed
        have scope : g.codec.Scope request a.idempotencyKey
            (Idempotency.ScopedKey g.codec.sha256 a.identity a.idempotencyKey) fingerprint :=
          ⟨valid, normalized, present, by rw [client], computed⟩
        apply obeys_perform.mpr
        exact ⟨⟨_, scope⟩, fun result _ => begun_sourced asked same client valid scope result⟩

end Fresh

/-- A request tells its story in this order, whatever it is answered. -/
theorem chat_sourced (asked : g.chat = outside) (request : Request) :
    Obeys (sourcing g.codec) (Sourced g.codec) (g.Chat request.req request.metadata)
      ⟨request, []⟩ := by
  have serves : Obeys (sourcing g.codec) (Sourced g.codec) (g.serve request.req request.metadata)
      ⟨request, []⟩ := by
    unfold serve
    split
    · exact obeys_done.mpr trivial
    · rename_i valid
      split
      · exact obeys_done.mpr trivial
      · split
        · exact obeys_done.mpr trivial
        · rename_i normalized
          apply obeys_requestID sourcing_aside
          intro id
          match id with
          | .error err => exact obeys_done.mpr trivial
          | .ok id =>
              apply obeys_enforceRateLimit sourcing_aside
              intro decision
              match decision with
              | .error err => exact record_sourced g _ (obeys_done.mpr trivial)
              | .ok decision => exact reserve_sourced asked rfl rfl valid normalized
  apply obeys_ensuring.mpr
  apply serves.mono
  intro exit last sourced
  exact obeys_perform.mpr ⟨trivial, fun _ _ => obeys_done.mpr sourced⟩

end Request

end Obedience

end ModelGate.Service
