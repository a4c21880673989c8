import ModelGate.Semantics.Pool
import ModelGate.Service.Gateway

/-! What one request with an idempotency key does to its reservation.

The stages of `Chat` are read off its operations alone; `chat_obeys` says that
the program takes them in the one order that keeps a reservation safe.
-/

set_option autoImplicit false

namespace ModelGate.Service

open Data Semantics Provider

inductive Stage where
  | before
  | refused
  | conflicting
  | replayed (payload : Bytes)
  | held
  | answered (answer : Except Err ChatResponse)
  | completed (payload : Bytes)
  | released

namespace Stage

/-- Between a `Begin` that acquired and the request's own `Complete` or `Release`. -/
def Active : Stage → Prop
  | .held | .answered _ => True
  | _ => False

/-- The stages a reservation of the request leads to. -/
def Owning : Stage → Prop
  | .completed _ => True
  | stage => stage.Active

theorem owning_of_active {stage : Stage} (active : stage.Active) : stage.Owning := by
  cases stage <;> first | exact active | exact absurd active id

theorem completed_of_owning {stage : Stage} (owns : stage.Owning) (idle : ¬ stage.Active) :
    ∃ payload, stage = .completed payload := by
  cases stage <;> first | exact ⟨_, rfl⟩ | exact absurd owns idle

def begun (result : Except Err Idempotency.Result) : Stage :=
  match result with
  | .error _ => .refused
  | .ok .acquired => .held
  | .ok .pending => .refused
  | .ok .conflict => .conflicting
  | .ok (.completed response) => .replayed response

/-- A failed provider call completes nothing. -/
def MayComplete : Stage → Prop
  | .held | .answered (.ok _) => True
  | _ => False

/-- A successful provider call is not released. -/
def MayRelease : Stage → Prop
  | .held | .answered (.error _) => True
  | _ => False

theorem active_of_mayComplete {stage : Stage} (allowed : stage.MayComplete) : stage.Active := by
  cases stage <;> trivial

theorem active_of_mayRelease {stage : Stage} (allowed : stage.MayRelease) : stage.Active := by
  cases stage <;> trivial

end Stage

/-- A request by the fingerprint it would begin with, if it has one, and the
answers the provider has given it. -/
structure Progress where
  fingerprint : Option String
  stage : Stage
  answers : List (Except Err ChatResponse)

namespace Progress

def reach (progress : Progress) (stage : Stage) : Progress := { progress with stage }

def hear (progress : Progress) (answer : Except Err ChatResponse) : Progress :=
  ⟨progress.fingerprint, .answered answer, progress.answers ++ [answer]⟩

end Progress

/-- The stages of a request on one scoped key. -/
def reservation (key : String) : Protocol gatewayCalls Progress where
  may progress
    | .inl (.begin target fingerprint) =>
        progress.stage = .before ∧ target = key ∧ progress.fingerprint = some fingerprint
    | .inl (.complete target fingerprint _) =>
        progress.stage.MayComplete ∧ target = key ∧ progress.fingerprint = some fingerprint
    | .inl (.release target fingerprint) =>
        progress.stage.MayRelease ∧ target = key ∧ progress.fingerprint = some fingerprint
    | .inr (.chat _) => progress.stage = .held
    | .inr _ => False
    | .inl _ => True
  answers _ _ _ := True
  after progress
    | .inl (.begin _ _), result => progress.reach (.begun result)
    | .inl (.complete _ _ payload), _ => progress.reach (.completed payload)
    | .inl (.release _ _), _ => progress.reach .released
    | .inr (.chat _), answer => progress.hear answer
    | _, _ => progress

/-- A payload stands for a response: it is its encoding, or decodes to it. -/
def Codec.Stands (codec : Codec) (payload : Bytes) (response : ChatResponse) : Prop :=
  codec.marshalResponse response = payload ∨ codec.unmarshalResponse payload = .ok response

/-- How a request ends in each stage. Its one panic is that of the observer, at the end. -/
def Settled (codec : Codec) : Exit (Except Err ChatResult) → Progress → Prop
  | .returned (.ok result), progress =>
      ∃ payload, (progress.stage = .completed payload ∨ progress.stage = .replayed payload) ∧
        codec.Stands payload result.response
  | .returned (.error err), progress =>
      ¬ progress.stage.Owning ∧
        (progress.stage = .conflicting → err = .idempotency "idempotency_key_conflict")
  | .aborted _, progress => ∃ payload, progress.stage = .completed payload

/-- The effects that leave every stage as it is. -/
def Effect.Neutral : Effect → Prop
  | .begin _ _ | .complete _ _ _ | .release _ _ => False
  | _ => True

/-- The operations that touch neither the reservation nor the provider. -/
def Quiet : gatewayCalls.Op → Prop
  | .inl op => op.Neutral
  | .inr _ => False

theorem may_cases {key : String} {progress : Progress} {op : gatewayCalls.Op}
    (allowed : (reservation key).may progress op) :
    (∃ fingerprint, op = .inl (.begin key fingerprint) ∧ progress.stage = .before ∧
      progress.fingerprint = some fingerprint) ∨
    (∃ fingerprint payload, op = .inl (.complete key fingerprint payload) ∧
      progress.stage.MayComplete ∧ progress.fingerprint = some fingerprint) ∨
    (∃ fingerprint, op = .inl (.release key fingerprint) ∧ progress.stage.MayRelease ∧
      progress.fingerprint = some fingerprint) ∨
    (∃ req, op = .inr (.chat req) ∧ progress.stage = .held) ∨
    (Quiet op ∧ ∀ reply, (reservation key).after progress op reply = progress) := by
  match op with
  | .inl (.begin target fingerprint) =>
      obtain ⟨stage, rfl, own⟩ := allowed
      exact .inl ⟨fingerprint, rfl, stage, own⟩
  | .inl (.complete target fingerprint payload) =>
      obtain ⟨stage, rfl, own⟩ := allowed
      exact .inr (.inl ⟨fingerprint, payload, rfl, stage, own⟩)
  | .inl (.release target fingerprint) =>
      obtain ⟨stage, rfl, own⟩ := allowed
      exact .inr (.inr (.inl ⟨fingerprint, rfl, stage, own⟩))
  | .inr (.chat req) => exact .inr (.inr (.inr (.inl ⟨req, rfl, allowed⟩)))
  | .inr (.chatStream _) | .inr (.recv _) | .inr (.close _) => exact absurd allowed id
  | .inl .randRead | .inl (.allow _) | .inl (.get _) | .inl (.set _ _) | .inl (.record _) |
      .inl (.errorSink _)
  | .inl .observeRateLimited | .inl .observeCacheHit | .inl (.observeTokens _ _) | .inl .cancel
  | .inl .newStream | .inl (.loadUsage _) | .inl (.storeUsage _ _) | .inl (.enterOnce _) |
      .inl (.leaveOnce _) =>
      exact .inr (.inr (.inr (.inr ⟨trivial, fun _ => rfl⟩)))

namespace Progress

/-- The answers that each stage stands for. -/
def Coherent (progress : Progress) : Prop :=
  match progress.stage with
  | .before | .refused | .conflicting | .replayed _ | .held => progress.answers = []
  | .answered answer => progress.answers = [answer]
  | .completed _ => progress.answers = [] ∨ ∃ response, progress.answers = [.ok response]
  | .released => progress.answers = [] ∨ ∃ err, progress.answers = [.error err]

theorem coherent_begun {progress : Progress} (coherent : progress.Coherent)
    (stage : progress.stage = .before) (result : Except Err Idempotency.Result) :
    (progress.reach (.begun result)).Coherent := by
  have silent : progress.answers = [] := by simpa only [Coherent, stage] using coherent
  match result with
  | .error _ | .ok .acquired | .ok .pending | .ok .conflict | .ok (.completed _) => exact silent

theorem coherent_completed {progress : Progress} (coherent : progress.Coherent)
    (allowed : progress.stage.MayComplete) (payload : Bytes) :
    (progress.reach (.completed payload)).Coherent := by
  cases stage : progress.stage with
  | held =>
      simp only [Coherent, stage] at coherent
      exact .inl coherent
  | answered answer =>
      simp only [Coherent, stage] at coherent
      cases answer with
      | error err => simp [stage, Stage.MayComplete] at allowed
      | ok response => exact .inr ⟨response, coherent⟩
  | _ => simp [stage, Stage.MayComplete] at allowed

theorem coherent_released {progress : Progress} (coherent : progress.Coherent)
    (allowed : progress.stage.MayRelease) : (progress.reach .released).Coherent := by
  cases stage : progress.stage with
  | held =>
      simp only [Coherent, stage] at coherent
      exact .inl coherent
  | answered answer =>
      simp only [Coherent, stage] at coherent
      cases answer with
      | error err => exact .inr ⟨err, coherent⟩
      | ok response => simp [stage, Stage.MayRelease] at allowed
  | _ => simp [stage, Stage.MayRelease] at allowed

theorem coherent_hear {progress : Progress} (coherent : progress.Coherent)
    (stage : progress.stage = .held) (answer : Except Err ChatResponse) :
    (progress.hear answer).Coherent := by
  have silent : progress.answers = [] := by simpa only [Coherent, stage] using coherent
  simp [Coherent, hear, silent]

/-- Only the owner of a reservation has had a successful call, and one only. -/
theorem owning_of_succeeded {progress : Progress} (coherent : progress.Coherent) {call : Nat}
    {response : ChatResponse} (succeeded : progress.answers[call]? = some (.ok response)) :
    progress.stage.Owning ∧ call = 0 := by
  have only {answer : Except Err ChatResponse} (single : progress.answers = [answer]) : call = 0 ∧
      answer = .ok response := by
    rw [single, List.getElem?_singleton] at succeeded
    split at succeeded
    · exact ⟨‹_›, Option.some.inj succeeded⟩
    · cases succeeded
  have never (silent : progress.answers = []) : False := by simp [silent] at succeeded
  unfold Coherent at coherent
  cases stage : progress.stage with
  | answered answer =>
      simp only [stage] at coherent
      exact ⟨trivial, (only coherent).1⟩
  | completed payload =>
      simp only [stage] at coherent
      rcases coherent with silent | ⟨_, single⟩
      · exact (never silent).elim
      · exact ⟨trivial, (only single).1⟩
  | released =>
      simp only [stage] at coherent
      rcases coherent with silent | ⟨_, single⟩
      · exact (never silent).elim
      · cases (only single).2
  | before | refused | conflicting | replayed _ | held =>
      simp only [stage] at coherent
      exact (never coherent).elim

end Progress

section Obedience

open GatewayService

variable {key : String} {progress : Progress} {α : Type} {post : Exit α → Progress → Prop}

theorem reservation_ignores {op : Effect} (neutral : op.Neutral) :
    (reservation key).Ignores progress (.inl op) := by
  cases op <;> first | exact ⟨trivial, fun _ => rfl⟩ | exact absurd neutral id

theorem reservation_aside (op : Effect) (aside : op.Aside) :
    (reservation key).Ignores progress (.inl op) := by
  refine reservation_ignores ?_
  cases op <;> trivial

theorem obeys_neutral (op : Effect) (neutral : op.Neutral)
    {next : effects.Reply op → Program gatewayCalls α}
    (rest : ∀ reply, Obeys (reservation key) post (next reply) progress) :
    Obeys (reservation key) post (effect op >>= next) progress :=
  obeys_ignored (S := gatewayCalls) (reservation_ignores neutral) fun reply _ => rest reply

theorem obeys_record (g : GatewayService calls) (record : RequestRecord)
    {next : Unit → Program gatewayCalls α}
    (rest : Obeys (reservation key) post (next ()) progress) :
    Obeys (reservation key) post (g.record record >>= next) progress :=
  obeys_recording reservation_aside g record (reservation_ignores trivial) rest

theorem obeys_cacheResponse (payload : Bytes) (cacheKey : Option String)
    {next : Unit → Program gatewayCalls α}
    (rest : Obeys (reservation key) post (next ()) progress) :
    Obeys (reservation key) post (cacheResponse payload cacheKey >>= next) progress :=
  obeys_caching reservation_aside (fun _ => reservation_ignores trivial) cacheKey rest

/-- The second validation may refuse; only a request that passes it is sent. -/
theorem obeys_ask (req : ChatRequest) (stage : progress.stage = .held)
    {next : Except Err (Option ChatResponse) → Program gatewayCalls α}
    (refused : ∀ err, Obeys (reservation key) post (next (.error err)) progress)
    (sent : ∀ answer : Except Err ChatResponse, Obeys (reservation key) post
      (next (answer.map some)) (progress.hear answer)) :
    Obeys (reservation key) post
      ((ChatService.Chat outside req).along (.inr effects calls) >>= next) progress := by
  unfold ChatService.Chat
  split
  · exact refused _
  · split
    · exact refused _
    · exact obeys_perform.mpr ⟨stage, fun answer _ => sent answer⟩

section Own

variable {fingerprint : String} (own : progress.fingerprint = some fingerprint)
include own

theorem obeys_release (allowed : progress.stage.MayRelease) {next : Unit → Program gatewayCalls α}
    (rest : Obeys (reservation key) post (next ()) (progress.reach .released)) :
    Obeys (reservation key) post (releaseIdempotency (some ⟨key, fingerprint⟩) >>= next)
      progress := by
  unfold releaseIdempotency
  rw [Program.bind_assoc]
  exact obeys_perform.mpr
    ⟨⟨allowed, rfl, own⟩, fun failed _ => obeys_sink reservation_aside failed rest⟩

theorem obeys_complete (payload : Bytes) (allowed : progress.stage.MayComplete)
    {next : Unit → Program gatewayCalls α}
    (rest : Obeys (reservation key) post (next ()) (progress.reach (.completed payload))) :
    Obeys (reservation key) post (completeIdempotency payload (some ⟨key, fingerprint⟩) >>= next)
      progress := by
  unfold completeIdempotency
  rw [Program.bind_assoc]
  exact obeys_perform.mpr
    ⟨⟨allowed, rfl, own⟩, fun failed _ => obeys_sink reservation_aside failed rest⟩

variable {g : GatewayService calls}

theorem succeed_obeys (a : Admitted) (cacheKey : Option String) {response : ChatResponse}
    (stage : progress.stage = .answered (.ok response)) :
    Obeys (reservation key) (Settled g.codec)
      (g.succeed a (some ⟨key, fingerprint⟩) cacheKey response) progress := by
  unfold succeed
  refine obeys_cacheResponse _ _ (obeys_complete own _ (by simp [stage, Stage.MayComplete]) ?_)
  refine obeys_record g _ (obeys_observing (reservation_ignores trivial) (fun _ => ⟨_, rfl⟩) ?_)
  exact obeys_done.mpr ⟨_, .inl rfl, .inl rfl⟩

theorem fail_obeys (a : Admitted) (cacheKey : Option String) (err : Err)
    (allowed : progress.stage.MayRelease) :
    Obeys (reservation key) (Settled g.codec) (g.fail a (some ⟨key, fingerprint⟩) cacheKey err)
      progress := by
  refine obeys_release own allowed (obeys_record g _ ?_)
  exact obeys_done.mpr ⟨id, fun conflict => Stage.noConfusion conflict⟩

theorem execute_obeys (asked : g.chat = outside) (a : Admitted) (cacheKey : Option String)
    (stage : progress.stage = .held) :
    Obeys (reservation key) (Settled g.codec) (g.execute a (some ⟨key, fingerprint⟩) cacheKey)
      progress := by
  unfold execute
  rw [asked]
  refine obeys_ask _ stage (fun err => ?_) (fun answer => ?_)
  · exact fail_obeys own a cacheKey err (by simp [stage, Stage.MayRelease])
  · have still : (progress.hear answer).fingerprint = some fingerprint := own
    cases answer with
    | error err => exact fail_obeys still a cacheKey err trivial
    | ok response => exact succeed_obeys still a cacheKey rfl

theorem hit_obeys (a : Admitted) {payload : Bytes} {cached : ChatResponse}
    (stage : progress.stage = .held) (decoded : g.codec.unmarshalResponse payload = .ok cached) :
    Obeys (reservation key) (Settled g.codec) (g.hit a (some ⟨key, fingerprint⟩) payload cached)
      progress := by
  refine obeys_neutral .observeCacheHit trivial fun _ => obeys_complete own payload
    (by simp [stage, Stage.MayComplete]) ?_
  exact obeys_record g _ (obeys_done.mpr ⟨payload, .inl rfl, .inr decoded⟩)

theorem consult_obeys (asked : g.chat = outside) (a : Admitted) (cacheKey : String)
    (stage : progress.stage = .held) (found : Except Err (Option Bytes)) :
    Obeys (reservation key) (Settled g.codec) (g.consult a (some ⟨key, fingerprint⟩) cacheKey found)
      progress := by
  have executes : Obeys (reservation key) (Settled g.codec)
    (g.execute a (some ⟨key, fingerprint⟩) (some cacheKey)) progress :=
    execute_obeys own asked a _ stage
  match found with
  | .error err => exact obeys_neutral (.errorSink _) trivial fun _ => executes
  | .ok none => exact executes
  | .ok (some payload) =>
      simp only [consult]
      split
      · exact obeys_neutral (.errorSink _) trivial fun _ => executes
      · exact hit_obeys own a stage ‹_›

theorem lookup_obeys (asked : g.chat = outside) (a : Admitted) (stage : progress.stage = .held) :
    Obeys (reservation key) (Settled g.codec) (g.lookup a (some ⟨key, fingerprint⟩)) progress := by
  have plain : Obeys (reservation key) (Settled g.codec)
      (g.execute a (some ⟨key, fingerprint⟩) none) progress := execute_obeys own asked a _ stage
  unfold lookup
  split
  · refine obeys_release own (by simp [stage, Stage.MayRelease]) ?_
    exact obeys_done.mpr ⟨id, fun conflict => Stage.noConfusion conflict⟩
  · exact plain
  · split
    · exact plain
    · exact obeys_neutral (.get _) trivial fun found => consult_obeys own asked a _ stage found

end Own

variable {g : GatewayService calls}

theorem reject_obeys (a : Admitted) (err : Err) (idle : ¬ progress.stage.Owning)
    (named : progress.stage = .conflicting → err = .idempotency "idempotency_key_conflict") :
    Obeys (reservation key) (Settled g.codec) (g.reject a err) progress :=
  obeys_record g _ (obeys_done.mpr ⟨idle, named⟩)

theorem replay_obeys (a : Admitted) {payload : Bytes} (stage : progress.stage = .replayed payload) :
    Obeys (reservation key) (Settled g.codec) (g.replay a payload) progress := by
  unfold replay
  split
  · refine obeys_done.mpr ⟨?_, fun conflict => ?_⟩
    · rw [stage]
      exact id
    · rw [stage] at conflict
      cases conflict
  · exact obeys_record g _ (obeys_done.mpr ⟨payload, .inr stage, .inr ‹_›⟩)

theorem begun_obeys (asked : g.chat = outside) (a : Admitted) {fingerprint : String}
    (own : progress.fingerprint = some fingerprint) (result : Except Err Idempotency.Result) :
    Obeys (reservation key) (Settled g.codec) (g.begun a key fingerprint result)
      (progress.reach (.begun result)) := by
  match result with
  | .error err => exact obeys_done.mpr ⟨id, fun conflict => Stage.noConfusion conflict⟩
  | .ok .acquired =>
      have still : (progress.reach .held).fingerprint = some fingerprint := own
      exact lookup_obeys still asked a rfl
  | .ok .pending => exact reject_obeys a _ id fun conflict => Stage.noConfusion conflict
  | .ok .conflict => exact reject_obeys a _ id fun _ => rfl
  | .ok (.completed response) => exact replay_obeys a rfl

section Fresh

variable (asked : g.chat = outside) (fresh : progress.stage = .before)
include asked fresh

theorem reserve_obeys (a : Admitted) (present : a.idempotencyKey ≠ "")
    (own : progress.fingerprint = (requestFingerprint g.codec a.req).toOption) :
    Obeys (reservation (Idempotency.ScopedKey g.codec.sha256 a.identity a.idempotencyKey))
      (Settled g.codec) (g.reserve a) progress := by
  have idle : ¬ progress.stage.Owning := by
    rw [fresh]
    exact id
  have unnamed : progress.stage ≠ .conflicting := by
    rw [fresh]
    exact Stage.noConfusion
  unfold reserve
  rw [if_neg present]
  split
  · exact obeys_done.mpr ⟨idle, fun conflict => absurd conflict unnamed⟩
  · split
    · exact obeys_done.mpr ⟨idle, fun conflict => absurd conflict unnamed⟩
    · rename_i fingerprint computed
      rw [computed] at own
      exact obeys_perform.mpr ⟨⟨fresh, rfl, own⟩, fun result _ => begun_obeys asked a own result⟩

theorem serve_obeys (req : ChatRequest) (metadata : RequestMetadata) {idempotencyKey : String}
    (normalized : normalizeIdempotencyKey metadata.idempotencyKey = .ok idempotencyKey)
    (present : idempotencyKey ≠ "")
    (own : progress.fingerprint = (requestFingerprint g.codec req).toOption) :
    Obeys (reservation
        (Idempotency.ScopedKey g.codec.sha256 metadata.clientIdentity idempotencyKey))
      (Settled g.codec) (g.serve req metadata) progress := by
  have ended (err : Err) : Settled g.codec (.returned (.error err)) progress := by
    refine ⟨?_, fun conflict => ?_⟩
    · rw [fresh]
      exact id
    · rw [fresh] at conflict
      cases conflict
  unfold serve
  split
  · exact obeys_done.mpr (ended _)
  · split
    · exact obeys_done.mpr (ended _)
    · simp only [normalized]
      refine obeys_requestID reservation_aside metadata fun id => ?_
      match id with
      | .error err => exact obeys_done.mpr (ended err)
      | .ok id =>
          refine obeys_enforceRateLimit reservation_aside g _ fun decision => ?_
          match decision with
          | .error err => exact obeys_record g _ (obeys_done.mpr (ended err))
          | .ok decision =>
              exact reserve_obeys asked fresh ⟨req, _, idempotencyKey, id, decision⟩ present own

end Fresh

/-- A request with a key keeps the order of its reservation. -/
theorem chat_obeys (asked : g.chat = outside) (req : ChatRequest) (metadata : RequestMetadata)
    {idempotencyKey : String}
    (normalized : normalizeIdempotencyKey metadata.idempotencyKey = .ok idempotencyKey)
    (present : idempotencyKey ≠ "") :
    Obeys (reservation
        (Idempotency.ScopedKey g.codec.sha256 metadata.clientIdentity idempotencyKey))
      (Settled g.codec) (g.Chat req metadata) ⟨(requestFingerprint g.codec req).toOption,
      .before, []⟩ := by
  refine obeys_ensuring.mpr ((serve_obeys asked rfl req metadata normalized present rfl).mono ?_)
  exact fun exit last settled => obeys_perform.mpr ⟨trivial, fun _ _ => obeys_done.mpr settled⟩

end Obedience

end ModelGate.Service
