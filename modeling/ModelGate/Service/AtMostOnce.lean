import ModelGate.Service.Reservation

/-! Requests with one idempotency key, interleaved, while no entry expires. -/

set_option autoImplicit false

namespace ModelGate.Service

open Data Semantics Provider

/-- The scripts on the store; every other operation may reply anything. -/
def Served (space : Idempotency.Keyspace) :
    (op : gatewayCalls.Op) → gatewayCalls.Reply op → Idempotency.Keyspace → Prop
  | .inl (.begin key fingerprint), reply, next =>
      reply = .ok (space.Begin key fingerprint).2 ∧ next = (space.Begin key fingerprint).1
  | .inl (.complete key fingerprint response), reply, next =>
      reply = (space.Complete key fingerprint response).2 ∧
        next = (space.Complete key fingerprint response).1
  | .inl (.release key fingerprint), reply, next =>
      reply = (space.Release key fingerprint).2 ∧ next = (space.Release key fingerprint).1
  | _, _, next => next = space

theorem served_quiet {space next : Idempotency.Keyspace} {op : gatewayCalls.Op}
    {reply : gatewayCalls.Reply op} (quiet : Quiet op) (served : Served space op reply next) :
    next = space := by
  cases op with
  | inr op => exact absurd quiet id
  | inl op => cases op <;> first | exact served | exact absurd quiet id

/-- The requests of one client that carry one key, after normalization. -/
structure Request.Carries (request : Request) (identity : Bytes) (idempotencyKey : String) :
    Prop where
  client : request.metadata.clientIdentity = identity
  normalized : normalizeIdempotencyKey request.metadata.idempotencyKey = .ok idempotencyKey

section System

variable (codec : Codec) (options : GatewayOptions) (identity : Bytes) (idempotencyKey : String)

/-- The gateway on one store, asked by one client with one key. -/
def keyedGateway : System gatewayCalls Idempotency.Keyspace Request (Except Err ChatResult) where
  body request := (NewGatewayService codec outside options).Chat request.req request.metadata
  admits _ request := request.Carries identity idempotencyKey
  handles _ := Served
  moves _ _ := False

def scopedKey : String := Idempotency.ScopedKey codec.sha256 identity idempotencyKey

def storedKey : String := Idempotency.redisKey (scopedKey codec identity idempotencyKey)

def keyedDiscipline (present : idempotencyKey ≠ "") :
    Discipline (keyedGateway codec options identity idempotencyKey) Progress where
  protocol := reservation (scopedKey codec identity idempotencyKey)
  first request := ⟨(requestFingerprint codec request.req).toOption, .before, []⟩
  post := Settled codec
  obeyed _ request carries := by
    have obeys := chat_obeys (g := NewGatewayService codec outside options)
      rfl request.req request.metadata carries.normalized present
    rw [carries.client] at obeys
    dsimp only [keyedGateway, scopedKey]
    exact obeys

end System

/-- One reservation at a time: the entry of the store is the reservation or
the result of the one request that owns it. -/
structure OneReservation (entry : Option Idempotency.Entry) (phases : List Progress) : Prop where
  coherent : ∀ progress ∈ phases, progress.Coherent
  unique : ∀ {first second : Nat} {progress other : Progress}, phases[first]? = some progress →
    phases[second]? = some other → progress.stage.Owning → other.stage.Owning → first = second
  active : ∀ progress ∈ phases, progress.stage.Active →
    ∃ fingerprint, progress.fingerprint = some fingerprint ∧
    entry = some ⟨fingerprint, .pending, none⟩
  results : ∀ progress ∈ phases, ∀ payload,
    progress.stage = .completed payload ∨ progress.stage = .replayed payload →
      ∃ fingerprint, entry = some ⟨fingerprint, .completed, some payload⟩
  owned : entry ≠ none → ∃ progress ∈ phases, progress.stage.Owning

namespace OneReservation

variable {entry : Option Idempotency.Entry} {phases : List Progress}

theorem start (empty : entry = none) : OneReservation entry [] :=
  ⟨by simp, by simp, by simp, by simp, fun stored => absurd empty stored⟩

theorem spawn (one : OneReservation entry phases) (fingerprint : Option String) :
    OneReservation entry (phases ++ [⟨fingerprint, .before, []⟩]) := by
  have old {progress : Progress} (member : progress ∈ phases ++ [⟨fingerprint, .before, []⟩]) :
      progress ∈ phases ∨ progress.stage = .before ∧ progress.answers = [] := by
    rcases List.mem_append.mp member with old | new
    · exact .inl old
    · obtain rfl := List.mem_singleton.mp new
      exact .inr ⟨rfl, rfl⟩
  have located {index : Nat}
      {progress : Progress} (found : (phases ++ [⟨fingerprint, .before, []⟩])[index]? =
        some progress) (owns : progress.stage.Owning) : phases[index]? = some progress := by
    rcases getElem?_concat_some found with old | rfl
    · exact old
    · exact absurd owns id
  refine ⟨fun progress member => ?_, fun found other owns owned => ?_,
    fun progress member active => ?_, fun progress member payload result => ?_, fun stored => ?_⟩
  · rcases old member with old | ⟨stage, silent⟩
    · exact one.coherent _ old
    · simpa only [Progress.Coherent, stage] using silent
  · exact one.unique (located found owns) (located other owned) owns owned
  · rcases old member with old | ⟨stage, _⟩
    · exact one.active _ old active
    · rw [stage] at active
      exact absurd active id
  · rcases old member with old | ⟨stage, _⟩
    · exact one.results _ old payload result
    · rw [stage] at result
      rcases result with result | result <;> cases result
  · obtain ⟨progress, member, owns⟩ := one.owned stored
    exact ⟨progress, List.mem_append_left _ member, owns⟩

section Replace

variable (one : OneReservation entry phases) {index : Nat} {progress : Progress}
  (found : phases[index]? = some progress)
include one found

/-- Replacing one phase and the entry: what the new pair has to satisfy when
no other request owns a reservation or a result. -/
theorem replace {next : Progress} {stored : Option Idempotency.Entry} (coherent : next.Coherent)
    (alone : ∀ position other, position ≠ index → phases[position]? = some other →
      ¬ other.stage.Owning ∧ ∀ payload, other.stage ≠ .replayed payload)
    (active : next.stage.Active → ∃ fingerprint, next.fingerprint = some fingerprint ∧
      stored = some ⟨fingerprint, .pending, none⟩)
    (results : ∀ payload, next.stage = .completed payload ∨ next.stage = .replayed payload →
      ∃ fingerprint, stored = some ⟨fingerprint, .completed, some payload⟩)
    (owned : stored ≠ none → next.stage.Owning) :
    OneReservation stored (phases.set index next) := by
  have bound := (List.getElem?_eq_some_iff.mp found).1
  -- Every other request owns nothing and replays nothing, so the new entry is this one's.
  have cases {position : Nat} {other : Progress} (located : (phases.set index next)[position]? =
        some other) : other = next ∧ position = index ∨ other ∈ phases ∧ ¬ other.stage.Owning ∧
      ∀ payload, other.stage ≠ .replayed payload := by
    rcases getElem?_set_some located with ⟨same, rfl⟩ | ⟨different, old⟩
    · exact .inl ⟨rfl, same⟩
    · exact .inr ⟨List.mem_of_getElem? old, alone _ _ different old⟩
  have member {other : Progress} (member : other ∈ phases.set index next) : other = next ∨
      other ∈ phases ∧ ¬ other.stage.Owning ∧ ∀ payload, other.stage ≠ .replayed payload := by
    obtain ⟨position, located⟩ := List.mem_iff_getElem?.mp member
    exact (cases located).imp_left And.left
  refine ⟨fun other inside => ?_, fun first second owns owned => ?_, fun other inside stage => ?_,
    fun other inside payload result => ?_, fun present => ?_⟩
  · rcases member inside with rfl | ⟨old, _⟩
    · exact coherent
    · exact one.coherent _ old
  · rcases cases first with ⟨_, rfl⟩ | ⟨_, idle, _⟩
    · rcases cases second with ⟨_, rfl⟩ | ⟨_, idle, _⟩
      · rfl
      · exact absurd owned idle
    · exact absurd owns idle
  · rcases member inside with rfl | ⟨_, idle, _⟩
    · exact active stage
    · exact absurd (Stage.owning_of_active stage) idle
  · rcases member inside with rfl | ⟨_, idle, fresh⟩
    · exact results payload result
    · rcases result with done | replayed
      · exact absurd (by rw [done]; trivial) idle
      · exact absurd replayed (fresh payload)
  · exact ⟨next, List.mem_set bound next, owned present⟩

theorem keep {next : Progress} (coherent : next.Coherent)
    (same : next.stage.Owning ↔ progress.stage.Owning)
    (active : next.stage.Active → ∃ fingerprint, next.fingerprint = some fingerprint ∧
      entry = some ⟨fingerprint, .pending, none⟩)
    (results : ∀ payload, next.stage = .completed payload ∨ next.stage = .replayed payload →
      ∃ fingerprint, entry = some ⟨fingerprint, .completed, some payload⟩) :
    OneReservation entry (phases.set index next) := by
  have bound := (List.getElem?_eq_some_iff.mp found).1
  -- The owners are the same requests as before.
  have origin {position : Nat} {other : Progress} (located : (phases.set index next)[position]? =
        some other) (owns : other.stage.Owning) : ∃ before, phases[position]? = some before ∧
      before.stage.Owning := by
    rcases getElem?_set_some located with ⟨rfl, rfl⟩ | ⟨_, old⟩
    · exact ⟨progress, found, same.mp owns⟩
    · exact ⟨other, old, owns⟩
  refine ⟨fun other inside => ?_, fun first second owns owned => ?_, fun other inside stage => ?_,
    fun other inside payload result => ?_, fun stored => ?_⟩
  · rcases List.mem_or_eq_of_mem_set inside with old | rfl
    · exact one.coherent _ old
    · exact coherent
  · obtain ⟨_, old, oldOwns⟩ := origin first owns
    obtain ⟨_, other, otherOwns⟩ := origin second owned
    exact one.unique old other oldOwns otherOwns
  · rcases List.mem_or_eq_of_mem_set inside with old | rfl
    · exact one.active _ old stage
    · exact active stage
  · rcases List.mem_or_eq_of_mem_set inside with old | rfl
    · exact one.results _ old payload result
    · exact results payload result
  · obtain ⟨owner, member, owns⟩ := one.owned stored
    obtain ⟨position, located⟩ := List.mem_iff_getElem?.mp member
    by_cases here : position = index
    · subst here
      rw [found] at located
      obtain rfl := Option.some.inj located
      exact ⟨next, List.mem_set bound next, same.mpr owns⟩
    · refine ⟨owner, List.mem_iff_getElem?.mpr ⟨position, ?_⟩, owns⟩
      rw [List.getElem?_set_ne (Ne.symm here)]
      exact located

omit found in
theorem idle_of_none (empty : entry = none) {other : Progress} (member : other ∈ phases) :
    ¬ other.stage.Owning ∧ ∀ payload, other.stage ≠ .replayed payload := by
  subst empty
  refine ⟨fun owns => ?_, fun payload replayed => ?_⟩
  · by_cases active : other.stage.Active
    · obtain ⟨_, _, stored⟩ := one.active _ member active
      cases stored
    · obtain ⟨payload, done⟩ := Stage.completed_of_owning owns active
      obtain ⟨_, stored⟩ := one.results _ member payload (.inl done)
      cases stored
  · obtain ⟨_, stored⟩ := one.results _ member payload (.inr replayed)
    cases stored

theorem alone_of_active (active : progress.stage.Active) (position : Nat) (other : Progress)
    (different : position ≠ index) (located : phases[position]? = some other) :
    ¬ other.stage.Owning ∧ ∀ payload, other.stage ≠ .replayed payload := by
  obtain ⟨_, _, stored⟩ := one.active _ (List.mem_of_getElem? found) active
  refine ⟨fun owns => ?_, fun payload replayed => ?_⟩
  · exact different (one.unique located found owns (Stage.owning_of_active active))
  · obtain ⟨_, finished⟩ := one.results _ (List.mem_of_getElem? located) payload (.inr replayed)
    rw [stored] at finished
    cases finished

omit found in
theorem response_of_completed {current : Idempotency.Entry} (stored : entry = some current)
    (state : current.state = .completed) :
    ∃ payload, current = ⟨current.fingerprint, .completed, some payload⟩ := by
  obtain ⟨owner, member, owns⟩ := one.owned (by rw [stored]; simp)
  by_cases active : owner.stage.Active
  · obtain ⟨_, _, pending⟩ := one.active _ member active
    rw [stored] at pending
    obtain rfl := Option.some.inj pending
    cases state
  · obtain ⟨payload, done⟩ := Stage.completed_of_owning owns active
    obtain ⟨_, finished⟩ := one.results _ member payload (.inl done)
    rw [stored] at finished
    obtain rfl := Option.some.inj finished
    exact ⟨payload, rfl⟩

theorem began (stage : progress.stage = .before) {fingerprint : String}
    (own : progress.fingerprint = some fingerprint) :
    OneReservation (Idempotency.beginScript fingerprint entry).1
      (phases.set index
        (progress.reach (.begun (.ok (Idempotency.beginScript fingerprint entry).2)))) := by
  have coherent := one.coherent _ (List.mem_of_getElem? found)
  have idle : ¬ progress.stage.Owning := by
    rw [stage]
    exact id
  -- `Begin` reserves an absent key and leaves a present entry as it is.
  cases entry with
  | none =>
      refine one.replace found (Progress.coherent_begun coherent stage _)
        (fun _ _ _ located => one.idle_of_none rfl (List.mem_of_getElem? located))
        (fun _ => ⟨fingerprint, own, rfl⟩) (fun payload result => ?_) (fun _ => trivial)
      rcases result with result | result <;> cases result
  | some current =>
      obtain ⟨unchanged, answers⟩ := Idempotency.beginScript_some fingerprint current
      rw [unchanged]
      have kept (result : Idempotency.Result) (refused : ¬ (Stage.begun (.ok result)).Owning)
          (replayed : ∀ payload, Stage.begun (.ok result) = .replayed payload →
            current = ⟨current.fingerprint, .completed, some payload⟩) :
          OneReservation (some current)
          (phases.set index (progress.reach (.begun (.ok result)))) := by
        refine one.keep found (Progress.coherent_begun coherent stage _) (iff_of_false refused idle)
          (fun active => absurd (Stage.owning_of_active active) refused) (fun payload answer => ?_)
        rcases answer with done | done
        · exact absurd (by rw [show Stage.begun (.ok result) = _ from done]; trivial) refused
        · exact ⟨current.fingerprint, congrArg some (replayed payload done)⟩
      rcases answers with ⟨_, answer⟩ | ⟨_, finished, answer⟩ | ⟨_, _, answer⟩ <;> rw [answer]
      · exact kept _ id fun _ result => Stage.noConfusion result
      · refine kept _ id fun payload result => ?_
        obtain ⟨stored, shape⟩ := one.response_of_completed rfl finished
        rw [shape] at result
        obtain rfl : stored = payload := Stage.replayed.inj result
        exact shape
      · exact kept _ id fun _ result => Stage.noConfusion result

theorem reserved_of_active (active : progress.stage.Active) {fingerprint : String}
    (own : progress.fingerprint = some fingerprint) :
    entry = some ⟨fingerprint, .pending, none⟩ := by
  obtain ⟨other, same, stored⟩ := one.active _ (List.mem_of_getElem? found) active
  rw [own] at same
  obtain rfl := Option.some.inj same
  exact stored

theorem completed (allowed : progress.stage.MayComplete) {fingerprint : String}
    (own : progress.fingerprint = some fingerprint) (payload : Bytes) :
    OneReservation (Idempotency.completeScript fingerprint payload entry).1
      (phases.set index (progress.reach (.completed payload))) := by
  have active := Stage.active_of_mayComplete allowed
  have coherent := one.coherent _ (List.mem_of_getElem? found)
  have reserved : Idempotency.Reserved fingerprint ⟨fingerprint, .pending, none⟩ := ⟨rfl, rfl⟩
  rw [one.reserved_of_active found active own, Idempotency.completeScript_reserved reserved]
  refine one.replace found (Progress.coherent_completed coherent allowed payload)
    (one.alone_of_active found active) (fun active => absurd active id) (fun other result => ?_)
    (fun _ => trivial)
  rcases result with result | result
  · obtain rfl := Stage.completed.inj result
    exact ⟨fingerprint, rfl⟩
  · cases result

theorem released (allowed : progress.stage.MayRelease) {fingerprint : String}
    (own : progress.fingerprint = some fingerprint) :
    OneReservation (Idempotency.releaseScript fingerprint entry).1
      (phases.set index (progress.reach .released)) := by
  have active := Stage.active_of_mayRelease allowed
  have coherent := one.coherent _ (List.mem_of_getElem? found)
  have reserved : Idempotency.Reserved fingerprint ⟨fingerprint, .pending, none⟩ := ⟨rfl, rfl⟩
  rw [one.reserved_of_active found active own, Idempotency.releaseScript_reserved reserved]
  refine one.replace found (Progress.coherent_released coherent allowed)
    (one.alone_of_active found active) (fun active => absurd active id) (fun other result => ?_)
    (fun stored => absurd rfl stored)
  rcases result with result | result <;> cases result

theorem heard (stage : progress.stage = .held) (answer : Except Err ChatResponse) :
    OneReservation entry (phases.set index (progress.hear answer)) := by
  have coherent := one.coherent _ (List.mem_of_getElem? found)
  have active : progress.stage.Active := by
    rw [stage]
    trivial
  refine one.keep found (Progress.coherent_hear coherent stage answer)
    (iff_of_true trivial (Stage.owning_of_active active)) (fun _ => ?_) (fun payload result => ?_)
  · obtain ⟨fingerprint, own, stored⟩ := one.active _ (List.mem_of_getElem? found) active
    exact ⟨fingerprint, own, stored⟩
  · rcases result with result | result <;> cases result

end Replace

end OneReservation

section Runs

section

variable (codec : Codec) (options : GatewayOptions) (identity : Bytes) {idempotencyKey : String}

theorem keyed_preserves (present : idempotencyKey ≠ "") :
    (keyedDiscipline codec options identity idempotencyKey present).Preserves fun space phases =>
      OneReservation (space (storedKey codec identity idempotencyKey)) phases where
  spawn one _ := one.spawn _
  move _ moved := absurd moved id
  perform {space phases index progress op reply next} one found allowed served := by
    refine ⟨trivial, ?_⟩
    rcases may_cases allowed with ⟨fingerprint, rfl, stage, own⟩ |
      ⟨fingerprint, payload, rfl, stage, own⟩ | ⟨fingerprint, rfl, stage, own⟩ | ⟨req, rfl, stage⟩ |
      ⟨quiet, same⟩
    · obtain ⟨rfl, rfl⟩ := served
      simp only [storedKey, Idempotency.Keyspace.begin_entry]
      exact one.began found stage own
    · obtain ⟨_, rfl⟩ := served
      simp only [storedKey, Idempotency.Keyspace.complete_entry]
      exact one.completed found stage own payload
    · obtain ⟨_, rfl⟩ := served
      simp only [storedKey, Idempotency.Keyspace.release_entry]
      exact one.released found stage own
    · obtain rfl : next = space := served
      exact one.heard found stage reply
    · obtain rfl := served_quiet quiet served
      rw [show (keyedDiscipline codec options identity idempotencyKey present).protocol.after
        progress op reply = progress from same reply, set_of_getElem? found]
      exact one

end

variable {codec : Codec} {options : GatewayOptions} {identity : Bytes} {idempotencyKey : String}

def providerAnswer : Event gatewayCalls → Option (Except Err ChatResponse)
  | ⟨.inr (.chat _), answer⟩ => some answer
  | _ => none

theorem after_answers (key : String) (progress : Progress) (event : Event gatewayCalls) :
    ((reservation key).after progress event.op event.reply).answers =
      progress.answers ++ (providerAnswer event).toList := by
  obtain ⟨op, reply⟩ := event
  rcases op with op | op <;> cases op <;> first | exact (List.append_nil _).symm | rfl

theorem advance_answers (key : String) (progress : Progress) (trace : List (Event gatewayCalls)) :
    ((reservation key).advance progress trace).answers =
      progress.answers ++ trace.filterMap providerAnswer := by
  induction trace generalizing progress with
  | nil => exact (List.append_nil _).symm
  | cons event trace ih =>
      have whole := ih ((reservation key).after progress event.op event.reply)
      rw [after_answers, List.append_assoc] at whole
      refine whole.trans ?_
      rw [List.filterMap_cons]
      cases providerAnswer event <;> rfl

/-- How far a request has come, read off its events. -/
def progressOf (codec : Codec) (identity : Bytes) (idempotencyKey : String) {State Result : Type}
    {A : System gatewayCalls State Request Result} (thread : Thread A) : Progress :=
  (reservation (scopedKey codec identity idempotencyKey)).advance
    ⟨(requestFingerprint codec thread.task.req).toOption, .before, []⟩ thread.past

/-- The provider calls of a request that have returned. -/
def answersOf {State Result : Type} {A : System gatewayCalls State Request Result}
    (thread : Thread A) : List (Except Err ChatResponse) :=
  thread.past.filterMap providerAnswer

/-- A request whose fingerprint differs from the stored one, when it begins:
it never reaches the provider and is answered with the conflict. -/
def Refused (pool : Pool (keyedGateway codec options identity idempotencyKey)) : Prop :=
  ∀ {index : Nat} {thread : Thread (keyedGateway codec options identity idempotencyKey)}
    {key fingerprint : String}
    {next : Except Err Idempotency.Result → Program gatewayCalls (Except Err ChatResult)}
    {entry : Idempotency.Entry} {reply : Except Err Idempotency.Result}
    {space : Idempotency.Keyspace}
    {later : Pool (keyedGateway codec options identity idempotencyKey)}, pool.threads[index]? =
      some thread → thread.rest = .perform (.inl (.begin key fingerprint)) next →
    pool.shared (storedKey codec identity idempotencyKey) = some entry →
    entry.fingerprint ≠ fingerprint →
    Served pool.shared (.inl (.begin key fingerprint)) reply space →
    Pool.Steps ⟨space,
      pool.threads.set index (thread.advance ⟨.inl (.begin key fingerprint), reply⟩ (next reply))⟩
      later → ∃ last, later.threads[index]? = some last ∧ answersOf last = [] ∧
    (∀ req, last.current ≠ some (.inr (.chat req))) ∧ ∀ exit, last.exit = some exit →
    exit = .returned (.error (.idempotency "idempotency_key_conflict"))

structure AtMostOnce (pool : Pool (keyedGateway codec options identity idempotencyKey)) : Prop where
  exclusive : ∀ {first second : Nat}
    {thread other : Thread (keyedGateway codec options identity idempotencyKey)},
    pool.threads[first]? = some thread → pool.threads[second]? = some other →
    (progressOf codec identity idempotencyKey thread).stage.Active →
    (progressOf codec identity idempotencyKey other).stage.Active → first = second
  inFlight : ∀ {first second : Nat}
    {thread other : Thread (keyedGateway codec options identity idempotencyKey)}
    {req another : ChatRequest}, pool.threads[first]? = some thread →
    pool.threads[second]? = some other → thread.current = some (.inr (.chat req)) →
    other.current = some (.inr (.chat another)) → first = second
  succeedsOnce : ∀ {first second : Nat}
    {thread other : Thread (keyedGateway codec options identity idempotencyKey)}
    {call attempt : Nat} {response answer : ChatResponse}, pool.threads[first]? = some thread →
    pool.threads[second]? = some other → (answersOf thread)[call]? = some (.ok response) →
    (answersOf other)[attempt]? = some (.ok answer) → first = second ∧ call = attempt
  agrees : ∃ payload, ∀ thread ∈ pool.threads, ∀ result, thread.exit =
      some (.returned (.ok result)) → codec.Stands payload result.response
  refused : Refused pool
  settled : (∀ thread ∈ pool.threads, thread.exit ≠ none) →
    ∀ entry, pool.shared (storedKey codec identity idempotencyKey) = some entry →
    entry.state ≠ .pending

section Reached

variable {present : idempotencyKey ≠ ""}
  {pool : Pool (keyedGateway codec options identity idempotencyKey)}
  (holds : (keyedDiscipline codec options identity idempotencyKey present).Holds
    (fun space phases => OneReservation (space (storedKey codec identity idempotencyKey)) phases)
    pool)
include holds

theorem owning_unique {first second : Nat}
    {thread other : Thread (keyedGateway codec options identity idempotencyKey)}
    (found : pool.threads[first]? = some thread) (located : pool.threads[second]? = some other)
    (owning : (progressOf codec identity idempotencyKey thread).stage.Owning)
    (owned : (progressOf codec identity idempotencyKey other).stage.Owning) : first = second :=
  holds.1.unique (Discipline.phases_getElem? _ found) (Discipline.phases_getElem? _ located)
    owning owned

theorem succeeded_once {first second : Nat}
    {thread other : Thread (keyedGateway codec options identity idempotencyKey)}
    {call attempt : Nat} {response answer : ChatResponse}
    (found : pool.threads[first]? = some thread) (located : pool.threads[second]? = some other)
    (succeeded : (answersOf thread)[call]? = some (.ok response))
    (also : (answersOf other)[attempt]? = some (.ok answer)) : first = second ∧ call = attempt := by
  have owns {index : Nat} {thread : Thread (keyedGateway codec options identity idempotencyKey)}
      {call : Nat} {response : ChatResponse} (found : pool.threads[index]? = some thread)
        (succeeded : (answersOf thread)[call]? = some (.ok response)) :
      (progressOf codec identity idempotencyKey thread).stage.Owning ∧ call = 0 := by
    have coherent := holds.1.coherent _ (Discipline.mem_phases _ (List.mem_of_getElem? found))
    have answers : (progressOf codec identity idempotencyKey thread).answers = answersOf thread :=
      advance_answers _ _ _
    rw [← answers] at succeeded
    exact Progress.owning_of_succeeded coherent succeeded
  obtain ⟨owning, rfl⟩ := owns found succeeded
  obtain ⟨owned, rfl⟩ := owns located also
  exact ⟨owning_unique holds found located owning owned, rfl⟩

theorem results_agree : ∃ payload, ∀ thread ∈ pool.threads, ∀ result, thread.exit =
      some (.returned (.ok result)) → codec.Stands payload result.response := by
  refine ⟨((pool.shared (storedKey codec identity idempotencyKey)).bind (·.response)).getD [], ?_⟩
  intro thread member result ended
  obtain ⟨payload, stage, stands⟩ := holds.post_of_exit member ended
  obtain ⟨fingerprint, stored⟩ := holds.1.results _ (Discipline.mem_phases _ member) payload stage
  rw [stored]
  exact stands

theorem none_pending (ended : ∀ thread ∈ pool.threads, thread.exit ≠ none)
    (entry : Idempotency.Entry)
    (stored : pool.shared (storedKey codec identity idempotencyKey) = some entry) :
    entry.state ≠ .pending := by
  intro pending
  obtain ⟨progress, member, owns⟩ := holds.1.owned (by rw [stored]; simp)
  obtain ⟨thread, inside, rfl⟩ := List.mem_map.mp member
  obtain ⟨exit, exited⟩ := Option.ne_none_iff_exists'.mp (ended thread inside)
  have settled := holds.post_of_exit inside exited
  have finished {payload : Bytes} (stage : (progressOf codec identity idempotencyKey thread).stage =
      .completed payload ∨
      (progressOf codec identity idempotencyKey thread).stage = .replayed payload) : False := by
    obtain ⟨fingerprint, finished⟩ := holds.1.results _ member payload stage
    rw [stored] at finished
    obtain rfl := Option.some.inj finished
    cases pending
  -- A request that ended owning a reservation has completed it.
  match exit with
  | .aborted reason =>
      obtain ⟨payload, stage⟩ := settled
      exact finished (.inl stage)
  | .returned (.error err) => exact settled.1 owns
  | .returned (.ok result) =>
      obtain ⟨payload, stage, _⟩ := settled
      exact finished stage

theorem conflicting_refused {thread : Thread (keyedGateway codec options identity idempotencyKey)}
    (member : thread ∈ pool.threads)
    (stage : (progressOf codec identity idempotencyKey thread).stage = .conflicting) :
    answersOf thread = [] ∧ (∀ req, thread.current ≠ some (.inr (.chat req))) ∧
    ∀ exit, thread.exit = some exit →
    exit = .returned (.error (.idempotency "idempotency_key_conflict")) := by
  have coherent := holds.1.coherent _ (Discipline.mem_phases _ member)
  have answers : (progressOf codec identity idempotencyKey thread).answers = answersOf thread :=
    advance_answers _ _ _
  refine ⟨?_, fun req current => ?_, fun exit ended => ?_⟩
  · rw [← answers]
    change (progressOf codec identity idempotencyKey thread).Coherent at coherent
    simpa only [Progress.Coherent, stage] using coherent
  · have held : (progressOf codec identity idempotencyKey thread).stage = .held :=
      holds.may_of_current member current
    rw [stage] at held
    cases held
  · have settled : Settled codec exit (progressOf codec identity idempotencyKey thread) :=
      holds.post_of_exit member ended
    cases exit with
    | aborted reason =>
        obtain ⟨payload, done⟩ := settled
        rw [stage] at done
        cases done
    | returned outcome =>
        cases outcome with
        | error err => rw [settled.2 stage]
        | ok result =>
            obtain ⟨payload, done | replayed, _⟩ := settled
            · rw [stage] at done
              cases done
            · rw [stage] at replayed
              cases replayed

theorem conflict_refused : Refused pool := by
  intro index thread key fingerprint next entry reply space later found waits stored differs
    served steps
  have member := List.mem_of_getElem? found
  have obeys := holds.2 thread member
  rw [waits, obeys_perform] at obeys
  obtain ⟨stage, rfl, own⟩ := obeys.1
  obtain ⟨rfl, rfl⟩ := served
  have after := (keyed_preserves codec options identity present).holds_step holds
    (.perform found waits ⟨rfl, rfl⟩)
  have begun : (pool.shared.Begin (scopedKey codec identity idempotencyKey) fingerprint).2 =
      .conflict := by
    rw [Idempotency.Keyspace.begin_result]
    change (Idempotency.beginScript fingerprint
      (pool.shared (storedKey codec identity idempotencyKey))).2 = _
    rw [stored]
    simp [Idempotency.beginScript, differs]
  -- A request that met a conflict makes no further call on the store.
  have closed (progress : Progress) (op : gatewayCalls.Op) (reply : gatewayCalls.Reply op)
      (stage : progress.stage = .conflicting)
      (allowed : (reservation (scopedKey codec identity idempotencyKey)).may progress op) :
      ((reservation (scopedKey codec identity idempotencyKey)).after progress op reply).stage =
      .conflicting := by
    rcases may_cases allowed with ⟨_, rfl, other, _⟩ | ⟨_, _, rfl, other, _⟩ | ⟨_, rfl, other, _⟩ |
      ⟨_, rfl, other⟩ | ⟨_, same⟩
    · rw [stage] at other
      cases other
    · rw [stage] at other
      exact other.elim
    · rw [stage] at other
      exact other.elim
    · rw [stage] at other
      cases other
    · rw [same]
      exact stage
  have starts : ((keyedDiscipline codec options identity idempotencyKey present).phase
      (thread.advance ⟨.inl (.begin (scopedKey codec identity idempotencyKey) fingerprint),
          .ok (pool.shared.Begin (scopedKey codec identity idempotencyKey) fingerprint).2⟩
        (next (.ok (pool.shared.Begin (scopedKey codec identity idempotencyKey)
          fingerprint).2)))).stage = .conflicting := by
    rw [Discipline.phase_advance, begun]
    rfl
  have bound : index < pool.threads.length := (List.getElem?_eq_some_iff.mp found).1
  obtain ⟨last, located, kept⟩ := (keyed_preserves codec options identity present).stays
    (Q := fun progress => progress.stage = .conflicting) closed after steps
    (List.getElem?_set_self bound) starts
  have final := (keyed_preserves codec options identity present).holds_steps after steps
  exact ⟨last, located, conflicting_refused final (List.mem_of_getElem? located) kept⟩

end Reached

/-- Any number of requests of one client with one key, started on a store
without an entry for it and interleaved in any order. -/
theorem keyed_at_most_once (present : idempotencyKey ≠ "") {space : Idempotency.Keyspace}
    (absent : space (storedKey codec identity idempotencyKey) = none)
    {pool : Pool (keyedGateway codec options identity idempotencyKey)}
    (steps : (Pool.initial space).Steps pool) : AtMostOnce pool := by
  have holds := (keyed_preserves codec options identity present).holds_steps
    (Discipline.holds_initial _ (OneReservation.start absent)) steps
  refine ⟨fun found located active also => ?_, fun found located current also => ?_,
    succeeded_once holds, results_agree holds, conflict_refused holds, none_pending holds⟩
  · exact owning_unique holds found located (Stage.owning_of_active active)
      (Stage.owning_of_active also)
  · have held : (progressOf codec identity idempotencyKey _).stage = .held :=
      holds.may_of_current (List.mem_of_getElem? found) current
    have other : (progressOf codec identity idempotencyKey _).stage = .held :=
      holds.may_of_current (List.mem_of_getElem? located) also
    refine owning_unique holds found located ?_ ?_
    · rw [held]
      trivial
    · rw [other]
      trivial

end Runs

/-! A smallest request, its encodings and its digests -/

def sampleRequest : ChatRequest := ⟨"m", [⟨"user", "hi"⟩], none, none, none, false⟩

def samplePayload : Bytes :=
  utf8 "\x7b\"model\":\"m\",\"messages\":[\x7b\"role\":\"user\",\"content\":\"hi\"\x7d]\x7d"

def sampleResponse : ChatResponse := ⟨"", "r", "chat.completion", 1, "m", [], ⟨1, 1, 2⟩⟩

def sampleBody : Bytes :=
  utf8 ("\x7b\"id\":\"r\",\"object\":\"chat.completion\",\"created\":1,\"model\":\"m\",\"choices\":[]," ++
    "\"usage\":\x7b\"prompt_tokens\":1,\"completion_tokens\":1,\"total_tokens\":2\x7d\x7d")

def sampleIdentity : Bytes := utf8 "c"

def sampleMetadata : RequestMetadata := ⟨sampleIdentity, " k ", "id"⟩

/-- The encodings and digests of the sample values. -/
def sampleCodec : Codec where
  marshalRequest req := if req = sampleRequest then .ok samplePayload
    else .error (.text "json: unsupported value")
  marshalResponse response :=
    if response = { sampleResponse with provider := response.provider } then sampleBody else []
  unmarshalResponse payload :=
    if payload = sampleBody then .ok sampleResponse
    else .error (.text "unexpected end of JSON input")
  sha256 input :=
    if input = samplePayload then
      [121, 141, 70, 99, 148, 145, 214, 193, 143, 23, 121, 221, 252, 167, 218, 75,
        103, 47, 35, 164, 203, 87, 214, 110, 234, 228, 141, 155, 140, 203, 96, 117]
    else if input = Idempotency.scopeInput sampleIdentity "k" then
      [219, 121, 131, 157, 0, 84, 237, 109, 100, 249, 205, 201, 132, 173, 146, 61,
        75, 61, 20, 238, 32, 23, 198, 95, 194, 150, 95, 161, 67, 130, 207, 154]
    else []

def sampleOptions : GatewayOptions := ⟨false, false, true, false, false, "mock"⟩

/-- A provider that always answers, on the store as the scripts leave it. -/
def sampleReplies (space : Idempotency.Keyspace) :
    (op : gatewayCalls.Op) → gatewayCalls.Reply op × Idempotency.Keyspace
  | .inl (.begin key fingerprint) =>
      (.ok (space.Begin key fingerprint).2, (space.Begin key fingerprint).1)
  | .inl (.complete key fingerprint response) =>
      ((space.Complete key fingerprint response).2, (space.Complete key fingerprint response).1)
  | .inl (.release key fingerprint) =>
      ((space.Release key fingerprint).2, (space.Release key fingerprint).1)
  | .inl .randRead => (.ok (.replicate 16 0), space)
  | .inl (.allow _) => (.ok ⟨true, 1, 0, 0⟩, space)
  | .inl (.get _) => (.ok none, space)
  | .inl (.set _ _) => (none, space)
  | .inl (.record _) => (none, space)
  | .inl .newStream => ((0 : Nat), space)
  | .inl (.loadUsage _) => (ChatUsage.zero, space)
  | .inl (.enterOnce _) => (true, space)
  | .inl (.errorSink _) => ((), space)
  | .inl .observeRateLimited => ((), space)
  | .inl .observeCacheHit => ((), space)
  | .inl (.observeTokens _ _) => (none, space)
  | .inl .cancel => ((), space)
  | .inl (.storeUsage _ _) => ((), space)
  | .inl (.leaveOnce _) => ((), space)
  | .inr (.chat _) => (.ok sampleResponse, space)
  | .inr (.chatStream _) => (.error (.text "no stream"), space)
  | .inr (.recv _) => ((none, some Err.eof), space)
  | .inr (.close _) => (none, space)

theorem sampleReplies_served (space : Idempotency.Keyspace) (op : gatewayCalls.Op) :
    Served space op (sampleReplies space op).1 (sampleReplies space op).2 := by
  rcases op with op | op <;> cases op <;> first | exact ⟨rfl, rfl⟩ | rfl

theorem sample_carries : (Request.mk sampleRequest sampleMetadata).Carries sampleIdentity "k" :=
  ⟨rfl, rfl⟩

/-- Two identical requests: the second begins while the first is with the provider. -/
def samplePool : Pool (keyedGateway sampleCodec sampleOptions sampleIdentity "k") :=
  (Pool.initial fun _ => none).play (fun _ => sampleReplies)
    [.spawn ⟨sampleRequest, sampleMetadata⟩, .spawn ⟨sampleRequest, sampleMetadata⟩, .run 0, .run 1,
      .run 0, .run 0, .run 0, .run 0, .run 1]

theorem sample_steps : (Pool.initial fun _ => none).Steps samplePool := by
  have run {pool : Pool (keyedGateway sampleCodec sampleOptions sampleIdentity "k")} {index : Nat} :
    pool.Legal (fun _ => sampleReplies) (.run index) :=
    fun op _ => sampleReplies_served pool.shared op
  exact Pool.play_steps ⟨sample_carries, sample_carries, run, run, run, run, run, run, run, trivial⟩

theorem keyed_at_most_once_overlapping :
    samplePool.threads.map (fun thread => ((answersOf thread).length, thread.exit.isSome)) =
      [(1, true), (0, true)] ∧ AtMostOnce samplePool :=
  ⟨rfl, keyed_at_most_once (by decide) rfl sample_steps⟩

end ModelGate.Service
