import ModelGate.Idempotency.Lifetime
import ModelGate.Service.AtMostOnce

/-! Requests with one idempotency key in time.

Keys expire at their deadlines. The clock goes on as long as the request that
holds the reservation is within its lock. Who holds the reservation, what was
completed and what was replayed is noted next to the store.
-/

set_option autoImplicit false

namespace ModelGate.Service

open Data Semantics Provider
open Idempotency.Expiry (RedisStore Slot Keeps Milliseconds live)

structure Completion where
  caller : Nat
  begun : Int
  ended : Int
  fingerprint : String
  payload : Bytes

structure Timed where
  now : Int
  server : Idempotency.Expiry.Server
  /-- The request that holds the reservation, and since when. -/
  holder : Option (Nat × Int)
  results : List Completion
  replays : List (Int × Bytes)

namespace Timed

variable (s : Timed) (caller : Nat) (server : Idempotency.Expiry.Server)

def begins : Except Err Idempotency.Result → Timed
  | .ok .acquired => { s with server, holder := some (caller, s.now) }
  | .ok (.completed payload) => { s with server, replays := s.replays ++ [(s.now, payload)] }
  | _ => { s with server }

def completes (fingerprint : String) (payload : Bytes) : Option Err → Timed
  | none => { s with
      server, holder := none
      results := s.results ++
        [⟨caller, (s.holder.map Prod.snd).getD s.now, s.now, fingerprint, payload⟩] }
  | some _ => { s with server, holder := none }

def releases : Timed := { s with server, holder := none }

/-- The scripts at the present time; every other operation may reply anything. -/
def Handled (store : RedisStore) : (op : gatewayCalls.Op) → gatewayCalls.Reply op → Timed → Prop
  | .inl (.begin key fingerprint), reply, next =>
      reply = (store.Begin s.server s.now key fingerprint).2 ∧
        next = s.begins caller (store.Begin s.server s.now key fingerprint).1 reply
  | .inl (.complete key fingerprint payload), reply, next =>
      reply = (store.Complete s.server s.now key fingerprint payload).2 ∧
        next = s.completes caller (store.Complete s.server s.now key fingerprint payload).1
            fingerprint payload reply
  | .inl (.release key fingerprint), reply, next =>
      reply = (store.Release s.server s.now key fingerprint).2 ∧
        next = s.releases (store.Release s.server s.now key fingerprint).1
  | _, _, next => next = s

/-- Time goes on, but no request holds its reservation beyond the lock. -/
def Passes (store : RedisStore) (next : Timed) : Prop :=
  ∃ later, s.now ≤ later ∧
    (∀ caller begun, s.holder = some (caller, begun) → later < begun + Milliseconds store.lockTTL) ∧
    next = { s with now := later }

variable {s caller}

end Timed

section System

variable (store : RedisStore) (codec : Codec) (options : GatewayOptions) (identity : Bytes)
  (idempotencyKey : String)

def timedGateway : System gatewayCalls Timed Request (Except Err ChatResult) where
  body request := (NewGatewayService codec outside options).Chat request.req request.metadata
  admits _ request := request.Carries identity idempotencyKey
  handles caller s := s.Handled caller store
  moves s := s.Passes store

end System

/-! The requests and the notes -/

structure Attributed (holder : Option (Nat × Int)) (results : List Completion)
    (replays : List (Int × Bytes)) (phases : List Progress) : Prop where
  coherent : ∀ progress ∈ phases, progress.Coherent
  active : ∀ {index : Nat} {progress : Progress}, phases[index]? = some progress →
    (progress.stage.Active ↔ ∃ begun, holder = some (index, begun))
  inside : ∀ {index : Nat} {begun : Int}, holder = some (index, begun) → index < phases.length
  completed : ∀ {index : Nat} {progress : Progress} {payload : Bytes}, phases[index]? =
      some progress → progress.stage = .completed payload →
    ∃ result ∈ results, result.caller = index ∧ result.payload = payload
  owners : ∀ result ∈ results, ∃ progress, phases[result.caller]? = some progress ∧
    progress.stage = .completed result.payload
  once : (results.map Completion.caller).Nodup
  replayed : ∀ progress ∈ phases, ∀ payload, progress.stage = .replayed payload →
    ∃ time, (time, payload) ∈ replays

namespace Attributed

variable {holder : Option (Nat × Int)} {results : List Completion} {replays : List (Int × Bytes)}
  {phases : List Progress}

theorem spawn (attributed : Attributed holder results replays phases)
    (fingerprint : Option String) :
    Attributed holder results replays (phases ++ [⟨fingerprint, .before, []⟩]) := by
  have located {index : Nat} {progress : Progress} (found : phases[index]? = some progress) :
      (phases ++ [⟨fingerprint, .before, []⟩])[index]? = some progress := by
    rw [List.getElem?_append_left (List.getElem?_eq_some_iff.mp found).1]
    exact found
  refine ⟨?_, fun {index progress} found => ?_, fun held => ?_, fun found stage => ?_,
    fun result member => ?_, attributed.once, ?_⟩
  · refine List.forall_mem_append.mpr ⟨attributed.coherent, List.forall_mem_singleton.mpr ?_⟩
    exact rfl
  · by_cases old : index < phases.length
    · rw [List.getElem?_append_left old] at found
      exact attributed.active found
    · refine iff_of_false ?_ fun ⟨begun, held⟩ => old (attributed.inside held)
      rcases getElem?_concat_some found with there | rfl
      · exact absurd (List.getElem?_eq_some_iff.mp there).1 old
      · exact id
  · rw [List.length_append]
    exact Nat.lt_add_right _ (attributed.inside held)
  · rcases getElem?_concat_some found with old | rfl
    · exact attributed.completed old stage
    · cases stage
  · obtain ⟨progress, found, stage⟩ := attributed.owners result member
    exact ⟨progress, located found, stage⟩
  · refine List.forall_mem_append.mpr ⟨attributed.replayed, List.forall_mem_singleton.mpr
      fun payload stage => ?_⟩
    cases stage

/-- One request goes on; it is the only one whose part in the notes changes. -/
theorem replace (attributed : Attributed holder results replays phases) {index : Nat}
    {progress next : Progress} (found : phases[index]? = some progress)
    (running : ∀ payload, progress.stage ≠ .completed payload) (coherent : next.Coherent)
    (held : Option (Nat × Int)) (active : next.stage.Active ↔ ∃ begun, held = some (index, begun))
    (others : ∀ other begun, other ≠ index →
      (held = some (other, begun) ↔ holder = some (other, begun)))
    (added : Option Completion)
    (own : ∀ result, added = some result → result.caller = index ∧
      next.stage = .completed result.payload)
    (adds : ∀ payload, next.stage = .completed payload → ∃ result, added = some result ∧
      result.payload = payload)
    {heard : List (Int × Bytes)} (more : replays ⊆ heard)
    (replayed : ∀ payload, next.stage = .replayed payload → ∃ time, (time, payload) ∈ heard) :
    Attributed held (results ++ added.toList) heard (phases.set index next) := by
  have bound := (List.getElem?_eq_some_iff.mp found).1
  -- It has not completed before, so the note that is added is its first.
  have absent (result : Completion) (member : result ∈ results) : result.caller ≠ index := by
    intro same
    obtain ⟨before, located, stage⟩ := attributed.owners result member
    rw [same, found] at located
    obtain rfl := Option.some.inj located
    exact running _ stage
  refine ⟨fun other member => ?_, fun located => ?_, fun {other begun} holds => ?_,
    fun located stage => ?_, fun result member => ?_, ?_, fun other member payload stage => ?_⟩
  · rcases List.mem_or_eq_of_mem_set member with old | rfl
    · exact attributed.coherent other old
    · exact coherent
  · rcases getElem?_set_some located with ⟨rfl, rfl⟩ | ⟨apart, old⟩
    · exact active
    · rw [attributed.active old]
      exact exists_congr fun begun => (others _ begun apart).symm
  · rw [List.length_set]
    by_cases here : other = index
    · exact here ▸ bound
    · exact attributed.inside ((others other begun here).mp holds)
  · rcases getElem?_set_some located with ⟨rfl, rfl⟩ | ⟨-, old⟩
    · obtain ⟨result, rfl, same⟩ := adds _ stage
      exact ⟨result, List.mem_append_right _ List.mem_cons_self, (own result rfl).1, same⟩
    · obtain ⟨result, member, owns⟩ := attributed.completed old stage
      exact ⟨result, List.mem_append_left _ member, owns⟩
  · rcases List.mem_append.mp member with old | new
    · obtain ⟨before, located, stage⟩ := attributed.owners result old
      exact ⟨before, by rw [List.getElem?_set_ne (absent result old).symm]; exact located, stage⟩
    · obtain ⟨same, stage⟩ := own result (Option.mem_toList.mp new)
      exact ⟨next, by rw [same]; exact List.getElem?_set_self bound, stage⟩
  · rw [List.map_append]
    refine List.nodup_append.mpr ⟨attributed.once, ?_, fun caller old other new => ?_⟩
    · cases added <;> simp
    · obtain ⟨result, member, rfl⟩ := List.mem_map.mp old
      obtain ⟨last, inside, rfl⟩ := List.mem_map.mp new
      rw [(own last (Option.mem_toList.mp inside)).1]
      exact absent result member
  · rcases List.mem_or_eq_of_mem_set member with old | rfl
    · obtain ⟨time, there⟩ := attributed.replayed other old payload stage
      exact ⟨time, more there⟩
    · exact replayed payload stage

end Attributed

/-! The key and the notes -/

def fingerprints (phases : List Progress) (index : Nat) : Option String :=
  phases[index]?.bind Progress.fingerprint

section Times

variable (store : RedisStore)

/-- What the key holds, by who holds the reservation and what was completed last. -/
inductive Kept (slot : Option Slot) (now : Int) (names : Nat → Option String) :
    Option (Nat × Int) → List Completion → Prop where
  | reserved {index : Nat} {begun : Int} {fingerprint : String} {results : List Completion}
      (own : names index = some fingerprint) (since : begun ≤ now)
        (within : now < begun + Milliseconds store.lockTTL)
      (keeps : Keeps slot ⟨fingerprint, .pending, none⟩ (begun + Milliseconds store.lockTTL))
      (earlier : ∀ result ∈ results, result.ended + Milliseconds store.resultTTL ≤ begun) :
      Kept slot now names (some (index, begun)) results
  | stored {result : Completion} {results : List Completion}
      (keeps : Keeps slot ⟨result.fingerprint, .completed, some result.payload⟩
        (result.ended + Milliseconds store.resultTTL))
      (fresh : now < result.ended + Milliseconds store.resultTTL)
      (earlier : ∀ other ∈ results, other.ended + Milliseconds store.resultTTL ≤ now) :
      Kept slot now names none (results ++ [result])
  | gone {results : List Completion} (gone : live now slot = none)
      (earlier : ∀ result ∈ results, result.ended + Milliseconds store.resultTTL ≤ now) :
      Kept slot now names none results

structure Spans (now : Int) (results : List Completion) (replays : List (Int × Bytes)) : Prop where
  within : ∀ result ∈ results, result.begun ≤ result.ended ∧
    result.ended < result.begun + Milliseconds store.lockTTL ∧ result.ended ≤ now
  apart : results.Pairwise fun first second => first.ended + Milliseconds store.resultTTL ≤
    second.begun
  replays : ∀ entry ∈ replays, ∃ result ∈ results, result.payload = entry.2 ∧
    result.ended ≤ entry.1 ∧ entry.1 < result.ended + Milliseconds store.resultTTL

structure Timely (key : String) (s : Timed) (phases : List Progress) : Prop where
  attributed : Attributed s.holder s.results s.replays phases
  kept : Kept store (s.server (Idempotency.redisKey key)) s.now
    (fingerprints phases) s.holder s.results
  spans : Spans store s.now s.results s.replays

end Times

theorem fingerprints_set {phases : List Progress} {index : Nat} {progress next : Progress}
    (found : phases[index]? = some progress) (same : next.fingerprint = progress.fingerprint) :
    fingerprints (phases.set index next) = fingerprints phases := by
  funext position
  unfold fingerprints
  by_cases here : index = position
  · subst here
    rw [List.getElem?_set_self (List.getElem?_eq_some_iff.mp found).1, found]
    exact same
  · rw [List.getElem?_set_ne here]

theorem fingerprints_reach {phases : List Progress} {index : Nat} {progress : Progress}
    (found : phases[index]? = some progress) (stage : Stage) :
    fingerprints (phases.set index (progress.reach stage)) = fingerprints phases :=
  fingerprints_set found rfl

theorem fingerprints_append {phases : List Progress} {index : Nat} {fingerprint : String}
    (named : fingerprints phases index = some fingerprint) (more : List Progress) :
    fingerprints (phases ++ more) index = some fingerprint := by
  obtain ⟨progress, found, same⟩ := Option.bind_eq_some_iff.mp named
  rw [fingerprints, List.getElem?_append_left (List.getElem?_eq_some_iff.mp found).1, found]
  exact same

namespace Kept

variable {store : RedisStore} {slot : Option Slot} {now : Int} {names : Nat → Option String}
  {holder : Option (Nat × Int)} {results : List Completion}

theorem rename (kept : Kept store slot now names holder results) {more : Nat → Option String}
    (known : ∀ index fingerprint, names index = some fingerprint → more index = some fingerprint) :
    Kept store slot now more holder results := by
  cases kept with
  | reserved own since within keeps earlier =>
      exact .reserved (known _ _ own) since within keeps earlier
  | stored keeps fresh earlier => exact .stored keeps fresh earlier
  | gone gone earlier => exact .gone gone earlier

/-- A result may become too old; a reservation does not. -/
theorem passes (kept : Kept store slot now names holder results) {later : Int}
    (onwards : now ≤ later)
    (prompt : ∀ caller begun, holder = some (caller, begun) →
      later < begun + Milliseconds store.lockTTL) : Kept store slot later names holder results := by
  cases kept with
  | reserved own since within keeps earlier =>
      exact .reserved own (since.trans onwards) (prompt _ _ rfl) keeps earlier
  | @stored result results keeps fresh earlier =>
      have older : ∀ other ∈ results, other.ended + Milliseconds store.resultTTL ≤ later :=
        fun other member => (earlier other member).trans onwards
      by_cases still : later < result.ended + Milliseconds store.resultTTL
      · exact .stored keeps still older
      · refine .gone (keeps.gone (Int.not_lt.mp still)) (List.forall_mem_append.mpr ⟨older, ?_⟩)
        exact List.forall_mem_singleton.mpr (Int.not_lt.mp still)
  | gone gone earlier =>
      refine .gone ?_ fun result member => (earlier result member).trans onwards
      exact Idempotency.Expiry.live_none_mono onwards gone

theorem held (kept : Kept store slot now names holder results) {index : Nat} {begun : Int}
    (holds : holder = some (index, begun)) :
    ∃ fingerprint, names index = some fingerprint ∧ begun ≤ now ∧
    now < begun + Milliseconds store.lockTTL ∧
    Keeps slot ⟨fingerprint, .pending, none⟩ (begun + Milliseconds store.lockTTL) ∧
    ∀ result ∈ results, result.ended + Milliseconds store.resultTTL ≤ begun := by
  cases kept with
  | reserved own since within keeps earlier =>
      cases holds
      exact ⟨_, own, since, within, keeps, earlier⟩
  | stored => cases holds
  | gone => cases holds

/-- What `Begin` answers: a reservation where nothing is held or kept, the result that is
kept, or a refusal. -/
theorem begins {server : Idempotency.Expiry.Server} {key : String}
    (kept : Kept store (server (Idempotency.redisKey key)) now names holder results)
    (lock : 1000000 ≤ store.lockTTL) (fingerprint : String) :
    (holder = none ∧ (∀ result ∈ results, result.ended + Milliseconds store.resultTTL ≤ now) ∧
      ∃ slot, store.Begin server now key fingerprint =
        (Function.update server (Idempotency.redisKey key) slot, .ok .acquired) ∧
      Keeps slot ⟨fingerprint, .pending, none⟩ (now + Milliseconds store.lockTTL)) ∨
    (∃ result ∈ results, store.Begin server now key fingerprint =
        (server, .ok (.completed result.payload)) ∧
      now < result.ended + Milliseconds store.resultTTL) ∨
    ∃ refusal, (refusal = .pending ∨ refusal = .conflict) ∧
    store.Begin server now key fingerprint = (server, .ok refusal) := by
  cases kept with
  | @reserved index begun stored results own since within keeps earlier =>
      refine .inr (.inr ⟨_, ?_, RedisStore.begin_of_keeps keeps within fingerprint⟩)
      rcases (Idempotency.beginScript_some fingerprint ⟨stored, .pending, none⟩).2 with
        ⟨-, conflict⟩ | ⟨-, impossible, -⟩ | ⟨-, -, pending⟩
      · exact .inr conflict
      · cases impossible
      · exact .inl pending
  | @stored result results keeps fresh earlier =>
      have answered := RedisStore.begin_of_keeps (s := store) keeps fresh fingerprint
      rcases (Idempotency.beginScript_some fingerprint
        ⟨result.fingerprint, .completed, some result.payload⟩).2 with
        ⟨-, conflict⟩ | ⟨-, -, replay⟩ | ⟨-, impossible, -⟩
      · exact .inr (.inr ⟨_, .inr conflict, answered⟩)
      · rw [replay] at answered
        exact .inr (.inl ⟨result, List.mem_append_right _ (List.mem_singleton_self _),
          answered, fresh⟩)
      · cases impossible
  | gone gone earlier =>
      obtain ⟨slot, answered, keeps⟩ := RedisStore.begin_of_gone (s := store) gone lock fingerprint
      exact .inl ⟨rfl, earlier, slot, answered, keeps⟩

end Kept

namespace Timely

variable {store : RedisStore} {key : String} {s : Timed} {phases : List Progress}

theorem spawn (timely : Timely store key s phases) (fingerprint : Option String) :
    Timely store key s (phases ++ [⟨fingerprint, .before, []⟩]) :=
  ⟨timely.attributed.spawn fingerprint, timely.kept.rename
    fun _ _ named => fingerprints_append named _, timely.spans⟩

theorem passes (timely : Timely store key s phases) {next : Timed} (passes : s.Passes store next) :
    Timely store key next phases := by
  obtain ⟨later, onwards, prompt, rfl⟩ := passes
  refine ⟨timely.attributed, timely.kept.passes onwards prompt,
    ⟨fun result member => ?_, timely.spans.apart, timely.spans.replays⟩⟩
  obtain ⟨ordered, short, past⟩ := timely.spans.within result member
  exact ⟨ordered, short, past.trans onwards⟩

section Step

variable (timely : Timely store key s phases) {index : Nat} {progress : Progress}
  (found : phases[index]? = some progress)
include timely found

theorem keep {next : Progress} (same : next.fingerprint = progress.fingerprint)
    (coherent : next.Coherent) (active : next.stage.Active ↔ progress.stage.Active)
    (running : ∀ payload, progress.stage ≠ .completed payload)
    (unfinished : ∀ payload, next.stage ≠ .completed payload)
    (unheard : ∀ payload, next.stage ≠ .replayed payload) :
    Timely store key s (phases.set index next) := by
  refine ⟨?_, by rw [fingerprints_set found same]; exact timely.kept, timely.spans⟩
  have kept := timely.attributed.replace found running coherent s.holder
    (active.trans (timely.attributed.active found)) (fun _ _ _ => Iff.rfl) none
    (fun _ impossible => by cases impossible)
    (fun payload stage => absurd stage (unfinished payload)) (List.Subset.refl _)
    (fun payload stage => absurd stage (unheard payload))
  rwa [Option.toList_none, List.append_nil] at kept

theorem idle (before : progress.stage = .before) (begun : Int) :
    s.holder ≠ some (index, begun) := by
  intro holds
  have active := (timely.attributed.active found).mpr ⟨begun, holds⟩
  rw [before] at active
  exact active

theorem begun (lock : 1000000 ≤ store.lockTTL) (before : progress.stage = .before)
    {fingerprint : String} (own : progress.fingerprint = some fingerprint) :
    Timely store key (s.begins index (store.Begin s.server s.now key fingerprint).1
        (store.Begin s.server s.now key fingerprint).2)
      (phases.set index
        (progress.reach (.begun (store.Begin s.server s.now key fingerprint).2))) := by
  have coherent := timely.attributed.coherent _ (List.mem_of_getElem? found)
  have running (payload : Bytes) : progress.stage ≠ .completed payload := by simp [before]
  have waiting : ¬ progress.stage.Active := by
    rw [before]
    exact id
  rcases timely.kept.begins lock fingerprint with ⟨free, earlier, slot, answered, keeps⟩ |
    ⟨result, member, answered, fresh⟩ | ⟨refusal, kind, answered⟩
  -- The key was free: the caller becomes the holder, for the time of the lock.
  · rw [answered]
    have bound := (List.getElem?_eq_some_iff.mp found).1
    refine ⟨?_, ?_, timely.spans⟩
    · have reserved := timely.attributed.replace found running
        (Progress.coherent_begun coherent before (.ok .acquired)) (some (index, s.now))
        (iff_of_true trivial ⟨s.now, rfl⟩) (fun other begun apart => by simp [free, apart.symm])
        none (fun _ impossible => by cases impossible) (fun payload stage => by cases stage)
        (List.Subset.refl _) (fun payload stage => by cases stage)
      rwa [Option.toList_none, List.append_nil] at reserved
    · rw [fingerprints_reach found]
      have named : fingerprints phases index = some fingerprint := by
        rw [fingerprints, found]
        exact own
      refine .reserved named (Int.le_refl s.now) (Int.lt_add_of_pos_right s.now ?_) ?_ earlier
      · exact (Idempotency.Expiry.milliseconds_pos_iff _).mpr lock
      · show Keeps (Function.update s.server (Idempotency.redisKey key) slot
          (Idempotency.redisKey key)) _ _
        rw [Function.update_self]
        exact keeps
  -- A result that is still fresh is replayed, and the replay is noted with its time.
  · rw [answered]
    refine ⟨?_, ?_, timely.spans.within, timely.spans.apart, ?_⟩
    · have replayed := timely.attributed.replace found running
        (Progress.coherent_begun coherent before (.ok (.completed result.payload))) s.holder
        (iff_of_false id fun ⟨begun, holds⟩ => timely.idle found before begun holds)
        (fun _ _ _ => Iff.rfl) none (fun _ impossible => by cases impossible)
        (fun payload stage => by cases stage)
        (List.subset_append_left s.replays [(s.now, result.payload)])
        (fun payload stage => ⟨s.now, by cases stage; simp⟩)
      rwa [Option.toList_none, List.append_nil] at replayed
    · rw [fingerprints_reach found]
      exact timely.kept
    · refine List.forall_mem_append.mpr ⟨timely.spans.replays, List.forall_mem_singleton.mpr ?_⟩
      exact ⟨result, member, rfl, (timely.spans.within result member).2.2, fresh⟩
  -- Somebody else is at work, or the payload is another one: the store is as it was.
  · rw [answered]
    rcases kind with rfl | rfl
    · exact timely.keep found rfl (Progress.coherent_begun coherent before (.ok .pending))
        (iff_of_false id waiting) running (fun _ stage => by cases stage)
        (fun _ stage => by cases stage)
    · exact timely.keep found rfl (Progress.coherent_begun coherent before (.ok .conflict))
        (iff_of_false id waiting) running (fun _ stage => by cases stage)
        (fun _ stage => by cases stage)

theorem holding (active : progress.stage.Active) {fingerprint : String}
    (own : progress.fingerprint = some fingerprint) :
    ∃ begun, s.holder = some (index, begun) ∧ begun ≤ s.now ∧
    s.now < begun + Milliseconds store.lockTTL ∧
    Keeps (s.server (Idempotency.redisKey key)) ⟨fingerprint, .pending, none⟩
      (begun + Milliseconds store.lockTTL) ∧
    ∀ result ∈ s.results, result.ended + Milliseconds store.resultTTL ≤ begun := by
  obtain ⟨begun, holds⟩ := (timely.attributed.active found).mp active
  obtain ⟨stored, named, kept⟩ := timely.kept.held holds
  rw [fingerprints, found, Option.bind_some, own] at named
  obtain rfl := Option.some.inj named
  exact ⟨begun, holds, kept⟩

theorem completed (result : 1000000 ≤ store.resultTTL) (allowed : progress.stage.MayComplete)
    {fingerprint : String} (own : progress.fingerprint = some fingerprint) (payload : Bytes) :
    Timely store key
      (s.completes index (store.Complete s.server s.now key fingerprint payload).1 fingerprint
        payload (store.Complete s.server s.now key fingerprint payload).2)
      (phases.set index (progress.reach (.completed payload))) := by
  have active := Stage.active_of_mayComplete allowed
  have coherent := timely.attributed.coherent _ (List.mem_of_getElem? found)
  obtain ⟨begun, holds, since, within, keeps, earlier⟩ := timely.holding found active own
  -- The lock is still alive, so the script finds the reservation and stores the result.
  obtain ⟨slot, answered, stored⟩ :=
    RedisStore.complete_of_keeps (s := store) keeps within result payload
  have noted : s.completes index (Function.update s.server (Idempotency.redisKey key) slot)
      fingerprint payload none = ⟨s.now, Function.update s.server (Idempotency.redisKey key) slot,
        none, s.results ++ [⟨index, begun, s.now, fingerprint, payload⟩], s.replays⟩ := by
    rw [Timed.completes, holds]
    rfl
  rw [answered, noted]
  have kept := Int.lt_add_of_pos_right s.now
    ((Idempotency.Expiry.milliseconds_pos_iff store.resultTTL).mpr result)
  refine ⟨?_, ?_, ?_, ?_, ?_⟩
  · refine timely.attributed.replace found (fun payload stage => ?_)
      (Progress.coherent_completed coherent allowed payload) none
      (iff_of_false id fun ⟨_, impossible⟩ => by cases impossible) (fun other begun apart => ?_)
      (some ⟨index, begun, s.now, fingerprint, payload⟩) (fun result same => ?_)
      (fun other stage => ?_) (List.Subset.refl _) (fun payload stage => by cases stage)
    · rw [stage] at active
      exact active
    · simp [holds, apart.symm]
    · cases same
      exact ⟨rfl, rfl⟩
    · cases stage
      exact ⟨_, rfl, rfl⟩
  · rw [fingerprints_reach found]
    refine .stored ?_ kept fun other member => ?_
    · show Keeps (Function.update s.server (Idempotency.redisKey key) slot
        (Idempotency.redisKey key)) _ _
      rw [Function.update_self]
      exact stored
    · exact (earlier other member).trans since
  · exact List.forall_mem_append.mpr
      ⟨timely.spans.within, List.forall_mem_singleton.mpr ⟨since, within, Int.le_refl _⟩⟩
  · refine List.pairwise_append.mpr ⟨timely.spans.apart, List.pairwise_singleton _ _,
      fun other member last inside => ?_⟩
    obtain rfl := List.mem_singleton.mp inside
    exact earlier other member
  · intro entry member
    obtain ⟨result, inside, replays⟩ := timely.spans.replays entry member
    exact ⟨result, List.mem_append_left _ inside, replays⟩

theorem released (allowed : progress.stage.MayRelease) {fingerprint : String}
    (own : progress.fingerprint = some fingerprint) :
    Timely store key (s.releases (store.Release s.server s.now key fingerprint).1)
      (phases.set index (progress.reach .released)) := by
  have active := Stage.active_of_mayRelease allowed
  have coherent := timely.attributed.coherent _ (List.mem_of_getElem? found)
  obtain ⟨begun, holds, since, within, keeps, earlier⟩ := timely.holding found active own
  rw [RedisStore.release_of_keeps keeps within]
  refine ⟨?_, ?_, timely.spans⟩
  · have released := timely.attributed.replace found (fun payload stage => ?_)
      (Progress.coherent_released coherent allowed) none
      (iff_of_false id fun ⟨_, impossible⟩ => by cases impossible)
      (fun other begun apart => ?_) none (fun _ impossible => by cases impossible)
      (fun payload stage => by cases stage) (List.Subset.refl _)
      (fun payload stage => by cases stage)
    · rwa [Option.toList_none, List.append_nil] at released
    · rw [stage] at active
      exact active
    · simp [holds, apart.symm]
  · rw [fingerprints_reach found]
    refine .gone ?_ fun other member => (earlier other member).trans since
    show live s.now (Function.update s.server (Idempotency.redisKey key) none
      (Idempotency.redisKey key)) = none
    rw [Function.update_self]
    rfl

theorem heard (stage : progress.stage = .held) (answer : Except Err ChatResponse) :
    Timely store key s (phases.set index (progress.hear answer)) := by
  have coherent := timely.attributed.coherent _ (List.mem_of_getElem? found)
  refine timely.keep found rfl (Progress.coherent_hear coherent stage answer)
    (iff_of_true trivial ?_) ?_ (fun _ stage => by cases stage) (fun _ stage => by cases stage)
  · rw [stage]
    trivial
  · simp [stage]

end Step

end Timely

/-! Runs -/

section Runs

variable {store : RedisStore} {codec : Codec} {options : GatewayOptions} {identity : Bytes}
  {idempotencyKey : String}

def Timed.start (now : Int) (server : Idempotency.Expiry.Server) : Timed :=
  ⟨now, server, none, [], []⟩

theorem Timely.start {now : Int} {server : Idempotency.Expiry.Server} {key : String}
    (absent : live now (server (Idempotency.redisKey key)) = none) :
    Timely store key (.start now server) [] where
  attributed := ⟨List.forall_mem_nil _, fun found => by simp at found,
    fun holds => (by cases holds), fun found => by simp at found, List.forall_mem_nil _,
    List.nodup_nil, List.forall_mem_nil _⟩
  kept := .gone absent (List.forall_mem_nil _)
  spans := ⟨List.forall_mem_nil _, .nil, List.forall_mem_nil _⟩

end Runs

/-! A replay after an hour -/

def sampleStore : RedisStore := ⟨30000000000, 86400000000000⟩

/-- The replies of the store at its time, and a provider that always answers. -/
def timedReplies (caller : Nat) (s : Timed) : (op : gatewayCalls.Op) → gatewayCalls.Reply op × Timed
  | .inl (.begin key fingerprint) =>
      let begun := sampleStore.Begin s.server s.now key fingerprint
      (begun.2, s.begins caller begun.1 begun.2)
  | .inl (.complete key fingerprint payload) =>
      let done := sampleStore.Complete s.server s.now key fingerprint payload
      (done.2, s.completes caller done.1 fingerprint payload done.2)
  | .inl (.release key fingerprint) =>
      let done := sampleStore.Release s.server s.now key fingerprint
      (done.2, s.releases done.1)
  | op => ((sampleReplies (fun _ => none) op).1, s)

abbrev SamplePool := Pool (timedGateway sampleStore sampleCodec sampleOptions sampleIdentity "k")

def served (pool : SamplePool) (later : Int) (index : Nat) : SamplePool :=
  Pool.play timedReplies ⟨{ pool.shared with now := later }, pool.threads⟩
    (.spawn ⟨sampleRequest, sampleMetadata⟩ :: List.replicate 5 (.run index))

end ModelGate.Service
