import ModelGate.Service.AtMostOnce

/-! Requests with one idempotency key while entries may expire.

The store is the one of the scripts. Next to it stand the request whose
`Begin` made the present entry, the requests whose entry has expired, and those
of them that lost a reservation and have yet to complete or release it. The
bookkeeping only observes. Completing and releasing compare the fingerprint and
the pending flag of the entry, which two identical requests share.
-/

set_option autoImplicit false

namespace ModelGate.Service

open Data Semantics Provider

/-- What a closing operation compares the entry with. -/
def closingFingerprint : gatewayCalls.Op → Option String
  | .inl (.complete _ fingerprint _) => some fingerprint
  | .inl (.release _ fingerprint) => some fingerprint
  | _ => none

/-- A late request stands with the fingerprint of the reservation it lost. -/
structure Tracked where
  space : Idempotency.Keyspace
  owner : Option Nat
  expired : List Nat
  late : List (Nat × String)

namespace Tracked

/-- A `Begin` that acquired makes its caller the owner of the entry. -/
def ownerAfter (caller : Nat) (owner : Option Nat) :
    (op : gatewayCalls.Op) → gatewayCalls.Reply op → Option Nat
  | .inl (.begin _ _), .ok .acquired => some caller
  | _, _ => owner

theorem ownerAfter_quiet {caller : Nat} {owner : Option Nat} {op : gatewayCalls.Op}
    (quiet : Quiet op) (reply : gatewayCalls.Reply op) :
    ownerAfter caller owner op reply = owner := by
  rcases op with op | op
  · cases op <;> first | rfl | exact absurd quiet id
  · exact absurd quiet id

theorem closing_quiet {op : gatewayCalls.Op} (quiet : Quiet op) : closingFingerprint op = none := by
  rcases op with op | op
  · cases op <;> first | rfl | exact absurd quiet id
  · rfl

theorem ownerAfter_begin (caller : Nat) (owner : Option Nat) (key fingerprint : String)
    (result : Idempotency.Result) :
    ownerAfter caller owner (.inl (.begin key fingerprint)) (.ok result) =
      if result = .acquired then some caller else owner := by
  cases result <;> rfl

/-- A late request has closed what it lost once it completes or releases. -/
def lateAfter (caller : Nat) (late : List (Nat × String)) (op : gatewayCalls.Op) :
    List (Nat × String) :=
  if closingFingerprint op = none then late else late.filter fun request => request.1 ≠ caller

theorem lateAfter_quiet {caller : Nat} {late : List (Nat × String)} {op : gatewayCalls.Op}
    (quiet : Quiet op) : lateAfter caller late op = late :=
  if_pos (closing_quiet quiet)

def Handled (caller : Nat) (s : Tracked) (op : gatewayCalls.Op) (reply : gatewayCalls.Reply op)
    (next : Tracked) : Prop :=
  Served s.space op reply next.space ∧ next.owner = ownerAfter caller s.owner op reply ∧
    next.expired = s.expired ∧ next.late = lateAfter caller s.late op

/-- Who is late when an entry expires: the owner, if it was still reserved. -/
def overdue (owner : Option Nat) (entry : Idempotency.Entry) : List (Nat × String) :=
  if entry.state = .pending then owner.toList.map fun index => (index, entry.fingerprint) else []

def Expires (key : String) (s next : Tracked) : Prop :=
  ∃ entry, s.space key = some entry ∧
    next = ⟨s.space.set key none, s.owner, s.expired ++ s.owner.toList,
        s.late ++ overdue s.owner entry⟩

end Tracked

/-- No `Begin` acquires the key while a request that lost a reservation under
the same fingerprint has yet to complete or release it. -/
def Unovertaken (key : String) (s : Tracked) : gatewayCalls.Op → Prop
  | .inl (.begin _ fingerprint) => s.space key = none → ∀ request ∈ s.late, request.2 ≠ fingerprint
  | _ => True

section System

variable (codec : Codec) (options : GatewayOptions) (identity : Bytes) (idempotencyKey : String)
  (meets : Tracked → gatewayCalls.Op → Prop)

/-- The gateway on a store whose entries may expire, as far as the operations
meet a condition on the state before them. -/
def expiringGateway : System gatewayCalls Tracked Request (Except Err ChatResult) where
  body request := (NewGatewayService codec outside options).Chat request.req request.metadata
  admits _ request := request.Carries identity idempotencyKey
  handles caller s op reply next := s.Handled caller op reply next ∧ meets s op
  moves := Tracked.Expires (storedKey codec identity idempotencyKey)

def expiringDiscipline (present : idempotencyKey ≠ "") :
    Discipline (expiringGateway codec options identity idempotencyKey meets) Progress where
  protocol := reservation (scopedKey codec identity idempotencyKey)
  first request := ⟨(requestFingerprint codec request.req).toOption, .before, []⟩
  post := Settled codec
  obeyed _ request carries := (keyedDiscipline codec options identity idempotencyKey present).obeyed
    (fun _ => none) request carries

end System

/-- The present entry belongs to the one request that holds it or completed
it, and that request has not lost it. -/
structure OwnReservation (entry : Option Idempotency.Entry) (owner : Option Nat)
    (expired : List Nat) (phases : List Progress) : Prop where
  holder : ∀ {index : Nat} {progress : Progress}, phases[index]? = some progress →
    progress.stage.Active → index ∉ expired → owner = some index ∧
    ∃ fingerprint, progress.fingerprint = some fingerprint ∧
    entry = some ⟨fingerprint, .pending, none⟩
  owned : ∀ stored, entry = some stored → ∃ index progress, owner = some index ∧ index ∉ expired ∧
    phases[index]? = some progress ∧
    (progress.stage.Active ∨ ∃ payload, progress.stage = .completed payload ∧
      stored.state = .completed ∧ stored.response = some payload)
  begun : ∀ index ∈ expired, ∃ progress, phases[index]? = some progress ∧ progress.stage ≠ .before

namespace OwnReservation

variable {entry : Option Idempotency.Entry} {owner : Option Nat} {expired : List Nat}
  {phases : List Progress}

theorem start (empty : entry = none) (unexpired : expired = []) :
    OwnReservation entry owner expired [] := by
  subst empty unexpired
  exact ⟨by simp, by simp, by simp⟩

theorem spawn (own : OwnReservation entry owner expired phases) (fingerprint : Option String) :
    OwnReservation entry owner expired (phases ++ [⟨fingerprint, .before, []⟩]) := by
  have keeps {index : Nat} {progress : Progress} (found : phases[index]? = some progress) :
      (phases ++ [⟨fingerprint, .before, []⟩])[index]? = some progress := by
    rw [List.getElem?_append_left (List.getElem?_eq_some_iff.mp found).1]
    exact found
  refine ⟨fun found active fresh => ?_, fun stored present => ?_, fun index member => ?_⟩
  · rcases getElem?_concat_some found with old | rfl
    · exact own.holder old active fresh
    · exact absurd active id
  · obtain ⟨index, progress, owns, fresh, found, state⟩ := own.owned stored present
    exact ⟨index, progress, owns, fresh, keeps found, state⟩
  · obtain ⟨progress, found, stage⟩ := own.begun index member
    exact ⟨progress, keeps found, stage⟩

theorem expire (own : OwnReservation entry owner expired phases) (present : entry ≠ none) :
    OwnReservation none owner (expired ++ owner.toList) phases := by
  obtain ⟨stored, rfl⟩ := Option.ne_none_iff_exists'.mp present
  obtain ⟨index, progress, rfl, fresh, found, state⟩ := own.owned stored rfl
  refine ⟨fun {position other} located active late => ?_, fun _ absent => absurd absent.symm
    (Option.some_ne_none _), fun position member => ?_⟩
  · have unexpired : position ∉ expired := fun member => late (List.mem_append_left _ member)
    obtain ⟨same, _⟩ := own.holder located active unexpired
    obtain rfl := Option.some.inj same
    exact absurd (List.mem_append_right _ (by simp)) late
  · rcases List.mem_append.mp member with old | new
    · exact own.begun position old
    · obtain rfl : position = index := by simpa using new
      refine ⟨progress, found, fun before => ?_⟩
      rw [before] at state
      rcases state with active | ⟨_, done, _⟩
      · exact active
      · cases done

section Replace

variable (own : OwnReservation entry owner expired phases) {index : Nat} {progress : Progress}
  (found : phases[index]? = some progress)
include own found

theorem begun_set {next : Progress} (begun : next.stage ≠ .before) (position : Nat)
    (member : position ∈ expired) : ∃ other, (phases.set index next)[position]? = some other ∧
    other.stage ≠ .before := by
  by_cases here : position = index
  · subst here
    exact ⟨next, List.getElem?_set_self (List.getElem?_eq_some_iff.mp found).1, begun⟩
  · obtain ⟨other, located, stage⟩ := own.begun position member
    refine ⟨other, ?_, stage⟩
    rw [List.getElem?_set_ne (Ne.symm here)]
    exact located

theorem keep {next : Progress} (begun : next.stage ≠ .before)
    (active : next.stage.Active → progress.stage.Active ∧ next.fingerprint = progress.fingerprint)
    (holds : index ∈ expired ∨ ¬ progress.stage.Owning ∨
      (progress.stage.Active ∧ next.stage.Active)) :
    OwnReservation entry owner expired (phases.set index next) := by
  have bound := (List.getElem?_eq_some_iff.mp found).1
  refine ⟨fun {position other} located stage fresh => ?_, fun stored present => ?_,
    own.begun_set found begun⟩
  · rcases getElem?_set_some located with ⟨rfl, rfl⟩ | ⟨_, old⟩
    · obtain ⟨before, same⟩ := active stage
      rw [same]
      exact own.holder found before fresh
    · exact own.holder old stage fresh
  · obtain ⟨position, holder, owns, fresh, located, state⟩ := own.owned stored present
    -- The owner is the request that moves only if it goes on holding the key.
    by_cases here : position = index
    · subst here
      rw [found] at located
      obtain rfl := Option.some.inj located
      have owning : progress.stage.Owning := by
        rcases state with active | ⟨payload, done, _⟩
        · exact Stage.owning_of_active active
        · rw [done]
          trivial
      rcases holds with late | none | ⟨_, goes⟩
      · exact absurd late fresh
      · exact absurd owning none
      · exact ⟨position, next, owns, fresh, List.getElem?_set_self bound, .inl goes⟩
    · refine ⟨position, holder, owns, fresh, ?_, state⟩
      rw [List.getElem?_set_ne (Ne.symm here)]
      exact located

theorem replace {next : Progress} {stored : Option Idempotency.Entry} (begun : next.stage ≠ .before)
    (fresh : index ∉ expired)
    (alone : ∀ position other, position ≠ index → phases[position]? = some other →
      other.stage.Active → position ∈ expired)
    (active : next.stage.Active → ∃ fingerprint, next.fingerprint = some fingerprint ∧
      stored = some ⟨fingerprint, .pending, none⟩)
    (owned : ∀ present, stored = some present → next.stage.Active ∨
      ∃ payload, next.stage = .completed payload ∧ present.state = .completed ∧
      present.response = some payload) :
    OwnReservation stored (some index) expired (phases.set index next) := by
  have bound := (List.getElem?_eq_some_iff.mp found).1
  refine ⟨fun {position other} located stage late => ?_, fun present stays => ?_,
    own.begun_set found begun⟩
  · rcases getElem?_set_some located with ⟨rfl, rfl⟩ | ⟨different, old⟩
    · exact ⟨rfl, active stage⟩
    · exact absurd (alone _ _ different old stage) late
  · exact ⟨index, next, rfl, fresh, List.getElem?_set_self bound, owned present stays⟩

theorem others_expired (active : progress.stage.Active) (fresh : index ∉ expired) (position : Nat)
    (other : Progress) (different : position ≠ index) (located : phases[position]? = some other)
    (also : other.stage.Active) : position ∈ expired := by
  by_contra late
  obtain ⟨owns, _⟩ := own.holder found active fresh
  obtain ⟨same, _⟩ := own.holder located also late
  rw [owns] at same
  exact different (Option.some.inj same).symm

theorem fresh_of_before (stage : progress.stage = .before) : index ∉ expired := by
  intro late
  obtain ⟨other, located, begun⟩ := own.begun index late
  rw [found] at located
  obtain rfl := Option.some.inj located
  exact begun stage

theorem began (stage : progress.stage = .before) {fingerprint : String}
    (mine : progress.fingerprint = some fingerprint) :
    OwnReservation (Idempotency.beginScript fingerprint entry).1
      (if (Idempotency.beginScript fingerprint entry).2 = .acquired then some index else owner)
      expired (phases.set index
        (progress.reach (.begun (.ok (Idempotency.beginScript fingerprint entry).2)))) := by
  have fresh := own.fresh_of_before found stage
  cases entry with
  | none =>
      refine own.replace found (fun before => Stage.noConfusion before) fresh
        (fun position other _ located active => ?_) (fun _ => ⟨fingerprint, mine, rfl⟩)
        (fun _ _ => .inl trivial)
      by_contra late
      obtain ⟨_, _, _, stored⟩ := own.holder located active late
      cases stored
  | some current =>
      obtain ⟨unchanged, answers⟩ := Idempotency.beginScript_some fingerprint current
      rw [unchanged]
      have idle : ¬ progress.stage.Owning := by
        rw [stage]
        exact id
      rcases answers with ⟨_, answer⟩ | ⟨_, _, answer⟩ |
        ⟨_, _, answer⟩ <;> rw [answer, if_neg (by simp)]
      all_goals
        exact own.keep found (fun before => Stage.noConfusion before)
          (fun active => absurd active id) (.inr (.inl idle))

/-- A closing script by a request that has lost its reservation finds nothing
of its own: it leaves the entry alone. -/
theorem closedLate {stored : Option Idempotency.Entry} {next : Progress} (late : index ∈ expired)
    (begun : next.stage ≠ .before) (idle : ¬ next.stage.Active) (unchanged : stored = entry) :
    OwnReservation stored owner expired (phases.set index next) := by
  subst unchanged
  exact own.keep found begun (fun active => absurd active idle) (.inl late)

theorem completed (allowed : progress.stage.MayComplete) {fingerprint : String}
    (mine : progress.fingerprint = some fingerprint) (payload : Bytes)
    (undisturbed : index ∈ expired → ∀ stored, entry = some stored →
      ¬ Idempotency.Reserved fingerprint stored) :
    OwnReservation (Idempotency.completeScript fingerprint payload entry).1 owner expired
      (phases.set index (progress.reach (.completed payload))) := by
  by_cases late : index ∈ expired
  · refine own.closedLate found late (fun before => Stage.noConfusion before) id ?_
    exact Idempotency.completeScript_unreserved (undisturbed late) payload
  · have active := Stage.active_of_mayComplete allowed
    obtain ⟨rfl, other, same, rfl⟩ := own.holder found active late
    rw [mine] at same
    obtain rfl := Option.some.inj same
    have reserved : Idempotency.Reserved fingerprint ⟨fingerprint, .pending, none⟩ := ⟨rfl, rfl⟩
    rw [Idempotency.completeScript_reserved reserved]
    refine own.replace found (fun before => Stage.noConfusion before) late
      (own.others_expired found active late) (fun active => absurd active id)
      (fun present stays => .inr ?_)
    obtain rfl := Option.some.inj stays
    exact ⟨payload, rfl, rfl, rfl⟩

theorem released (allowed : progress.stage.MayRelease) {fingerprint : String}
    (mine : progress.fingerprint = some fingerprint)
    (undisturbed : index ∈ expired → ∀ stored, entry = some stored →
      ¬ Idempotency.Reserved fingerprint stored) :
    OwnReservation (Idempotency.releaseScript fingerprint entry).1 owner expired
      (phases.set index (progress.reach .released)) := by
  by_cases late : index ∈ expired
  · refine own.closedLate found late (fun before => Stage.noConfusion before) id ?_
    exact Idempotency.releaseScript_unreserved (undisturbed late)
  · have active := Stage.active_of_mayRelease allowed
    obtain ⟨rfl, other, same, rfl⟩ := own.holder found active late
    rw [mine] at same
    obtain rfl := Option.some.inj same
    have reserved : Idempotency.Reserved fingerprint ⟨fingerprint, .pending, none⟩ := ⟨rfl, rfl⟩
    rw [Idempotency.releaseScript_reserved reserved]
    exact own.replace found (fun before => Stage.noConfusion before) late
      (own.others_expired found active late) (fun active => absurd active id)
      (fun present stays => absurd stays.symm (Option.some_ne_none present))

theorem heard (stage : progress.stage = .held) (answer : Except Err ChatResponse) :
    OwnReservation entry owner expired (phases.set index (progress.hear answer)) := by
  have active : progress.stage.Active := by
    rw [stage]
    trivial
  exact own.keep found (fun before => Stage.noConfusion before) (fun _ => ⟨active, rfl⟩)
    (.inr (.inr ⟨active, trivial⟩))

end Replace

end OwnReservation

/-- Every request that lost its reservation and has not closed it is known to be
late, and the key is not reserved under the fingerprint of a late request. -/
structure Lingering (entry : Option Idempotency.Entry) (expired : List Nat)
    (late : List (Nat × String)) (phases : List Progress) : Prop where
  known : ∀ {index : Nat} {progress : Progress}, index ∈ expired → phases[index]? = some progress →
    progress.stage.Active → ∃ fingerprint, progress.fingerprint = some fingerprint ∧
    (index, fingerprint) ∈ late
  apart : ∀ request ∈ late, ∀ stored, entry = some stored → ¬ Idempotency.Reserved request.2 stored

namespace Lingering

variable {entry : Option Idempotency.Entry} {owner : Option Nat} {expired : List Nat}
  {late : List (Nat × String)} {phases : List Progress}

theorem spawn (lingering : Lingering entry expired late phases) (fingerprint : Option String) :
    Lingering entry expired late (phases ++ [⟨fingerprint, .before, []⟩]) := by
  refine ⟨fun member found active => ?_, lingering.apart⟩
  rcases getElem?_concat_some found with old | rfl
  · exact lingering.known member old active
  · exact absurd active id

theorem expire {stored : Idempotency.Entry}
    (lingering : Lingering (some stored) expired late phases)
    (own : OwnReservation (some stored) owner expired phases) :
    Lingering none (expired ++ owner.toList) (late ++ Tracked.overdue owner stored) phases := by
  refine ⟨fun {index progress} member found active => ?_, fun _ _ _ absent => absurd absent.symm
    (Option.some_ne_none _)⟩
  by_cases before : index ∈ expired
  · obtain ⟨fingerprint, mine, listed⟩ := lingering.known before found active
    exact ⟨fingerprint, mine, List.mem_append_left _ listed⟩
  · obtain ⟨rfl, fingerprint, mine, pending⟩ := own.holder found active before
    obtain rfl := Option.some.inj pending
    exact ⟨fingerprint, mine, List.mem_append_right _ (List.mem_singleton.mpr rfl)⟩

section Replace

variable (lingering : Lingering entry expired late phases) {index : Nat} {progress : Progress}
  (found : phases[index]? = some progress)
include lingering found

theorem keep {next : Progress} {stored : Option Idempotency.Entry}
    (active : index ∈ expired → next.stage.Active → progress.stage.Active ∧
      next.fingerprint = progress.fingerprint)
    (apart : ∀ request ∈ late, ∀ present, stored = some present →
      ¬ Idempotency.Reserved request.2 present) :
    Lingering stored expired late (phases.set index next) := by
  refine ⟨fun {position other} member located stage => ?_, apart⟩
  rcases getElem?_set_some located with ⟨rfl, rfl⟩ | ⟨_, old⟩
  · obtain ⟨before, same⟩ := active member stage
    rw [same]
    exact lingering.known member found before
  · exact lingering.known member old stage

theorem began (own : OwnReservation entry owner expired phases) (stage : progress.stage = .before)
    {fingerprint : String} (free : entry = none → ∀ request ∈ late, request.2 ≠ fingerprint) :
    Lingering (Idempotency.beginScript fingerprint entry).1 expired late
      (phases.set index
        (progress.reach (.begun (.ok (Idempotency.beginScript fingerprint entry).2)))) := by
  refine lingering.keep found (fun member _ => absurd member (own.fresh_of_before found stage)) ?_
  cases entry with
  | none =>
      intro request listed present made reserved
      obtain rfl := Option.some.inj made
      exact free rfl request listed reserved.1.symm
  | some current =>
      rw [(Idempotency.beginScript_some fingerprint current).1]
      exact lingering.apart

theorem closed {next : Progress} {stored : Option Idempotency.Entry} (idle : ¬ next.stage.Active)
    (kept : ∀ print present, stored = some present → Idempotency.Reserved print present →
      entry = some present) :
    Lingering stored expired (late.filter fun request => request.1 ≠ index)
      (phases.set index next) := by
  refine ⟨fun {position other} member located stage => ?_,
    fun request listed present stays reserved => ?_⟩
  · rcases getElem?_set_some located with ⟨rfl, rfl⟩ | ⟨different, old⟩
    · exact absurd stage idle
    · obtain ⟨fingerprint, mine, listed⟩ := lingering.known member old stage
      exact ⟨fingerprint, mine, List.mem_filter.mpr ⟨listed, decide_eq_true different⟩⟩
  · exact lingering.apart request (List.mem_of_mem_filter listed) present
      (kept _ present stays reserved) reserved

/-- What a request that lost its reservation completes or releases is not reserved under its
fingerprint. -/
theorem undisturbed (active : progress.stage.Active) {fingerprint : String}
    (mine : progress.fingerprint = some fingerprint) (member : index ∈ expired)
    (stored : Idempotency.Entry) (present : entry = some stored) :
    ¬ Idempotency.Reserved fingerprint stored := by
  obtain ⟨other, same, listed⟩ := lingering.known member found active
  rw [mine] at same
  obtain rfl := Option.some.inj same
  exact lingering.apart _ listed stored present

end Replace

end Lingering

theorem reserved_of_complete {fingerprint print : String} {payload : Bytes}
    {entry : Option Idempotency.Entry} {stored : Idempotency.Entry}
    (left : (Idempotency.completeScript fingerprint payload entry).1 = some stored)
    (reserved : Idempotency.Reserved print stored) : entry = some stored := by
  by_cases mine : ∃ current, entry = some current ∧ Idempotency.Reserved fingerprint current
  · obtain ⟨current, rfl, held⟩ := mine
    rw [Idempotency.completeScript_reserved held] at left
    obtain rfl := Option.some.inj left
    cases reserved.2
  · rw [Idempotency.completeScript_unreserved fun current present held => mine
      ⟨current, present, held⟩] at left
    exact left

theorem reserved_of_release {fingerprint : String} {entry : Option Idempotency.Entry}
    {stored : Idempotency.Entry}
    (left : (Idempotency.releaseScript fingerprint entry).1 = some stored) :
    entry = some stored := by
  by_cases mine : ∃ current, entry = some current ∧ Idempotency.Reserved fingerprint current
  · obtain ⟨current, rfl, held⟩ := mine
    rw [Idempotency.releaseScript_reserved held] at left
    cases left
  · rw [Idempotency.releaseScript_unreserved fun current present held => mine
      ⟨current, present, held⟩] at left
    exact left

section Runs

variable (codec : Codec) (options : GatewayOptions) (identity : Bytes) {idempotencyKey : String}

theorem expiring_preserves (present : idempotencyKey ≠ "") :
    (expiringDiscipline codec options identity idempotencyKey
      (Unovertaken (storedKey codec identity idempotencyKey)) present).Preserves fun s phases =>
      OwnReservation (s.space (storedKey codec identity idempotencyKey)) s.owner s.expired phases ∧
      Lingering (s.space (storedKey codec identity idempotencyKey)) s.expired s.late phases where
  spawn holds _ := ⟨holds.1.spawn _, holds.2.spawn _⟩
  move {s phases next} holds moved := by
    obtain ⟨own, lingering⟩ := holds
    obtain ⟨entry, present, rfl⟩ := moved
    have emptied : (s.space.set (storedKey codec identity idempotencyKey) none)
        (storedKey codec identity idempotencyKey) = none := Function.update_self ..
    rw [present] at own lingering
    simp only [emptied]
    exact ⟨own.expire (Option.some_ne_none entry), lingering.expire own⟩
  perform {s phases index progress op reply next} holds found allowed handled := by
    refine ⟨trivial, ?_⟩
    obtain ⟨own, lingering⟩ := holds
    obtain ⟨⟨served, owner, expired, late⟩, unovertaken⟩ := handled
    simp only [owner, expired, late]
    -- The five kinds of operations a request can be at: the three on the store, the upstream
    -- call, and those that leave the store alone.
    rcases may_cases allowed with ⟨fingerprint, rfl, stage, mine⟩ |
      ⟨fingerprint, payload, rfl, stage, mine⟩ | ⟨fingerprint, rfl, stage, mine⟩ |
      ⟨req, rfl, stage⟩ | ⟨quiet, same⟩
    · obtain ⟨rfl, stored⟩ := served
      rw [stored]
      rw [Tracked.ownerAfter_begin, Idempotency.Keyspace.begin_result]
      simp only [storedKey, Idempotency.Keyspace.begin_entry]
      exact ⟨own.began found stage mine, lingering.began found own stage unovertaken⟩
    · obtain ⟨_, stored⟩ := served
      rw [stored]
      simp only [storedKey, Idempotency.Keyspace.complete_entry]
      have undisturbed := lingering.undisturbed found (Stage.active_of_mayComplete stage) mine
      exact ⟨own.completed found stage mine payload undisturbed,
        lingering.closed found id fun _ _ left reserved => reserved_of_complete left reserved⟩
    · obtain ⟨_, stored⟩ := served
      rw [stored]
      simp only [storedKey, Idempotency.Keyspace.release_entry]
      have undisturbed := lingering.undisturbed found (Stage.active_of_mayRelease stage) mine
      exact ⟨own.released found stage mine undisturbed,
        lingering.closed found id fun _ _ left _ => reserved_of_release left⟩
    · have stored : next.space = s.space := served
      rw [stored]
      have active : progress.stage.Active := by
        rw [stage]
        trivial
      exact ⟨own.heard found stage reply,
        lingering.keep found (fun _ _ => ⟨active, rfl⟩) lingering.apart⟩
    · rw [served_quiet quiet served]
      rw [show (expiringDiscipline codec options identity idempotencyKey
          (Unovertaken (storedKey codec identity idempotencyKey)) present).protocol.after progress
        op reply = progress from same reply, set_of_getElem? found, Tracked.ownerAfter_quiet quiet,
        Tracked.lateAfter_quiet quiet]
      exact ⟨own, lingering⟩

variable {codec options identity} {meets : Tracked → gatewayCalls.Op → Prop}

/-- Completing and releasing touch the caller's own reservation only, so one
request holds the key at a time and the stored response is its holder's. -/
structure Ownership (pool : Pool (expiringGateway codec options identity idempotencyKey meets)) :
    Prop where
  guarded : ∀ {index : Nat}
    {thread : Thread (expiringGateway codec options identity idempotencyKey meets)}
    {op : gatewayCalls.Op}
    {next : gatewayCalls.Reply op → Program gatewayCalls (Except Err ChatResult)}
    {reply : gatewayCalls.Reply op} {shared : Tracked}, pool.threads[index]? = some thread →
    thread.rest = .perform op next → closingFingerprint op ≠ none →
    (expiringGateway codec options identity idempotencyKey meets).handles index pool.shared op reply
      shared → shared.space (storedKey codec identity idempotencyKey) ≠
      pool.shared.space (storedKey codec identity idempotencyKey) → pool.shared.owner = some index
  unique : ∀ {first second : Nat}
    {thread other : Thread (expiringGateway codec options identity idempotencyKey meets)},
    pool.threads[first]? = some thread → pool.threads[second]? = some other →
    (progressOf codec identity idempotencyKey thread).stage.Active → first ∉ pool.shared.expired →
    (progressOf codec identity idempotencyKey other).stage.Active → second ∉ pool.shared.expired →
    first = second
  stored : ∀ {entry : Idempotency.Entry},
    pool.shared.space (storedKey codec identity idempotencyKey) = some entry →
    entry.state = .completed → ∃ index thread payload, pool.shared.owner = some index ∧
    pool.threads[index]? = some thread ∧ entry.response = some payload ∧
    (progressOf codec identity idempotencyKey thread).stage = .completed payload ∧
    ∀ result, thread.exit = some (.returned (.ok result)) → codec.Stands payload result.response

/-- Requests of one client with one key on a store whose entry may expire at
any moment: ownership holds along every run in which no request acquires the
key between the expiry of an identical one and what that one does to close its
reservation. -/
theorem unovertaken_ownership (present : idempotencyKey ≠ "") {space : Idempotency.Keyspace}
    (absent : space (storedKey codec identity idempotencyKey) = none)
    {pool : Pool (expiringGateway codec options identity idempotencyKey
      (Unovertaken (storedKey codec identity idempotencyKey)))}
    (steps : (Pool.initial ⟨space, none, [], []⟩).Steps pool) : Ownership pool := by
  have started : Lingering (space (storedKey codec identity idempotencyKey)) [] [] [] :=
    ⟨by simp, by simp⟩
  have holds := (expiring_preserves codec options identity present).holds_steps
    (Discipline.holds_initial _ ⟨OwnReservation.start absent rfl, started⟩) steps
  obtain ⟨own, lingering⟩ := holds.1
  refine ⟨fun {index thread op next reply shared} found waits closing handled changed => ?_,
    fun found located active fresh also other => ?_, fun {entry} stored state => ?_⟩
  · have allowed : (reservation (scopedKey codec identity idempotencyKey)).may
        (progressOf codec identity idempotencyKey thread) op :=
      holds.may_of_current (List.mem_of_getElem? found) (Thread.current_of_rest waits)
    obtain ⟨⟨served, _, _⟩, _⟩ := handled
    have located := Discipline.phases_getElem?
      (expiringDiscipline codec options identity idempotencyKey _ present) found
    by_contra disowned
    -- Whoever is active and not the owner has lost its reservation.
    have late (active : (progressOf codec identity idempotencyKey thread).stage.Active) :
        index ∈ pool.shared.expired := by
      by_contra fresh
      exact disowned (own.holder located active fresh).1
    rcases may_cases allowed with ⟨_, rfl, _, _⟩ | ⟨fingerprint, payload, rfl, stage, mine⟩ |
      ⟨fingerprint, rfl, stage, mine⟩ | ⟨_, rfl, _⟩ | ⟨quiet, _⟩
    · exact closing rfl
    · refine changed ?_
      rw [served.2]
      simp only [storedKey, Idempotency.Keyspace.complete_entry]
      have active := Stage.active_of_mayComplete stage
      exact Idempotency.completeScript_unreserved
        (lingering.undisturbed located active mine (late active)) payload
    · refine changed ?_
      rw [served.2]
      simp only [storedKey, Idempotency.Keyspace.release_entry]
      have active := Stage.active_of_mayRelease stage
      exact Idempotency.releaseScript_unreserved
        (lingering.undisturbed located active mine (late active))
    · exact closing rfl
    · exact changed (by rw [served_quiet quiet served])
  · obtain ⟨first, _⟩ := own.holder (Discipline.phases_getElem? _ found) active fresh
    obtain ⟨second, _⟩ := own.holder (Discipline.phases_getElem? _ located) also other
    rw [first] at second
    exact Option.some.inj second
  · obtain ⟨index, progress, owner, fresh, located, shape⟩ := own.owned entry stored
    obtain ⟨thread, found, rfl⟩ := Discipline.thread_of_phase _ located
    rcases shape with active | ⟨payload, done, _, response⟩
    · obtain ⟨_, _, _, pending⟩ := own.holder located active fresh
      rw [stored] at pending
      obtain rfl := Option.some.inj pending
      cases state
    · refine ⟨index, thread, payload, owner, found, response, done, fun result ended => ?_⟩
      obtain ⟨other, closed | replayed, stands⟩ :=
        holds.post_of_exit (List.mem_of_getElem? found) ended
      · rw [done] at closed
        obtain rfl := Stage.completed.inj closed
        exact stands
      · rw [done] at replayed
        cases replayed

end Runs

/-! Two identical requests, the first of which loses its reservation -/

/-- The provider refuses the first request and answers every other one. -/
def overtakenReplies (caller : Nat) (s : Tracked) :
    (op : gatewayCalls.Op) → gatewayCalls.Reply op × Tracked
  | .inr (.chat _) => (if caller = 0 then .error (.text "refused") else .ok sampleResponse, s)
  | op =>
      let answer := sampleReplies s.space op
      (answer.1, ⟨answer.2, Tracked.ownerAfter caller s.owner op answer.1, s.expired,
        Tracked.lateAfter caller s.late op⟩)

theorem overtakenReplies_handled (caller : Nat) (s : Tracked) (op : gatewayCalls.Op) :
    s.Handled caller op (overtakenReplies caller s op).1 (overtakenReplies caller s op).2 := by
  rcases op with op | op
  · exact ⟨sampleReplies_served s.space (.inl op), rfl, rfl, rfl⟩
  · cases op with
    | chat req => exact ⟨rfl, rfl, rfl, rfl⟩
    | chatStream req => exact ⟨rfl, rfl, rfl, rfl⟩
    | recv stream => exact ⟨rfl, rfl, rfl, rfl⟩
    | close stream => exact ⟨rfl, rfl, rfl, rfl⟩

def sampleFingerprint : String := hexEncode (sampleCodec.sha256 samplePayload)

/-- The store once the reservation of the first request has expired. -/
def lapsed : Tracked :=
  let reserved := Idempotency.Keyspace.Begin (fun _ => none)
    (scopedKey sampleCodec sampleIdentity "k") sampleFingerprint
  ⟨reserved.1.set (storedKey sampleCodec sampleIdentity "k") none, some 0, [0],
    [(0, sampleFingerprint)]⟩

/-- The first request releases after its entry has expired; then the second begins. -/
def lapsedPool : Pool (expiringGateway sampleCodec sampleOptions sampleIdentity "k"
    (Unovertaken (storedKey sampleCodec sampleIdentity "k"))) :=
  (Pool.initial ⟨fun _ => none, none, [], []⟩).play overtakenReplies
    [.spawn ⟨sampleRequest, sampleMetadata⟩, .spawn ⟨sampleRequest, sampleMetadata⟩, .run 0,
      .move lapsed, .run 0, .run 0, .run 1]

theorem lapsed_steps : (Pool.initial ⟨fun _ => none, none, [], []⟩).Steps lapsedPool := by
  have run {pool : Pool (expiringGateway sampleCodec sampleOptions sampleIdentity "k"
      (Unovertaken (storedKey sampleCodec sampleIdentity "k")))} {index : Nat}
      (meets : ∀ op, pool.threads[index]?.bind Thread.current = some op →
        Unovertaken (storedKey sampleCodec sampleIdentity "k") pool.shared op) :
      pool.Legal overtakenReplies (.run index) :=
    fun op current => ⟨overtakenReplies_handled _ _ op, meets op current⟩
  have alone {pool :
        Pool (expiringGateway sampleCodec sampleOptions sampleIdentity "k"
          (Unovertaken (storedKey sampleCodec sampleIdentity "k")))}
      {index : Nat} (nobody : pool.shared.late = []) : pool.Legal overtakenReplies
      (.run index) := by
    refine run fun op _ => ?_
    unfold Unovertaken
    split
    · simp [nobody]
    · trivial
  refine Pool.play_steps ⟨sample_carries, sample_carries, alone rfl, ?_, run ?_, run ?_,
    alone rfl, trivial⟩
  · exact ⟨⟨sampleFingerprint, .pending, none⟩, rfl, rfl⟩
  · intro op current
    obtain rfl := Option.some.inj current
    trivial
  · intro op current
    obtain rfl := Option.some.inj current
    trivial

theorem unovertaken_ownership_lapsed :
    lapsedPool.shared.expired = [0] ∧ lapsedPool.shared.owner = some 1 ∧ Ownership lapsedPool :=
  ⟨rfl, rfl, unovertaken_ownership (by decide) rfl lapsed_steps⟩

/-- The first request begins and its entry expires; the second begins; the
provider refuses the first, which is about to release. -/
def overtakenPool :
    Pool (expiringGateway sampleCodec sampleOptions sampleIdentity "k" fun _ _ => True) :=
  (Pool.initial ⟨fun _ => none, none, [], []⟩).play overtakenReplies
    [.spawn ⟨sampleRequest, sampleMetadata⟩, .spawn ⟨sampleRequest, sampleMetadata⟩, .run 0,
      .move lapsed, .run 1, .run 0]

theorem overtaken_handled (caller : Nat) (s : Tracked) (op : gatewayCalls.Op) :
    (expiringGateway sampleCodec sampleOptions sampleIdentity "k" fun _ _ => True).handles caller s
      op (overtakenReplies caller s op).1 (overtakenReplies caller s op).2 :=
  ⟨overtakenReplies_handled caller s op, trivial⟩

theorem overtaken_steps : (Pool.initial ⟨fun _ => none, none, [], []⟩).Steps overtakenPool := by
  have run {pool :
      Pool (expiringGateway sampleCodec sampleOptions sampleIdentity "k" fun _ _ => True)}
    {index : Nat} : pool.Legal overtakenReplies (.run index) :=
    fun op _ => overtaken_handled index pool.shared op
  exact Pool.play_steps ⟨sample_carries, sample_carries, run,
    ⟨⟨sampleFingerprint, .pending, none⟩, rfl, rfl⟩, run, run, trivial⟩

/-- The release of the first request deletes the reservation of the second. -/
theorem not_expiring_ownership :
    ¬ ∀ pool : Pool (expiringGateway sampleCodec sampleOptions sampleIdentity "k" fun _ _ => True),
      (Pool.initial ⟨fun _ => none, none, [], []⟩).Steps pool → Ownership pool := by
  intro ownership
  have found : overtakenPool.threads[0]? = some overtakenPool.threads[0] := rfl
  have owner : overtakenPool.shared.owner = some 0 := by
    refine (ownership overtakenPool overtaken_steps).guarded found rfl (Option.some_ne_none _)
      (overtaken_handled 0 overtakenPool.shared _) (fun unchanged => ?_)
    have emptied := congrArg Option.isSome unchanged
    revert emptied
    decide +kernel
  revert owner
  decide

end ModelGate.Service
