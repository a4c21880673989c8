import ModelGate.Idempotency.Expiry

/-! What the scripts answer before and after the deadline of a key. -/

set_option autoImplicit false

namespace ModelGate.Idempotency.Expiry

open Data

theorem live_none_mono {now later : Int} (onwards : now ≤ later) {slot : Option Slot}
    (gone : live now slot = none) : live later slot = none := by
  cases slot with
  | none => rfl
  | some slot =>
      obtain ⟨value, _ | deadline⟩ := slot
      · simp [live] at gone
      · simp only [live, Option.filter_eq_none_iff, Option.some.injEq, forall_eq', Option.all_some,
          decide_eq_true_eq] at gone ⊢
        omega

theorem live_of_live {now later : Int} {slot : Option Slot} {found : Slot}
    (present : live now slot = some found) (alive : live later slot ≠ none) :
    live later slot = some found := by
  obtain ⟨rfl, -⟩ := Option.filter_eq_some_iff.mp present
  obtain ⟨left, still⟩ := Option.ne_none_iff_exists'.mp alive
  obtain ⟨same, -⟩ := Option.filter_eq_some_iff.mp still
  rw [still, same]

def Keeps (slot : Option Slot) (entry : Entry) (deadline : Int) : Prop :=
  ∃ fields, slot = some ⟨.hash fields, some deadline⟩ ∧
    fields "fingerprint" = some (utf8 entry.fingerprint) ∧
    fields "state" = some (EntryState.text entry.state) ∧ fields "response" = entry.response

section Keeping

variable {slot : Option Slot} {entry : Entry} {now deadline : Int}

theorem Keeps.live (keeps : Keeps slot entry deadline) (before : now < deadline) :
    live now slot = slot := by
  obtain ⟨fields, rfl, -⟩ := keeps
  simp [Expiry.live, before]

theorem Keeps.gone (keeps : Keeps slot entry deadline) (after : deadline ≤ now) :
    Expiry.live now slot = none := by
  obtain ⟨fields, rfl, -⟩ := keeps
  simp [Expiry.live, after]

theorem Keeps.read (keeps : Keeps slot entry deadline) (before : now < deadline) :
    ∃ fields, HMGET (Expiry.live now slot) = .ok fields ∧
    fields "fingerprint" = some (utf8 entry.fingerprint) ∧
    fields "state" = some (EntryState.text entry.state) ∧ fields "response" = entry.response := by
  rw [keeps.live before]
  obtain ⟨fields, rfl, shows⟩ := keeps
  exact ⟨fields, rfl, shows⟩

end Keeping

namespace RedisStore

variable {s : RedisStore} {server : Server} {now deadline : Int} {key : String} {entry : Entry}

theorem begin_of_keeps (keeps : Keeps (server (redisKey key)) entry deadline)
    (before : now < deadline) (fingerprint : String) :
    s.Begin server now key fingerprint =
      (server, .ok (Idempotency.beginScript fingerprint (some entry)).2) := by
  obtain ⟨fields, read, stored, state, response⟩ := keeps.read before
  rw [Begin, Eval, beginScript_taken now _ _ read stored, keeps.live before]
  dsimp only
  rw [Function.update_eq_self, Idempotency.beginScript, state, response]
  simp only [ne_eq, utf8_eq_iff, Option.some.injEq, text_eq_completed_iff]
  split_ifs <;> rfl

theorem begin_of_gone (gone : live now (server (redisKey key)) = none) (lock : 1000000 ≤ s.lockTTL)
    (fingerprint : String) :
    ∃ slot, s.Begin server now key fingerprint =
      (Function.update server (redisKey key) slot, .ok .acquired) ∧
    Keeps slot ⟨fingerprint, .pending, none⟩ (now + Milliseconds s.lockTTL) := by
  have read : HMGET (live now (server (redisKey key))) = .ok fun _ => none := by
    rw [gone]
    rfl
  obtain ⟨deadline, begun⟩ := begin_of_free (s := s) read rfl fingerprint
  rw [PEXPIRE, if_pos ((milliseconds_pos_iff _).mpr lock)] at begun
  exact ⟨_, begun, _, rfl, rfl, rfl, rfl⟩

theorem complete_of_keeps {fingerprint : String}
    (keeps : Keeps (server (redisKey key)) ⟨fingerprint, .pending, none⟩ deadline)
    (before : now < deadline) (result : 1000000 ≤ s.resultTTL) (response : Bytes) :
    ∃ slot, s.Complete server now key fingerprint response =
      (Function.update server (redisKey key) slot, none) ∧
    Keeps slot ⟨fingerprint, .completed, some response⟩ (now + Milliseconds s.resultTTL) := by
  obtain ⟨fields, read, stored, state, -⟩ := keeps.read before
  obtain ⟨deadline, done⟩ := complete_of_reserved (s := s) response read stored state
  rw [PEXPIRE, if_pos ((milliseconds_pos_iff _).mpr result)] at done
  exact ⟨_, done, _, rfl, by simp [completed, write, stored], rfl, rfl⟩

theorem release_of_keeps {fingerprint : String}
    (keeps : Keeps (server (redisKey key)) ⟨fingerprint, .pending, none⟩ deadline)
    (before : now < deadline) :
    s.Release server now key fingerprint = (Function.update server (redisKey key) none, none) := by
  obtain ⟨fields, read, stored, state, -⟩ := keeps.read before
  rw [Release, Eval, releaseScript_read read, if_pos ⟨stored, state⟩]

end RedisStore

/-! Whole histories

The requests of the gateway share a keyspace of entries. Over any history of
calls the store answers like such a keyspace, of which entries disappear.
-/

inductive Call where
  | begin (key fingerprint : String)
  | complete (key fingerprint : String) (response : Bytes)
  | release (key fingerprint : String)

inductive Answer where
  | begun (result : Except Err Result)
  | closed (failure : Option Err)

def RedisStore.perform (s : RedisStore) (server : Server) (now : Int) : Call → Server × Answer
  | .begin key fingerprint => (s.Begin server now key fingerprint).map id .begun
  | .complete key fingerprint response =>
      (s.Complete server now key fingerprint response).map id .closed
  | .release key fingerprint => (s.Release server now key fingerprint).map id .closed

def RedisStore.answers (s : RedisStore) : Server → List (Int × Call) → List Answer
  | _, [] => []
  | server, (now, call) :: history =>
      (s.perform server now call).2 :: s.answers (s.perform server now call).1 history

def performs (space : Keyspace) : Call → Keyspace × Answer
  | .begin key fingerprint => (space.Begin key fingerprint).map id fun result => .begun (.ok result)
  | .complete key fingerprint response => (space.Complete key fingerprint response).map id .closed
  | .release key fingerprint => (space.Release key fingerprint).map id .closed

def Fades (space later : Keyspace) : Prop :=
  ∀ location, later location = space location ∨ later location = none

/-- The answers of a keyspace whose entries may disappear between two calls, and never come
back or change. -/
inductive Fading : Keyspace → List Call → List Answer → Prop where
  | nil (space : Keyspace) : Fading space [] []
  | cons {space later : Keyspace} {call : Call} {calls : List Call}
      {answers : List Answer} (fades : Fades space later)
      (rest : Fading (performs later call).1 calls answers) : Fading space (call :: calls)
        ((performs later call).2 :: answers)

section Histories

variable {s : RedisStore} {server : Server} {now later : Int} {space : Keyspace}

theorem shows_later (shows : server.Shows now space) (onwards : now ≤ later) :
    ∃ left, Fades space left ∧ server.Shows later left := by
  refine ⟨fun location => if live later (server location) = none then none
    else space location, ?_, ?_⟩
  · intro location
    dsimp only
    split
    · exact .inr rfl
    · exact .inl rfl
  · intro location
    have here := shows location
    dsimp only
    split
    · assumption
    · rename_i alive
      cases entry : space location with
      | none =>
          rw [entry] at here
          exact absurd (live_none_mono onwards here) alive
      | some entry' =>
          rw [entry] at here
          obtain ⟨fields, deadline, present, stored⟩ := here
          exact ⟨fields, deadline, live_of_live present alive, stored⟩

theorem perform_refines (lock : 1000000 ≤ s.lockTTL) (result : 1000000 ≤ s.resultTTL)
    (shows : server.Shows now space) (call : Call) :
    Server.Shows (s.perform server now call).1 now (performs space call).1 ∧
    (s.perform server now call).2 = (performs space call).2 := by
  cases call with
  | begin key fingerprint =>
      obtain ⟨kept, same⟩ := RedisStore.begin_refines lock shows key fingerprint
      exact ⟨kept, congrArg Answer.begun same⟩
  | complete key fingerprint response =>
      obtain ⟨kept, same⟩ := RedisStore.complete_refines result shows key fingerprint response
      exact ⟨kept, congrArg Answer.closed same⟩
  | release key fingerprint =>
      obtain ⟨kept, same⟩ := RedisStore.release_refines (s := s) shows key fingerprint
      exact ⟨kept, congrArg Answer.closed same⟩

/-- Over any history of calls, as long as both durations count at least a millisecond, the
store answers like a keyspace of entries that only disappear. -/
theorem store_refines (lock : 1000000 ≤ s.lockTTL) (result : 1000000 ≤ s.resultTTL)
    (shows : server.Shows now space) {history : List (Int × Call)}
    (ordered : (now :: history.map Prod.fst).Pairwise (· ≤ ·)) :
    Fading space (history.map Prod.snd) (s.answers server history) := by
  induction history generalizing server now space with
  | nil => exact .nil space
  | cons entry history ih =>
      obtain ⟨time, call⟩ := entry
      obtain ⟨after, rest⟩ := List.pairwise_cons.mp ordered
      obtain ⟨left, fades, visible⟩ := shows_later shows (after time List.mem_cons_self)
      obtain ⟨kept, same⟩ := perform_refines lock result visible call
      rw [RedisStore.answers, same]
      exact .cons fades (ih kept rest)

end Histories

/-- The settings without an environment: thirty seconds for a reservation, a day for a result. -/
def defaultStore : RedisStore := ⟨30000000000, 86400000000000⟩

/-- A reservation that is not completed in time, and one that is. -/
def sampleHistory : List (Int × Call) :=
  [(0, .begin "k" "f"), (1000, .begin "k" "f"), (30000, .begin "k" "f"),
    (31000, .complete "k" "f" (utf8 "r")), (32000, .begin "k" "f")]

theorem store_refines_sample : defaultStore.answers (fun _ => none) sampleHistory =
      [.begun (.ok .acquired), .begun (.ok .pending), .begun (.ok .acquired), .closed none,
      .begun (.ok (.completed (utf8 "r")))] ∧
    Fading (fun _ => none) (sampleHistory.map Prod.snd)
      (defaultStore.answers (fun _ => none) sampleHistory) := by
  have empty : Server.Shows (fun _ => none) 0 fun _ => none := fun _ => rfl
  exact ⟨rfl, store_refines (by decide) (by decide) empty (by decide)⟩

end ModelGate.Idempotency.Expiry
