import ModelGate.Data.Text
import ModelGate.Errors

/-! The Redis idempotency store of `internal/idempotency`.

Each Lua script is one atomic evaluation of the hash under a key. The reply
types are those the scripts return; `RedisStore` turns them into results.
-/

set_option autoImplicit false

namespace ModelGate.Idempotency

open Data

inductive EntryState where | pending | completed
  deriving DecidableEq, Repr

/-- The hash of one key. Only the scripts write it, so `fingerprint` and
`state` are always set together. -/
structure Entry where
  fingerprint : String
  state : EntryState
  response : Option Bytes
  deriving DecidableEq

inductive Result where
  | acquired
  | pending
  | conflict
  | completed (response : Bytes)
  deriving DecidableEq

/-- A completed hash without a response replies with the empty string. -/
def beginScript (fingerprint : String) (current : Option Entry) : Option Entry × Result :=
  match current with
  | none => (some ⟨fingerprint, .pending, none⟩, .acquired)
  | some entry =>
      if entry.fingerprint ≠ fingerprint then (current, .conflict)
      else if entry.state = .completed then (current, .completed (entry.response.getD []))
      else (current, .pending)

/-- On a present hash the script only answers. -/
theorem beginScript_some (fingerprint : String) (entry : Entry) :
    (beginScript fingerprint (some entry)).1 = some entry ∧
    ((entry.fingerprint ≠ fingerprint ∧ (beginScript fingerprint (some entry)).2 = .conflict) ∨
    (entry.fingerprint = fingerprint ∧ entry.state = .completed ∧
      (beginScript fingerprint (some entry)).2 = .completed (entry.response.getD [])) ∨
    (entry.fingerprint = fingerprint ∧ entry.state = .pending ∧
      (beginScript fingerprint (some entry)).2 = .pending)) := by
  by_cases other : entry.fingerprint ≠ fingerprint
  · simp [beginScript, other]
  · cases state : entry.state <;> simp_all [beginScript]

/-- The test both closing scripts make. -/
def Reserved (fingerprint : String) (entry : Entry) : Prop :=
  entry.fingerprint = fingerprint ∧ entry.state = .pending

instance (fingerprint : String) (entry : Entry) : Decidable (Reserved fingerprint entry) :=
  inferInstanceAs (Decidable (_ ∧ _))

def completeScript (fingerprint : String) (response : Bytes) (current : Option Entry) :
    Option Entry × Int :=
  match current with
  | none => (none, 0)
  | some entry =>
      if ¬ Reserved fingerprint entry then (current, 0)
      else (some { entry with state := .completed, response := some response }, 1)

def releaseScript (fingerprint : String) (current : Option Entry) : Option Entry × Int :=
  match current with
  | none => (none, 0)
  | some entry => if Reserved fingerprint entry then (none, 1) else (current, 0)

theorem completeScript_reserved {fingerprint : String} {entry : Entry}
    (reserved : Reserved fingerprint entry) (response : Bytes) :
    completeScript fingerprint response (some entry) =
      (some ⟨fingerprint, .completed, some response⟩, 1) := by
  obtain ⟨rfl, pending⟩ := reserved
  simp [completeScript, Reserved, pending]

theorem completeScript_unreserved {fingerprint : String} {current : Option Entry}
    (unreserved : ∀ entry, current = some entry → ¬ Reserved fingerprint entry) (response : Bytes) :
    (completeScript fingerprint response current).1 = current := by
  cases current with
  | none => rfl
  | some entry => simp [completeScript, unreserved entry rfl]

theorem releaseScript_unreserved {fingerprint : String} {current : Option Entry}
    (unreserved : ∀ entry, current = some entry → ¬ Reserved fingerprint entry) :
    (releaseScript fingerprint current).1 = current := by
  cases current with
  | none => rfl
  | some entry => simp [releaseScript, unreserved entry rfl]

theorem releaseScript_reserved {fingerprint : String} {entry : Entry}
    (reserved : Reserved fingerprint entry) : releaseScript fingerprint (some entry) = (none, 1) :=
  if_pos reserved

/-- `ScopedKey` up to the digest. -/
def scopeInput (identity : Bytes) (idempotencyKey : String) : Bytes :=
  identity ++ 0 :: utf8 idempotencyKey

def ScopedKey (sha256 : Bytes → Bytes) (identity : Bytes) (idempotencyKey : String) : String :=
  hexEncode (sha256 (scopeInput identity idempotencyKey))

/-- The keyspace under the prefix `modelgate:idempotency:`. -/
abbrev Keyspace := String → Option Entry

def redisKey (key : String) : String := "modelgate:idempotency:" ++ key

theorem redisKey_inj {first second : String} (same : redisKey first = redisKey second) :
    first = second :=
  (String.append_right_inj _).mp same

namespace Keyspace

def set (space : Keyspace) (key : String) (entry : Option Entry) : Keyspace :=
  Function.update space key entry

def Begin (space : Keyspace) (key fingerprint : String) : Keyspace × Result :=
  let (entry, result) := beginScript fingerprint (space (redisKey key))
  (space.set (redisKey key) entry, result)

/-- The reply is the error of `Complete`. -/
def Complete (space : Keyspace) (key fingerprint : String) (response : Bytes) :
    Keyspace × Option Err :=
  let (entry, updated) := completeScript fingerprint response (space (redisKey key))
  (space.set (redisKey key) entry,
    if updated ≠ 1 then some (.text "idempotency request is no longer pending") else none)

def Release (space : Keyspace) (key fingerprint : String) : Keyspace × Option Err :=
  (space.set (redisKey key) (releaseScript fingerprint (space (redisKey key))).1, none)

section Entry

variable (space : Keyspace) (key fingerprint : String)

theorem begin_entry : (space.Begin key fingerprint).1 (redisKey key) =
    (beginScript fingerprint (space (redisKey key))).1 := Function.update_self ..

theorem begin_result : (space.Begin key fingerprint).2 =
    (beginScript fingerprint (space (redisKey key))).2 :=
  rfl

theorem complete_entry (response : Bytes) :
    (space.Complete key fingerprint response).1 (redisKey key) =
      (completeScript fingerprint response (space (redisKey key))).1 :=
  Function.update_self ..

theorem release_entry : (space.Release key fingerprint).1 (redisKey key) =
    (releaseScript fingerprint (space (redisKey key))).1 := Function.update_self ..

end Entry

section Completed

variable {space : Keyspace} {key fingerprint location : String} {entry : Entry}

theorem set_eq_some {value : Option Entry} (stored : space.set key value location = some entry) :
    (location = key ∧ value = some entry) ∨ space location = some entry := by
  rw [set, Function.update_apply] at stored
  split at stored
  · exact .inl ⟨‹_›, stored⟩
  · exact .inr stored

theorem completed_of_begin (stored : (space.Begin key fingerprint).1 location = some entry)
    (completed : entry.state = .completed) : space location = some entry := by
  rcases set_eq_some stored with ⟨rfl, written⟩ | kept
  · cases current : space (redisKey key) with
    | none =>
        rw [current] at written
        obtain rfl := Option.some.inj written
        cases completed
    | some found =>
        rw [current] at written
        rw [← written]
        exact (beginScript_some fingerprint found).1.symm
  · exact kept

theorem completed_of_release (stored : (space.Release key fingerprint).1 location = some entry) :
    space location = some entry := by
  rcases set_eq_some stored with ⟨rfl, written⟩ | kept
  · unfold releaseScript at written
    split at written
    · cases written
    · split at written
      · cases written
      · exact written
  · exact kept

theorem completed_of_complete {response : Bytes}
    (stored : (space.Complete key fingerprint response).1 location = some entry) :
    space location = some entry ∨ (location = redisKey key ∧ entry.fingerprint = fingerprint ∧
      entry.response = some response) := by
  rcases set_eq_some stored with ⟨rfl, written⟩ | kept
  · split at written
    · cases written
    · split at written
      · exact .inl written
      · rename_i reserved
        obtain rfl := Option.some.inj written
        exact .inr ⟨rfl, (not_not.mp reserved).1, rfl⟩
  · exact .inl kept

theorem begin_completed {response : Bytes}
    (replayed : (space.Begin key fingerprint).2 = .completed response) :
    ∃ entry, space (redisKey key) = some entry ∧ entry.fingerprint = fingerprint ∧
    entry.state = .completed ∧ response = entry.response.getD [] := by
  rw [begin_result] at replayed
  cases current : space (redisKey key) with
  | none =>
      rw [current] at replayed
      cases replayed
  | some entry =>
      rw [current] at replayed
      rcases (beginScript_some fingerprint entry).2 with ⟨_, other⟩ | ⟨same, state, answer⟩ |
        ⟨_, _, other⟩
      · rw [other] at replayed
        cases replayed
      · rw [answer] at replayed
        exact ⟨entry, rfl, same, state, (Result.completed.inj replayed).symm⟩
      · rw [other] at replayed
        cases replayed

end Completed

end Keyspace

end ModelGate.Idempotency
