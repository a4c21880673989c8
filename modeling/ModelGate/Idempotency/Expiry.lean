import ModelGate.Config.Values
import ModelGate.Idempotency.Redis

/-! The idempotency store over a keyspace whose keys expire.

A key may hold anything before a script reads it: a hash with some of the
fields, or a value of another type. `PEXPIRE` keeps a key for a positive number
of milliseconds and deletes it at once for any other.
-/

set_option autoImplicit false

namespace ModelGate.Idempotency.Expiry

open Data

/-- What a key holds. The commands of the scripts fail on anything but a hash. -/
inductive Value where
  | hash (fields : String → Option Bytes)
  | other

structure Slot where
  value : Value
  deadline : Option Int

abbrev Server := String → Option Slot

/-- A key is gone from its deadline on. -/
def live (now : Int) (slot : Option Slot) : Option Slot :=
  slot.filter fun slot => slot.deadline.all fun deadline => decide (now < deadline)

def wrongType : Err := .text "WRONGTYPE Operation against a key holding the wrong kind of value"

def HMGET : Option Slot → Except Err (String → Option Bytes)
  | none => .ok fun _ => none
  | some ⟨.hash fields, _⟩ => .ok fields
  | some ⟨.other, _⟩ => .error wrongType

def write (fields : String → Option Bytes) (writes : List (String × Bytes)) :
    String → Option Bytes :=
  writes.foldl (fun fields (name, value) => Function.update fields name (some value)) fields

/-- `HSET` creates a key without a deadline and keeps the other fields and the deadline of
one that exists. -/
def HSET (writes : List (String × Bytes)) : Option Slot → Except Err Slot
  | none => .ok ⟨.hash (write (fun _ => none) writes), none⟩
  | some ⟨.hash fields, deadline⟩ => .ok ⟨.hash (write fields writes), deadline⟩
  | some ⟨.other, _⟩ => .error wrongType

def PEXPIRE (now milliseconds : Int) (slot : Slot) : Option Slot :=
  if 0 < milliseconds then some { slot with deadline := some (now + milliseconds) } else none

inductive Reply where
  | array (values : List Bytes)
  | integer (value : Int)

def beginScript (now : Int) (fingerprint : Bytes) (milliseconds : Int) (slot : Option Slot) :
    Except Err (Option Slot × Reply) := do
  let current ← HMGET slot
  match current "fingerprint" with
  | none =>
      let created ← HSET [("fingerprint", fingerprint), ("state", utf8 "pending")] slot
      pure (PEXPIRE now milliseconds created, .array [utf8 "acquired"])
  | some stored =>
      if stored ≠ fingerprint then pure (slot, .array [utf8 "conflict"])
      else if current "state" = some (utf8 "completed") then
        pure (slot, .array [utf8 "completed", (current "response").getD []])
      else pure (slot, .array [utf8 "pending"])

def completeScript (now : Int) (fingerprint response : Bytes) (milliseconds : Int)
    (slot : Option Slot) :
    Except Err (Option Slot × Reply) := do
  let current ← HMGET slot
  if current "fingerprint" ≠ some fingerprint ∨ current "state" ≠ some (utf8 "pending") then
    pure (slot, .integer 0)
  else
    let updated ← HSET [("state", utf8 "completed"), ("response", response)] slot
    pure (PEXPIRE now milliseconds updated, .integer 1)

/-- `DEL` counts the key it deleted. -/
def releaseScript (fingerprint : Bytes) (slot : Option Slot) :
    Except Err (Option Slot × Reply) := do
  let current ← HMGET slot
  if current "fingerprint" = some fingerprint ∧ current "state" = some (utf8 "pending") then
    pure (none, .integer 1)
  else pure (slot, .integer 0)

/-- One evaluation of a script on a key. Every script reads before it writes, so one that
fails changes nothing. -/
def Eval (server : Server) (now : Int) (key : String)
    (script : Option Slot → Except Err (Option Slot × Reply)) : Server × Except Err Reply :=
  match script (live now (server key)) with
  | .error err => (server, .error err)
  | .ok (slot, reply) => (Function.update server key slot, .ok reply)

/-- `Duration.Milliseconds` truncates. -/
def Milliseconds (duration : Int) : Int := duration.tdiv 1000000

structure RedisStore where
  lockTTL : Int
  resultTTL : Int

/-- The evaluator is nil or there. -/
def NewRedisStore (evaluator : Bool) (lockTTL resultTTL : Int) : Except String RedisStore :=
  if evaluator = false then .error "idempotency evaluator is required"
  else if lockTTL ≤ 0 ∨ resultTTL ≤ 0 then .error "idempotency TTLs must be positive"
  else .ok ⟨lockTTL, resultTTL⟩

def parsed : Reply → Except Err Result
  | .integer _ => .error (.text "idempotency begin returned an invalid result")
  | .array [] => .error (.text "idempotency begin returned an invalid result")
  | .array (status :: values) =>
      if status = utf8 "acquired" then .ok .acquired
      else if status = utf8 "pending" then .ok .pending
      else if status = utf8 "conflict" then .ok .conflict
      else if status = utf8 "completed" then
        match values with
        | [response] => .ok (.completed response)
        | _ => .error (.text "completed idempotency result is missing its response")
      else .error (.text "idempotency begin returned unknown status")

namespace RedisStore

def Begin (s : RedisStore) (server : Server) (now : Int) (key fingerprint : String) :
    Server × Except Err Result :=
  match Eval server now (redisKey key)
    (beginScript now (utf8 fingerprint) (Milliseconds s.lockTTL)) with
  | (server, .error err) => (server, .error (.wrap "begin idempotency request" err))
  | (server, .ok reply) => (server, parsed reply)

/-- The reply is the error of `Complete`. -/
def Complete (s : RedisStore) (server : Server) (now : Int) (key fingerprint : String)
    (response : Bytes) : Server × Option Err :=
  match Eval server now (redisKey key)
      (completeScript now (utf8 fingerprint) response (Milliseconds s.resultTTL)) with
  | (server, .error err) => (server, some (.wrap "complete idempotency request" err))
  | (server, .ok (.integer 1)) => (server, none)
  | (server, .ok _) => (server, some (.text "idempotency request is no longer pending"))

def Release (_ : RedisStore) (server : Server) (now : Int) (key fingerprint : String) :
    Server × Option Err :=
  match Eval server now (redisKey key) (releaseScript (utf8 fingerprint)) with
  | (server, .error err) => (server, some (.wrap "release idempotency request" err))
  | (server, .ok _) => (server, none)

/-- Right after a reservation the key is pending for its fingerprint and taken for any other. -/
def KeepsReservations (s : RedisStore) : Prop :=
  ∀ server now key fingerprint reserved, s.Begin server now key fingerprint =
      (reserved, .ok .acquired) →
    ∀ other, (s.Begin reserved now key other).2 = .ok (if other = fingerprint then .pending
      else .conflict)

/-- Right after a completion its bytes are replayed. -/
def KeepsResults (s : RedisStore) : Prop :=
  ∀ server now key fingerprint response completed,
    s.Complete server now key fingerprint response = (completed, none) →
    (s.Begin completed now key fingerprint).2 = .ok (.completed response)

end RedisStore

theorem milliseconds_pos_iff (duration : Int) : 0 < Milliseconds duration ↔ 1000000 ≤ duration := by
  rw [Milliseconds, Int.tdiv_eq_ediv]
  split
  · omega
  · rw [Int.sign_eq_one_of_pos (by decide)]
    omega

theorem live_PEXPIRE {now milliseconds : Int} (positive : 0 < milliseconds) (slot : Slot) :
    live now (PEXPIRE now milliseconds slot) =
      some { slot with deadline := some (now + milliseconds) } := by
  simp [live, PEXPIRE, positive]

/-- A key that can be read can be written: it then holds the old fields and the written ones. -/
theorem HSET_of_HMGET {slot : Option Slot} {fields : String → Option Bytes}
    (read : HMGET slot = .ok fields) (writes : List (String × Bytes)) :
    ∃ deadline, HSET writes slot = .ok ⟨.hash (write fields writes), deadline⟩ := by
  match slot, read with
  | none, rfl => exact ⟨_, rfl⟩
  | some ⟨.hash _, deadline⟩, rfl => exact ⟨_, rfl⟩

def reserved (fields : String → Option Bytes) (fingerprint : Bytes) : String → Option Bytes :=
  write fields [("fingerprint", fingerprint), ("state", utf8 "pending")]

def completed (fields : String → Option Bytes) (response : Bytes) : String → Option Bytes :=
  write fields [("state", utf8 "completed"), ("response", response)]

section Scripts

variable (now milliseconds : Int) (fingerprint : Bytes) {slot : Option Slot}
  {fields : String → Option Bytes}

theorem beginScript_free (read : HMGET slot = .ok fields) (free : fields "fingerprint" = none) :
    ∃ deadline, beginScript now fingerprint milliseconds slot =
      .ok (PEXPIRE now milliseconds ⟨.hash (reserved fields fingerprint), deadline⟩,
      .array [utf8 "acquired"]) := by
  obtain ⟨deadline, written⟩ :=
    HSET_of_HMGET read [("fingerprint", fingerprint), ("state", utf8 "pending")]
  refine ⟨deadline, ?_⟩
  simp only [beginScript, bind, Except.bind, pure, Except.pure, read, free, written, reserved]

theorem beginScript_taken {stored : Bytes} (read : HMGET slot = .ok fields)
    (taken : fields "fingerprint" = some stored) :
    beginScript now fingerprint milliseconds slot = .ok (slot,
      if stored ≠ fingerprint then .array [utf8 "conflict"]
      else if fields "state" = some (utf8 "completed") then
      .array [utf8 "completed", (fields "response").getD []]
      else .array [utf8 "pending"]) := by
  simp only [beginScript, bind, Except.bind, pure, Except.pure, read, taken]
  split_ifs <;> rfl

theorem completeScript_reserved (response : Bytes) (read : HMGET slot = .ok fields)
    (mine : fields "fingerprint" = some fingerprint)
    (pending : fields "state" = some (utf8 "pending")) :
    ∃ deadline, completeScript now fingerprint response milliseconds slot =
      .ok (PEXPIRE now milliseconds ⟨.hash (completed fields response), deadline⟩, .integer 1) := by
  obtain ⟨deadline, written⟩ :=
    HSET_of_HMGET read [("state", utf8 "completed"), ("response", response)]
  refine ⟨deadline, ?_⟩
  simp only [completeScript, bind, Except.bind, pure, Except.pure, read, mine, pending, written,
    completed, ne_eq, not_true_eq_false, or_self, if_false]

theorem completeScript_refused (response : Bytes) (read : HMGET slot = .ok fields)
    (refused : fields "fingerprint" ≠ some fingerprint ∨ fields "state" ≠ some (utf8 "pending")) :
    completeScript now fingerprint response milliseconds slot = .ok (slot, .integer 0) := by
  simp only [completeScript, bind, Except.bind, pure, Except.pure, read, if_pos refused]

theorem releaseScript_read {fingerprint : Bytes} (read : HMGET slot = .ok fields) :
    releaseScript fingerprint slot = .ok (
      if fields "fingerprint" = some fingerprint ∧ fields "state" = some (utf8 "pending") then
      (none, .integer 1)
      else (slot, .integer 0)) := by
  simp only [releaseScript, bind, Except.bind, pure, Except.pure, read]
  split_ifs <;> rfl

theorem completeScript_ok {now milliseconds : Int} {fingerprint response : Bytes}
    {next : Option Slot}
    (done : completeScript now fingerprint response milliseconds slot = .ok (next, .integer 1)) :
    ∃ fields, HMGET slot = .ok fields ∧ fields "fingerprint" = some fingerprint ∧
    fields "state" = some (utf8 "pending") := by
  cases read : HMGET slot with
  | error err => simp [completeScript, bind, Except.bind, read] at done
  | ok fields =>
      refine ⟨fields, rfl, ?_⟩
      simp only [completeScript, bind, Except.bind, pure, Except.pure, read] at done
      split at done
      · simp at done
      · rename_i test
        simpa only [not_or, not_not, ne_eq] using test

end Scripts

/-! Reading a key right after a script has written it -/

namespace RedisStore

variable {s : RedisStore} {server : Server} {now : Int} {key : String}
  {fields : String → Option Bytes}

theorem begin_of_taken {stored : Bytes} (read : HMGET (live now (server (redisKey key))) =
      .ok fields)
    (taken : fields "fingerprint" = some stored) (fingerprint : String) :
    (s.Begin server now key fingerprint).2 = .ok (if stored ≠ utf8 fingerprint then .conflict
      else if fields "state" = some (utf8 "completed") then .completed ((fields "response").getD [])
      else .pending) := by
  rw [Begin, Eval, beginScript_taken now _ _ read taken]
  dsimp only
  split_ifs <;> rfl

theorem begin_of_free (read : HMGET (live now (server (redisKey key))) = .ok fields)
    (free : fields "fingerprint" = none) (fingerprint : String) :
    ∃ deadline, s.Begin server now key fingerprint =
      (Function.update server (redisKey key)
        (PEXPIRE now (Milliseconds s.lockTTL) ⟨.hash (reserved fields (utf8 fingerprint)),
        deadline⟩), .ok .acquired) := by
  obtain ⟨deadline, script⟩ :=
    beginScript_free now (Milliseconds s.lockTTL) (utf8 fingerprint) read free
  refine ⟨deadline, ?_⟩
  rw [Begin, Eval, script]
  rfl

theorem free_of_acquired {fingerprint : String}
    (acquired : (s.Begin server now key fingerprint).2 = .ok .acquired) :
    ∃ fields, HMGET (live now (server (redisKey key))) = .ok fields ∧
    fields "fingerprint" = none := by
  cases read : HMGET (live now (server (redisKey key))) with
  | error err => simp [Begin, Eval, beginScript, bind, Except.bind, read] at acquired
  | ok fields =>
      refine ⟨fields, rfl, ?_⟩
      cases taken : fields "fingerprint" with
      | none => rfl
      | some stored =>
          rw [begin_of_taken read taken] at acquired
          split_ifs at acquired <;> cases acquired

theorem complete_of_reserved {fingerprint : String} (response : Bytes)
    (read : HMGET (live now (server (redisKey key))) = .ok fields)
    (mine : fields "fingerprint" = some (utf8 fingerprint))
    (pending : fields "state" = some (utf8 "pending")) :
    ∃ deadline, s.Complete server now key fingerprint response =
      (Function.update server (redisKey key)
        (PEXPIRE now (Milliseconds s.resultTTL) ⟨.hash (completed fields response), deadline⟩),
      none) := by
  obtain ⟨deadline, script⟩ :=
    completeScript_reserved now (Milliseconds s.resultTTL) _ response read mine pending
  refine ⟨deadline, ?_⟩
  rw [Complete, Eval, script]
  rfl

theorem reserved_of_complete {fingerprint : String} {response : Bytes}
    (done : (s.Complete server now key fingerprint response).2 = none) :
    ∃ fields, HMGET (live now (server (redisKey key))) = .ok fields ∧
      fields "fingerprint" = some (utf8 fingerprint) ∧ fields "state" = some (utf8 "pending") := by
  unfold Complete Eval at done
  split at done
  · cases done
  · rename_i script
    split at script
    · cases script
    · rename_i evaluated
      cases script
      exact completeScript_ok evaluated
  · cases done

theorem keepsReservations_of_lock (lock : 1000000 ≤ s.lockTTL) : s.KeepsReservations := by
  intro server now key fingerprint next acquired other
  obtain ⟨fields, read, free⟩ := free_of_acquired (congrArg Prod.snd acquired)
  obtain ⟨deadline, begun⟩ := begin_of_free (s := s) read free fingerprint
  obtain rfl := congrArg Prod.fst (acquired.symm.trans begun)
  have kept : HMGET
      (live now (Function.update server (redisKey key)
          (PEXPIRE now (Milliseconds s.lockTTL) ⟨.hash (reserved fields (utf8 fingerprint)),
          deadline⟩) (redisKey key))) = .ok (reserved fields (utf8 fingerprint)) := by
    rw [Function.update_self, live_PEXPIRE ((milliseconds_pos_iff _).mpr lock)]
    rfl
  have stored : reserved fields (utf8 fingerprint) "fingerprint" = some (utf8 fingerprint) := by
    simp [reserved, write]
  have pending : reserved fields (utf8 fingerprint) "state" ≠ some (utf8 "completed") := by
    simp only [reserved, write, List.foldl_cons, List.foldl_nil, Function.update_self]
    decide
  rw [begin_of_taken kept stored, if_neg pending]
  by_cases same : other = fingerprint
  · rw [same, if_neg (not_not.mpr rfl), if_pos rfl]
  · rw [if_pos (fun equal => same (utf8_inj equal).symm), if_neg same]

theorem keepsResults_of_result (result : 1000000 ≤ s.resultTTL) : s.KeepsResults := by
  intro server now key fingerprint response next done
  obtain ⟨fields, read, mine, pending⟩ := reserved_of_complete (congrArg Prod.snd done)
  obtain ⟨deadline, written⟩ := complete_of_reserved (s := s) response read mine pending
  obtain rfl := congrArg Prod.fst (done.symm.trans written)
  have kept : HMGET
      (live now (Function.update server (redisKey key)
          (PEXPIRE now (Milliseconds s.resultTTL) ⟨.hash (completed fields response), deadline⟩)
          (redisKey key))) = .ok (completed fields response) := by
    rw [Function.update_self, live_PEXPIRE ((milliseconds_pos_iff _).mpr result)]
    rfl
  have stored : completed fields response "fingerprint" = some (utf8 fingerprint) := by
    simp [completed, write, mine]
  have state : completed fields response "state" = some (utf8 "completed") := by
    simp [completed, write]
  have bytes : completed fields response "response" = some response := by
    simp [completed, write]
  rw [begin_of_taken kept stored, if_neg (not_not.mpr rfl), if_pos state, bytes]
  rfl

/-- A shorter lock is truncated to zero: the reservation is deleted as it is made. -/
theorem lock_of_keepsReservations (keeps : s.KeepsReservations) : 1000000 ≤ s.lockTTL := by
  by_contra short
  have deleted : ¬ 0 < Milliseconds s.lockTTL := mt (milliseconds_pos_iff _).mp short
  have acquires (server : Server) (gone : server (redisKey "key") = none) :
      s.Begin server 0 "key" "print" =
      (Function.update server (redisKey "key") none, .ok .acquired) := by
    have read : HMGET (live 0 (server (redisKey "key"))) = .ok fun _ => none := by rw [gone]; rfl
    obtain ⟨deadline, begun⟩ := begin_of_free (s := s) read rfl "print"
    rwa [PEXPIRE, if_neg deleted] at begun
  have again := keeps (fun _ => none) 0 "key" "print" _ (acquires _ rfl) "print"
  rw [acquires _ (Function.update_self ..)] at again
  cases again

/-- A shorter result is deleted as it is stored. -/
theorem result_of_keepsResults (keeps : s.KeepsResults) : 1000000 ≤ s.resultTTL := by
  by_contra short
  have deleted : ¬ 0 < Milliseconds s.resultTTL := mt (milliseconds_pos_iff _).mp short
  let server : Server := fun _ => some ⟨.hash (reserved (fun _ => none) (utf8 "print")), none⟩
  have read : HMGET (live 0 (server (redisKey "key"))) =
    .ok (reserved (fun _ => none) (utf8 "print")) := rfl
  obtain ⟨deadline, done⟩ := complete_of_reserved (s := s) [] read rfl rfl
  rw [PEXPIRE, if_neg deleted] at done
  have replayed := keeps server 0 "key" "print" [] _ done
  have gone : HMGET (live 0 (Function.update server (redisKey "key") none (redisKey "key"))) =
      .ok fun _ => none := by
    rw [Function.update_self]
    rfl
  obtain ⟨_, begun⟩ := begin_of_free (s := s) gone rfl "print"
  rw [begun] at replayed
  cases replayed

end RedisStore

/-- Fresh reservations and results are there to be read exactly when both are kept for a
millisecond or more. -/
theorem fresh_entries_kept_iff (s : RedisStore) :
    s.KeepsReservations ∧ s.KeepsResults ↔ 1000000 ≤ s.lockTTL ∧ 1000000 ≤ s.resultTTL := by
  constructor
  · rintro ⟨reservations, results⟩
    exact ⟨RedisStore.lock_of_keepsReservations reservations,
      RedisStore.result_of_keepsResults results⟩
  · rintro ⟨lock, result⟩
    exact ⟨RedisStore.keepsReservations_of_lock lock, RedisStore.keepsResults_of_result result⟩

/-! The keyspace of entries, as what a server shows

A server that only the scripts have written shows entries. As long as both
durations count at least a millisecond, its operations are those of the
keyspace of entries.
-/

def EntryState.text : EntryState → Bytes
  | .pending => utf8 "pending"
  | .completed => utf8 "completed"

/-- What a key shows at a moment. -/
def Shows (now : Int) (slot : Option Slot) : Option Entry → Prop
  | none => live now slot = none
  | some entry => ∃ fields deadline, live now slot = some ⟨.hash fields, deadline⟩ ∧
      fields "fingerprint" = some (utf8 entry.fingerprint) ∧
        fields "state" = some (EntryState.text entry.state) ∧
      fields "response" = entry.response

def Server.Shows (server : Server) (now : Int) (space : Keyspace) : Prop :=
  ∀ location, Expiry.Shows now (server location) (space location)

theorem shows_update {server : Server} {now : Int} {space : Keyspace}
    (shows : server.Shows now space) (key : String) {slot : Option Slot} {entry : Option Entry}
    (written : Shows now slot entry) :
    Server.Shows (Function.update server key slot) now (space.set key entry) := by
  intro location
  by_cases same : location = key
  · subst same
    rw [Keyspace.set, Function.update_self, Function.update_self]
    exact written
  · rw [Keyspace.set, Function.update_of_ne same, Function.update_of_ne same]
    exact shows location

theorem live_live (now : Int) (slot : Option Slot) : live now (live now slot) = live now slot := by
  simp [live, Option.filter_filter]

theorem shows_live {now : Int} {slot : Option Slot} {entry : Option Entry}
    (shows : Shows now slot entry) : Shows now (live now slot) entry := by
  cases entry with
  | none => exact (live_live now slot).trans shows
  | some entry =>
      obtain ⟨fields, deadline, present, rest⟩ := shows
      exact ⟨fields, deadline, (live_live now slot).trans present, rest⟩

theorem read_of_shows_none {now : Int} {slot : Option Slot} (shows : Shows now slot none) :
    HMGET (live now slot) = .ok fun _ => none := by
  rw [show live now slot = none from shows]
  rfl

theorem read_of_shows {now : Int} {slot : Option Slot} {entry : Entry}
    (shows : Shows now slot (some entry)) :
    ∃ fields, HMGET (live now slot) = .ok fields ∧
    fields "fingerprint" = some (utf8 entry.fingerprint) ∧
    fields "state" = some (EntryState.text entry.state) ∧ fields "response" = entry.response := by
  obtain ⟨fields, deadline, present, stored⟩ := shows
  rw [present]
  exact ⟨fields, rfl, stored⟩

theorem text_eq_completed_iff (state : EntryState) :
    EntryState.text state = utf8 "completed" ↔ state = .completed := by
  cases state <;> decide

theorem text_eq_pending_iff (state : EntryState) :
    EntryState.text state = utf8 "pending" ↔ state = .pending := by
  cases state <;> decide

theorem utf8_eq_iff (first second : String) : utf8 first = utf8 second ↔ first = second :=
  ⟨utf8_inj, congrArg utf8⟩

namespace RedisStore

variable {s : RedisStore} {server : Server} {now : Int} {space : Keyspace}

theorem begin_refines (lock : 1000000 ≤ s.lockTTL) (shows : server.Shows now space)
    (key fingerprint : String) :
    Server.Shows (s.Begin server now key fingerprint).1 now (space.Begin key fingerprint).1 ∧
    (s.Begin server now key fingerprint).2 = .ok (space.Begin key fingerprint).2 := by
  have here := shows (redisKey key)
  unfold Keyspace.Begin
  cases found : space (redisKey key) with
  | none =>
      rw [found] at here
      have read := read_of_shows_none here
      obtain ⟨deadline, begun⟩ := begin_of_free (s := s) read rfl fingerprint
      rw [begun]
      refine ⟨shows_update shows _ ?_, rfl⟩
      exact ⟨_, _, live_PEXPIRE ((milliseconds_pos_iff _).mpr lock) _, rfl, rfl, rfl⟩
  | some entry =>
      rw [found] at here
      have kept := shows_live here
      obtain ⟨fields, read, stored, state, response⟩ := read_of_shows here
      constructor
      · have answers := (beginScript_some fingerprint entry).1
        have same := shows_update shows (redisKey key) kept
        rw [← answers] at same
        rw [Begin, Eval, beginScript_taken now _ _ read stored]
        exact same
      · rw [begin_of_taken read stored, Idempotency.beginScript, state, response]
        simp only [ne_eq, utf8_eq_iff, Option.some.injEq, text_eq_completed_iff]
        split_ifs <;> rfl

theorem complete_refines (result : 1000000 ≤ s.resultTTL) (shows : server.Shows now space)
    (key fingerprint : String) (response : Bytes) :
    Server.Shows (s.Complete server now key fingerprint response).1 now
      (space.Complete key fingerprint response).1 ∧
    (s.Complete server now key fingerprint response).2 =
      (space.Complete key fingerprint response).2 := by
  have here := shows (redisKey key)
  have kept := shows_live here
  unfold Keyspace.Complete
  cases found : space (redisKey key) with
  | none =>
      rw [found] at here kept
      have read := read_of_shows_none here
      rw [Complete, Eval, completeScript_refused now _ _ response read (.inl (by simp))]
      exact ⟨shows_update shows _ kept, rfl⟩
  | some entry =>
      rw [found] at here kept
      obtain ⟨fields, read, stored, state, -⟩ := read_of_shows here
      by_cases mine : Reserved fingerprint entry
      · rw [Idempotency.completeScript_reserved mine]
        obtain ⟨rfl, pending⟩ := mine
        rw [pending] at state
        obtain ⟨deadline, done⟩ := complete_of_reserved (s := s) response read stored state
        rw [done]
        refine ⟨shows_update shows _ ?_, rfl⟩
        exact ⟨_, _, live_PEXPIRE ((milliseconds_pos_iff _).mpr result)
          _, by simp [completed, write, stored], rfl, rfl⟩
      · have refused : fields "fingerprint" ≠ some (utf8 fingerprint) ∨
            fields "state" ≠ some (utf8 "pending") := by
          rw [stored, state, ne_eq, ne_eq, Option.some.injEq, Option.some.injEq, utf8_eq_iff,
            text_eq_pending_iff]
          exact not_and_or.mp mine
        rw [Complete, Eval, completeScript_refused now _ _ response read refused,
          Idempotency.completeScript, if_pos mine]
        exact ⟨shows_update shows _ kept, rfl⟩

theorem release_refines (shows : server.Shows now space) (key fingerprint : String) :
    Server.Shows (s.Release server now key fingerprint).1 now (space.Release key fingerprint).1 ∧
      (s.Release server now key fingerprint).2 = (space.Release key fingerprint).2 := by
  have here := shows (redisKey key)
  have kept := shows_live here
  unfold Keyspace.Release
  cases found : space (redisKey key) with
  | none =>
      rw [found] at here kept
      have read := read_of_shows_none here
      rw [Release, Eval, releaseScript_read read, if_neg (by simp)]
      exact ⟨shows_update shows _ kept, rfl⟩
  | some entry =>
      rw [found] at here kept
      obtain ⟨fields, read, stored, state, -⟩ := read_of_shows here
      have test : (fields "fingerprint" = some (utf8 fingerprint) ∧
          fields "state" = some (utf8 "pending")) ↔ Reserved fingerprint entry := by
        rw [stored, state, Option.some.injEq, Option.some.injEq, utf8_eq_iff, text_eq_pending_iff]
        rfl
      rw [Release, Eval, releaseScript_read read]
      by_cases mine : Reserved fingerprint entry
      · rw [if_pos (test.mpr mine), releaseScript_reserved mine]
        exact ⟨shows_update shows _ rfl, rfl⟩
      · rw [if_neg (mt test.mp mine), Idempotency.releaseScript, if_neg mine]
        exact ⟨shows_update shows _ kept, rfl⟩

end RedisStore

/-- An environment that sets every duration to one nanosecond. -/
def nanosecond : Config.Source := ⟨fun _ => utf8 "1ns", fun _ => none, fun _ => [], fun _ => some 1⟩

/-- One nanosecond is accepted for both, and the same request is then admitted twice at one
moment. -/
theorem not_fresh_entries_kept : Config.positiveDuration nanosecond "IDEMPOTENCY_LOCK_TTL"
      (utf8 "30s") = .ok 1 ∧
    Config.positiveDuration nanosecond "IDEMPOTENCY_TTL" (utf8 "24h") = .ok 1 ∧
    NewRedisStore true 1 1 = .ok ⟨1, 1⟩ ∧
    ∃ reserved, RedisStore.Begin ⟨1, 1⟩ (fun _ => none) 0 "key" "print" =
      (reserved, .ok .acquired) ∧
    (RedisStore.Begin ⟨1, 1⟩ reserved 0 "key" "print").2 = .ok .acquired :=
  ⟨rfl, rfl, rfl, _, rfl, rfl⟩

end ModelGate.Idempotency.Expiry
