import ModelGate.Api.MappedError
import ModelGate.RateLimit.Histories

/-! What a decision says about the requests that follow it. -/

set_option autoImplicit false

namespace ModelGate.RateLimit

open Data

namespace RedisLimiter

/-- The keys of one identity, with a clock that does not step back. -/
inductive Reached (limiter : RedisLimiter) : Option Key → Prop where
  | fresh : Reached limiter none
  | evaluated {key : Option Key} {evaluation : Evaluation} (before : Reached limiter key)
      (clock : ∀ stored, key = some stored → stored.bucket.timestampMs ≤ evaluation.nowMs)
      (expires : evaluation.dropped = true → ∀ stored, key = some stored →
        stored.deadlineMs ≤ evaluation.nowMs) :
      Reached limiter (some (limiter.evaluate key evaluation).1)

def found (limiter : RedisLimiter) (nowMs : Int) (key : Option Key) : ℚ :=
  TokenBucket.refill limiter.rule nowMs (limiter.stored nowMs key)

section Evaluated

variable (limiter : RedisLimiter) {nowMs : Int} {key : Option Key}

theorem allow_of_enough (enough : 1 ≤ limiter.found nowMs key) :
    (limiter.allow nowMs key).2 = ⟨true, limiter.burst, ⌊limiter.found nowMs key - 1⌋, 0⟩ ∧
      level (limiter.allow nowMs key).1.bucket = ⟨limiter.found nowMs key - 1, nowMs⟩ := by
  constructor
  · unfold found at enough ⊢
    simp only [allow, tokenBucketScript, script_refill, decision]
    rw [if_pos (ge_iff_le.mpr enough)]
    rfl
  · rw [allow_bucket, TokenBucket.draw]
    exact congrArg Prod.snd (if_pos enough)

theorem allow_of_short (short : limiter.found nowMs key < 1) :
    (limiter.allow nowMs key).2 = ⟨false, limiter.burst, ⌊limiter.found nowMs key⌋,
        ⌈(1 - limiter.found nowMs key) / limiter.ratePerMs⌉ * 1000000⟩ ∧
      level (limiter.allow nowMs key).1.bucket = ⟨limiter.found nowMs key, nowMs⟩ := by
  constructor
  · unfold found at short ⊢
    simp only [allow, tokenBucketScript, script_refill, decision]
    rw [if_neg (fun enough => absurd (ge_iff_le.mp enough) (not_le.mpr short))]
    rfl
  · rw [allow_bucket, TokenBucket.draw]
    exact congrArg Prod.snd (if_neg (not_le.mpr short))

theorem allowed_iff : (limiter.allow nowMs key).2.allowed = true ↔ 1 ≤ limiter.found nowMs key := by
  rcases le_or_gt 1 (limiter.found nowMs key) with enough | short
  · rw [(limiter.allow_of_enough enough).1]
    exact iff_of_true rfl enough
  · rw [(limiter.allow_of_short short).1]
    exact iff_of_false Bool.false_ne_true (not_le.mpr short)

end Evaluated

section Later

variable (limiter : RedisLimiter) {key : Key} {nowMs : Int} {tokens : ℚ}
  (stored : level key.bucket = ⟨tokens, nowMs⟩)
include stored

theorem found_later {delay : Int} (later : 0 ≤ delay) :
    limiter.found (nowMs + delay) (some key) =
      min (limiter.burst : ℚ) (tokens + delay * limiter.ratePerMs) := by
  have elapsed : ((nowMs + delay : Int) : ℚ) - nowMs = delay := by
    push_cast
    ring
  have forward : (0 : ℚ) ≤ delay := by exact_mod_cast later
  change TokenBucket.refill limiter.rule _ (level key.bucket) = _
  rw [stored, TokenBucket.refill, elapsed, max_eq_right forward]
  rfl

theorem allowed_later {delay : Int} (later : 0 ≤ delay) :
    (limiter.allow (nowMs + delay) (some key)).2.allowed = true ↔
    ⌈(1 - tokens) / limiter.ratePerMs⌉ ≤ delay := by
  have room : (1 : ℚ) ≤ limiter.burst := by exact_mod_cast limiter.burst_pos
  rw [allowed_iff, limiter.found_later stored later, le_min_iff, Int.ceil_le,
    div_le_iff₀ limiter.ratePerMs_pos]
  constructor
  · rintro ⟨_, enough⟩
    linarith
  · intro enough
    exact ⟨room, by linarith⟩

theorem serve_at_once {count : Nat} (low : (count : ℚ) ≤ tokens) (high : tokens < count + 1)
    (full : tokens ≤ limiter.burst) :
    (limiter.serve (some key) (readings (List.replicate (count + 1) nowMs))).map
      (fun one => one.decision.allowed) = List.replicate count true ++ [false] := by
  -- At the reading that stored the bucket nothing is added to it.
  have here {tokens : ℚ} {key : Key} (stored : level key.bucket = ⟨tokens, nowMs⟩)
      (full : tokens ≤ limiter.burst) : limiter.found nowMs (some key) = tokens := by
    have found := limiter.found_later stored (le_refl 0)
    rw [add_zero, Int.cast_zero, zero_mul, add_zero, min_eq_right full] at found
    exact found
  induction count generalizing key tokens with
  | zero =>
      have short : limiter.found nowMs (some key) < 1 := by
        rw [here stored full]
        simpa using high
      rw [List.replicate_succ, serve_readings, List.map_cons, (limiter.allow_of_short short).1]
      rfl
  | succ count ih =>
      push_cast at low high
      have enough : 1 ≤ limiter.found nowMs (some key) := by
        rw [here stored full]
        linarith [Nat.cast_nonneg (α := ℚ) count]
      obtain ⟨decided, left'⟩ := limiter.allow_of_enough enough
      rw [here stored full] at left'
      rw [List.replicate_succ, serve_readings, List.map_cons, decided,
        ih left' (by linarith) (by linarith) (by linarith), List.replicate_succ, List.cons_append]

end Later

theorem evaluate_stored (limiter : RedisLimiter) {key : Option Key} (evaluation : Evaluation)
    (valid : ∀ stored, key = some stored → limiter.Stored stored) :
    limiter.Stored (limiter.evaluate key evaluation).1 := by
  apply limiter.allow_stored
  intro stored found
  split at found
  · cases found
  · exact valid stored found

theorem Reached.stored {limiter : RedisLimiter} {key : Option Key} (reached : limiter.Reached key) :
    ∀ stored, key = some stored → limiter.Stored stored := by
  induction reached with
  | fresh =>
      intro stored absent
      cases absent
  | evaluated _ _ _ ih =>
      intro stored found
      obtain rfl := Option.some.inj found
      exact limiter.evaluate_stored _ ih

theorem found_nonneg (limiter : RedisLimiter) {nowMs : Int} {key : Option Key}
    (valid : ∀ stored, key = some stored → limiter.Stored stored) :
    0 ≤ limiter.found nowMs key := by
  apply TokenBucket.refill_nonneg
  cases key with
  | none => exact limiter.rule.capacity_nonneg
  | some key => exact (valid key rfl).within.1

theorem retryMs_bounds (limiter : RedisLimiter) {tokens : ℚ} (nonneg : 0 ≤ tokens)
    (short : tokens < 1) :
    1 ≤ ⌈(1 - tokens) / limiter.ratePerMs⌉ ∧ ⌈(1 - tokens) / limiter.ratePerMs⌉ ≤ 60000 := by
  constructor
  · exact Int.one_le_ceil_iff.mpr (div_pos (sub_pos.mpr short) limiter.ratePerMs_pos)
  · have least : (1 : ℚ) ≤ limiter.rpm := by exact_mod_cast limiter.rpm_pos
    rw [Int.ceil_le, div_le_iff₀ limiter.ratePerMs_pos, ratePerMs]
    push_cast
    linarith

/-- What one evaluation tells its caller about the next ones. -/
structure Forecast (limiter : RedisLimiter) (nowMs : Int) (next : Key) (decision : Decision) :
    Prop where
  /-- As many further calls at the same time are allowed, and no more. -/
  remaining : decision.allowed = true → 0 ≤ decision.remaining ∧ ∀ {later : List Evaluation},
    (∀ one ∈ later, one.nowMs = nowMs) → limiter.ExpiresInTime (some next) later →
    (later.length : Int) = decision.remaining + 1 →
    (limiter.serve (some next) later).map (fun one => one.decision.allowed) =
      List.replicate decision.remaining.toNat true ++ [false]
  /-- The wait is the least one after which a lone call is allowed, and the
  header is that wait in seconds, rounded up. -/
  retryAfter : decision.allowed = false → ∃ retryMs seconds :
    Int, decision.retryAfter = retryMs * 1000000 ∧ 1 ≤ retryMs ∧
    (∀ delay dropped, 0 ≤ delay → (dropped = true → next.deadlineMs ≤ nowMs + delay) →
      ((limiter.evaluate (some next) ⟨nowMs + delay, dropped⟩).2.allowed = true ↔
        retryMs ≤ delay)) ∧
    ("Retry-After", toString seconds) ∈ (Api.writeMappedError (.rateLimit decision)).headers ∧
    0 < seconds ∧ retryMs ≤ 1000 * seconds ∧
    (∀ other, 0 < other → retryMs ≤ 1000 * other → seconds ≤ other) ∧
    ∀ dropped, (dropped = true → next.deadlineMs ≤ nowMs + 1000 * seconds) →
    (limiter.evaluate (some next) ⟨nowMs + 1000 * seconds, dropped⟩).2.allowed = true

section Forecast

variable (limiter : RedisLimiter) {nowMs : Int} {key : Option Key}
  (valid : ∀ stored, key = some stored → limiter.Stored stored)
include valid

theorem allow_remaining (enough : 1 ≤ limiter.found nowMs key) {later : List Evaluation}
    (same : ∀ one ∈ later, one.nowMs = nowMs)
    (expires : limiter.ExpiresInTime (some (limiter.allow nowMs key).1) later)
    (length : (later.length : Int) = ⌊limiter.found nowMs key - 1⌋ + 1) :
    (limiter.serve (some (limiter.allow nowMs key).1) later).map (fun one => one.decision.allowed) =
      List.replicate ⌊limiter.found nowMs key - 1⌋.toNat true ++ [false] := by
  obtain ⟨count, whole⟩ : ∃ count : Nat, ⌊limiter.found nowMs key - 1⌋ = count :=
    Int.eq_ofNat_of_zero_le (Int.floor_nonneg.mpr (sub_nonneg.mpr enough))
  obtain ⟨low, high⟩ := Int.floor_eq_iff.mp whole
  have times : later.map Evaluation.nowMs = List.replicate (count + 1) nowMs := by
    rw [List.eq_replicate_iff, List.length_map]
    refine ⟨by omega, fun time member => ?_⟩
    obtain ⟨one, inside, rfl⟩ := List.mem_map.mp member
    exact same one inside
  have stored (other : Key) (found : some (limiter.allow nowMs key).1 = some other) :
      limiter.Stored other :=
    Option.some.inj found ▸ limiter.allow_stored nowMs valid
  have full : limiter.found nowMs key ≤ limiter.burst :=
    TokenBucket.refill_le_capacity limiter.rule nowMs _
  rw [limiter.serve_keepKey later stored expires, map_keepKey, times, whole, Int.toNat_natCast]
  exact limiter.serve_at_once (limiter.allow_of_enough enough).2 (by exact_mod_cast low)
    (by exact_mod_cast high) (by linarith)

theorem evaluate_later (short : limiter.found nowMs key < 1) {delay : Int} (later : 0 ≤ delay)
    {dropped : Bool}
    (due : dropped = true → (limiter.allow nowMs key).1.deadlineMs ≤ nowMs + delay) :
    (limiter.evaluate (some (limiter.allow nowMs key).1) ⟨nowMs + delay, dropped⟩).2.allowed =
    true ↔
      ⌈(1 - limiter.found nowMs key) / limiter.ratePerMs⌉ ≤ delay := by
  have stored (other : Key) (found : some (limiter.allow nowMs key).1 = some other) :
      limiter.Stored other :=
    Option.some.inj found ▸ limiter.allow_stored nowMs valid
  rw [limiter.evaluate_keepKey stored fun gone other found => Option.some.inj found ▸ due gone]
  exact limiter.allowed_later (limiter.allow_of_short short).2 later

end Forecast

end RedisLimiter

open RedisLimiter

theorem retryAfter_header (decision : Decision) :
    ("Retry-After", toString (Api.retryAfterSeconds decision.retryAfter)) ∈
      (Api.writeMappedError (.rateLimit decision)).headers :=
  List.mem_append_right _ (List.mem_singleton_self _)

/-- Every decision forecasts exactly. -/
theorem decisions_forecast (limiter : RedisLimiter) {key : Option Key}
    (reached : limiter.Reached key) (evaluation : Evaluation) :
    limiter.Forecast evaluation.nowMs (limiter.evaluate key evaluation).1
      (limiter.evaluate key evaluation).2 := by
  unfold evaluate
  have valid (stored : Key) (found : (if evaluation.dropped then none else key) = some stored) :
      limiter.Stored stored := by
    split at found
    · cases found
    · exact reached.stored stored found
  generalize (if evaluation.dropped then none else key) = read at valid
  rcases le_or_gt 1 (limiter.found evaluation.nowMs read) with enough | short
  · obtain ⟨decided, _⟩ := limiter.allow_of_enough enough
    rw [decided]
    refine ⟨fun _ => ⟨Int.floor_nonneg.mpr (sub_nonneg.mpr enough), ?_⟩, nofun⟩
    exact limiter.allow_remaining valid enough
  · obtain ⟨decided, _⟩ := limiter.allow_of_short short
    obtain ⟨low, high⟩ := limiter.retryMs_bounds (limiter.found_nonneg valid) short
    obtain ⟨positive, covers, least⟩ := Api.retryAfterSeconds_least low high
    have wait := low.trans covers
    rw [decided]
    refine ⟨nofun, fun _ => ⟨_, _, rfl, low, fun delay dropped later due => ?_, retryAfter_header _,
      positive, covers, least, fun dropped due => ?_⟩⟩
    · exact limiter.evaluate_later valid short later due
    · exact (limiter.evaluate_later valid short (zero_le_one.trans wait) due).mpr covers

/-- One request a second with a burst of two, served twice at once. -/
theorem decisions_forecast_twice :
    let limiter : RedisLimiter := ⟨60, 2, by decide, by decide⟩
    let first := limiter.evaluate none ⟨0, false⟩
    first.2 = ⟨true, 2, 1, 0⟩ ∧ limiter.Forecast 0 (limiter.evaluate (some first.1) ⟨0, false⟩).1
      (limiter.evaluate (some first.1) ⟨0, false⟩).2 := by
  intro limiter first
  refine ⟨by decide +kernel, ?_⟩
  have reached : limiter.Reached (some first.1) :=
    .evaluated .fresh (fun _ absent => by cases absent) (fun _ _ absent => by cases absent)
  exact decisions_forecast limiter reached ⟨0, false⟩

end ModelGate.RateLimit
