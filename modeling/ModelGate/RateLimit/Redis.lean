import Mathlib.Algebra.Order.Floor.Defs
import Mathlib.Algebra.Order.Field.Rat
import Mathlib.Data.Rat.Floor
import ModelGate.Data.TokenBucket

/-! The Redis token bucket of `internal/ratelimit`.

The Lua script is one atomic evaluation of a hash with the fields `tokens` and
`timestamp_ms`; it is modelled in exact rational arithmetic, with the
millisecond reading of `TIME` as an argument. A key also carries the deadline
its last PEXPIRE set, from which on Redis may drop it.
-/

set_option autoImplicit false

namespace ModelGate.RateLimit

open Data

structure Bucket where
  tokens : ℚ
  timestampMs : Int
  deriving DecidableEq

structure Reply where
  allowed : Int
  remaining : Int
  retryAfterMs : Int
  deriving DecidableEq

/-- The stored hash, the PEXPIRE argument and the reply of one evaluation. -/
def tokenBucketScript (nowMs : Int) (ratePerMs capacity requested : ℚ) (state : Option Bucket) :
    Bucket × Int × Reply :=
  let tokens := (state.map Bucket.tokens).getD capacity
  let timestampMs := (state.map Bucket.timestampMs).getD nowMs
  let elapsed := max 0 (nowMs - timestampMs)
  let tokens := min capacity (tokens + elapsed * ratePerMs)
  let (tokens, allowed, retryAfterMs) :=
    if tokens ≥ requested then (tokens - requested, 1, 0)
    else (tokens, 0, ⌈(requested - tokens) / ratePerMs⌉)
  let fillTimeMs := ⌈capacity / ratePerMs⌉
  (⟨tokens, nowMs⟩, max 1000 (fillTimeMs * 2), ⟨allowed, ⌊tokens⌋, retryAfterMs⟩)

/-- `RetryAfter` is a Duration in nanoseconds. -/
structure Decision where
  allowed : Bool
  limit : Int
  remaining : Int
  retryAfter : Int
  deriving DecidableEq

structure RedisLimiter where
  rpm : Int
  burst : Int
  rpm_pos : 0 < rpm
  burst_pos : 0 < burst

def NewRedisLimiter (requestsPerMinute burst : Int) : Except String RedisLimiter :=
  if invalid : requestsPerMinute ≤ 0 ∨ burst ≤ 0 then
    .error "rate limiter rpm and burst must be positive"
  else
    .ok ⟨requestsPerMinute, burst, by omega, by omega⟩

namespace RedisLimiter

/-- `float64(rpm) / float64(time.Minute/time.Millisecond)`. -/
def ratePerMs (limiter : RedisLimiter) : ℚ := limiter.rpm / 60000

def decision (limiter : RedisLimiter) (reply : Reply) : Decision :=
  ⟨reply.allowed = 1, limiter.burst, reply.remaining, reply.retryAfterMs * 1000000⟩

structure Key where
  bucket : Bucket
  deadlineMs : Int
  deriving DecidableEq

/-- `Allow` at a clock reading, on the key as Redis holds it. -/
def allow (limiter : RedisLimiter) (nowMs : Int) (key : Option Key) : Key × Decision :=
  let (bucket, ttl, reply) :=
    tokenBucketScript nowMs limiter.ratePerMs limiter.burst 1 (key.map Key.bucket)
  (⟨bucket, nowMs + ttl⟩, limiter.decision reply)

/-- One evaluation of a run. `dropped` says that Redis expired the key before it. -/
structure Evaluation where
  nowMs : Int
  dropped : Bool

structure Served where
  nowMs : Int
  key : Key
  decision : Decision

def evaluate (limiter : RedisLimiter) (key : Option Key) (evaluation : Evaluation) :
    Key × Decision :=
  limiter.allow evaluation.nowMs (if evaluation.dropped then none else key)

def serve (limiter : RedisLimiter) : Option Key → List Evaluation → List Served
  | _, [] => []
  | key, evaluation :: rest =>
      let (next, decision) := limiter.evaluate key evaluation
      ⟨evaluation.nowMs, next, decision⟩ :: limiter.serve (some next) rest

/-- Redis drops a key only at or after the deadline of its last evaluation. -/
def ExpiresInTime (limiter : RedisLimiter) : Option Key → List Evaluation → Prop
  | _, [] => True
  | key, evaluation :: rest =>
      (evaluation.dropped = true → ∀ stored, key = some stored →
          stored.deadlineMs ≤ evaluation.nowMs) ∧
        limiter.ExpiresInTime (some (limiter.evaluate key evaluation).1) rest

def keepKey (evaluation : Evaluation) : Evaluation := { evaluation with dropped := false }

def allowedIn (start finish : ℚ) (served : List Served) : Nat :=
  served.countP fun one => one.decision.allowed && decide (start ≤ one.nowMs) && decide
    ((one.nowMs : ℚ) ≤ finish)

/-! The script as a draw from an abstract bucket -/

theorem ratePerMs_pos (limiter : RedisLimiter) : 0 < limiter.ratePerMs := by
  have positive : (0 : ℚ) < limiter.rpm := by exact_mod_cast limiter.rpm_pos
  unfold ratePerMs
  linarith

def rule (limiter : RedisLimiter) : TokenBucket.Rule ℚ where
  capacity := limiter.burst
  rate := limiter.ratePerMs
  capacity_nonneg := by exact_mod_cast limiter.burst_pos.le
  rate_pos := limiter.ratePerMs_pos

def level (bucket : Bucket) : TokenBucket.Level ℚ := ⟨bucket.tokens, bucket.timestampMs⟩

/-- A missing key reads as a full bucket. -/
def stored (limiter : RedisLimiter) (nowMs : Int) (key : Option Key) : TokenBucket.Level ℚ :=
  match key with
  | none => ⟨limiter.burst, nowMs⟩
  | some key => level key.bucket

def ttl (limiter : RedisLimiter) : Int := max 1000 (⌈(limiter.burst : ℚ) / limiter.ratePerMs⌉ * 2)

theorem script_refill (limiter : RedisLimiter) (nowMs : Int) (key : Option Key) :
    min (limiter.burst : ℚ)
      (((key.map Key.bucket).map Bucket.tokens).getD limiter.burst +
        (max 0 (nowMs - ((key.map Key.bucket).map Bucket.timestampMs).getD nowMs) : Int) *
        limiter.ratePerMs) = TokenBucket.refill limiter.rule nowMs (limiter.stored nowMs key) := by
  cases key with
  | none => simp [TokenBucket.refill, rule, stored]
  | some key => simp [TokenBucket.refill, rule, stored, level]

theorem allow_bucket (limiter : RedisLimiter) (nowMs : Int) (key : Option Key) :
    level (limiter.allow nowMs key).1.bucket =
      (TokenBucket.draw limiter.rule 1 nowMs (limiter.stored nowMs key)).2 := by
  simp only [allow, tokenBucketScript, script_refill, TokenBucket.draw, ge_iff_le]
  split <;> rfl

theorem allow_allowed (limiter : RedisLimiter) (nowMs : Int) (key : Option Key) :
    (limiter.allow nowMs key).2.allowed =
      (TokenBucket.draw limiter.rule 1 nowMs (limiter.stored nowMs key)).1 := by
  simp only [allow, tokenBucketScript, script_refill, TokenBucket.draw, ge_iff_le, decision]
  split <;> rfl

theorem allow_congr (limiter : RedisLimiter) {nowMs : Int} {first second : Option Key}
    (same : TokenBucket.refill limiter.rule nowMs (limiter.stored nowMs first) =
      TokenBucket.refill limiter.rule nowMs (limiter.stored nowMs second)) :
    limiter.allow nowMs first = limiter.allow nowMs second := by
  simp only [allow, tokenBucketScript, script_refill, same]

end RedisLimiter

end ModelGate.RateLimit
