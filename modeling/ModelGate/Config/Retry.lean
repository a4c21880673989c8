import ModelGate.Config.Providers
import ModelGate.Governance.Attempts
import ModelGate.Retry.Delays

/-! The retry settings of `internal/config`, and the policies the server makes of them.

`Load` checks these settings before any other, and what it checks later reads
none of them.
-/

set_option autoImplicit false

namespace ModelGate.Config

open Data Numeric Semantics

structure RetryConfig where
  requestTimeout : Int
  upstreamAttemptTimeout : Int
  retryMaxAttempts : Int
  retryBaseBackoff : Int
  retryMaxBackoff : Int
  deriving DecidableEq

/-- `strconv.Itoa`. -/
def Itoa (value : Int) : Bytes := utf8 (toString value)

def positiveInt (source : Source) (name : String) (fallback : Int) : Except String Int :=
  match Atoi (envOrDefault source name (Itoa fallback)) with
  | none => .error (name ++ " must be a positive integer")
  | some value => if value ≤ 0 then .error (name ++ " must be a positive integer") else .ok value

def refuse (broken : Prop) [Decidable broken] (message : String) : Except String Unit :=
  if broken then .error message else .ok ()

/-- The first checks of `Load`. -/
def loadRetry (source : Source) : Except String RetryConfig := do
  let requestTimeout ← positiveDuration source "REQUEST_TIMEOUT" (utf8 "30s")
  let upstreamAttemptTimeout ← positiveDuration source "UPSTREAM_ATTEMPT_TIMEOUT" (utf8 "10s")
  let retryMaxAttempts ← positiveInt source "UPSTREAM_MAX_ATTEMPTS" 3
  refuse (retryMaxAttempts > 10) "UPSTREAM_MAX_ATTEMPTS must not exceed 10"
  let retryBaseBackoff ← positiveDuration source "RETRY_BASE_BACKOFF" (utf8 "100ms")
  let retryMaxBackoff ← positiveDuration source "RETRY_MAX_BACKOFF" (utf8 "2s")
  refuse (retryMaxBackoff < retryBaseBackoff)
    "RETRY_MAX_BACKOFF must not be below RETRY_BASE_BACKOFF"
  refuse (upstreamAttemptTimeout > requestTimeout)
    "UPSTREAM_ATTEMPT_TIMEOUT must not exceed REQUEST_TIMEOUT"
  return ⟨requestTimeout, upstreamAttemptTimeout, retryMaxAttempts, retryBaseBackoff,
    retryMaxBackoff⟩

/-- The options `buildProviderRouter` gives to `retry.New`, without a `Jitter`. -/
def RetryConfig.retryOptions (cfg : RetryConfig) : Retry.Options :=
  ⟨cfg.retryMaxAttempts, cfg.upstreamAttemptTimeout, cfg.retryBaseBackoff,
    cfg.retryMaxBackoff, false⟩

def RetryConfig.policy (cfg : RetryConfig) : Retry.Policy := ⟨cfg.retryOptions⟩

/-- A `time.Duration` has 64 bits. -/
def Source.Representable (source : Source) : Prop :=
  ∀ text value, source.ParseDuration text = some value → value ≤ 2 ^ 63 - 1

structure RetryConfig.Valid (cfg : RetryConfig) : Prop where
  timeout : 0 < cfg.upstreamAttemptTimeout
  attempts : 0 < cfg.retryMaxAttempts
  few : cfg.retryMaxAttempts ≤ 10
  durations : cfg.retryOptions.Durations

theorem positiveInt_ok {source : Source} {name : String} {fallback value : Int}
    (loaded : positiveInt source name fallback = .ok value) : 0 < value := by
  unfold positiveInt at loaded
  split at loaded
  · cases loaded
  · split at loaded
    · cases loaded
    · rename_i positive
      cases loaded
      exact Int.not_le.mp positive

theorem ok_of_bind {α β : Type} {first : Except String α} {next : α → Except String β} {result : β}
    (succeeds : first >>= next = .ok result) :
    ∃ value, first = .ok value ∧ next value = .ok result := by
  cases first with
  | error message => cases succeeds
  | ok value => exact ⟨value, rfl, succeeds⟩

theorem refuse_ok {broken : Prop} [Decidable broken] {message : String} {result : Unit}
    (passes : refuse broken message = .ok result) : ¬broken := by
  intro holds
  rw [refuse, if_pos holds] at passes
  cases passes

theorem loadRetry_valid {source : Source} (representable : source.Representable) {cfg : RetryConfig}
    (loaded : loadRetry source = .ok cfg) : cfg.Valid := by
  obtain ⟨requestTimeout, -, loaded⟩ := ok_of_bind loaded
  obtain ⟨upstreamAttemptTimeout, timeout, loaded⟩ := ok_of_bind loaded
  obtain ⟨retryMaxAttempts, attempts, loaded⟩ := ok_of_bind loaded
  obtain ⟨_, few, loaded⟩ := ok_of_bind loaded
  obtain ⟨retryBaseBackoff, base, loaded⟩ := ok_of_bind loaded
  obtain ⟨retryMaxBackoff, most, loaded⟩ := ok_of_bind loaded
  obtain ⟨_, ordered, loaded⟩ := ok_of_bind loaded
  obtain ⟨_, -, loaded⟩ := ok_of_bind loaded
  obtain rfl := Except.ok.inj loaded
  obtain ⟨-, text, parsed⟩ := positiveDuration_ok most
  exact ⟨(positiveDuration_ok timeout).1, positiveInt_ok attempts, Int.not_lt.mp (refuse_ok few),
    (positiveDuration_ok base).1, Int.not_lt.mp (refuse_ok ordered), representable text _ parsed⟩

section Policies

variable {cfg : RetryConfig} (valid : cfg.Valid)
include valid

theorem new_retryOptions : Retry.New cfg.retryOptions = .ok cfg.policy :=
  Retry.new_ok_iff.mpr ⟨valid.attempts, valid.timeout, valid.durations.positive,
    valid.durations.ordered, rfl⟩

/-- Ten attempts leave room for eight doublings. -/
theorem steady_of_valid
    (tame : cfg.retryMaxBackoff = 2 ^ 63 - 1 → cfg.retryBaseBackoff * 2 ^ 8 < 2 ^ 63 - 2) :
    cfg.policy.Steady := by
  refine (Retry.steady_iff (p := cfg.policy) valid.durations rfl).mpr (.inr fun top => ?_)
  obtain ⟨largest, reached⟩ :=
    (Retry.Policy.backoff_eq_top_iff (p := cfg.policy) valid.durations _).mp top
  have small := tame largest
  have positive : 0 < cfg.retryBaseBackoff := valid.durations.positive
  rcases reached with whole | ⟨-, passed⟩
  · have base : cfg.retryBaseBackoff = 2 ^ 63 - 1 := whole
    omega
  · have steps : (cfg.retryMaxAttempts - 1).toNat - 1 ≤ 8 := by
      have few := valid.few
      omega
    have grown : cfg.retryBaseBackoff * 2 ^ ((cfg.retryMaxAttempts - 1).toNat - 1) ≤
        cfg.retryBaseBackoff * 2 ^ 8 :=
      mul_le_mul_of_nonneg_left (pow_le_pow_right₀ (by norm_num) steps) positive.le
    exact absurd (passed.trans grown) (Int.not_le.mpr small)

end Policies

section Loaded

variable {source : Source} (representable : source.Representable) {cfg : RetryConfig}
  (loaded : loadRetry source = .ok cfg) {T : Signature}
include representable loaded

/-- What a loaded policy draws and waits for keeps to the backoff, unless the
largest duration is in reach of its attempts. -/
theorem loaded_paced
    (tame : cfg.retryMaxBackoff = 2 ^ 63 - 1 → cfg.retryBaseBackoff * 2 ^ 8 < 2 ^ 63 - 2) {α : Type}
    (shouldRetry : Option (Err → Bool)) {operation : Program T (Option α × Option Err)}
    {trace : List (Event (Retry.effects.sum T))} {exit : Exit (Retry.Done α)}
    (random : Retry.Random trace) :
    ((cfg.policy.Do shouldRetry operation).Runs trace exit →
      Retry.Paced cfg.policy operation trace exit) ∧
    ((cfg.policy.DoRetained shouldRetry operation).Runs trace exit →
      Retry.Paced cfg.policy operation trace exit) := by
  have valid := loadRetry_valid representable loaded
  exact Retry.executions_paced (new_retryOptions valid) valid.durations.fits rfl
    (steady_of_valid valid tame) shouldRetry random

end Loaded

/-- Without a jitter of its own, an accepted policy is safe at every attempt but
those whose backoff is the largest duration. -/
theorem default_jitter_safe_iff {T : Signature} {options : Retry.Options} {p : Retry.Policy}
    (accepted : Retry.New options = .ok p) (fits : options.maxBackoff ≤ 2 ^ 63 - 1)
    (default' : options.jitter = false) (attempt : Nat) :
    Retry.SafeJitter T p attempt ↔
    ¬(options.maxBackoff = 2 ^ 63 - 1 ∧
      (options.baseBackoff = 2 ^ 63 - 1 ∨ 2 ≤ attempt ∧
        2 ^ 63 - 2 ≤ options.baseBackoff * 2 ^ (attempt - 1))) := by
  obtain ⟨rfl, durations⟩ := Retry.durations_of_new accepted fits
  rw [Retry.safeJitter_iff durations default', Ne, Retry.Policy.backoff_eq_top_iff durations]

/-! Two environments, with durations that are one whole number and its unit -/

def durationUnits : List (Bytes × Nat) :=
  [(utf8 "ns", 1), (utf8 "us", 10 ^ 3), (utf8 "ms", 10 ^ 6), (utf8 "s", 10 ^ 9),
    (utf8 "m", 60 * 10 ^ 9), (utf8 "h", 3600 * 10 ^ 9)]

def wholeDuration (text : Bytes) : Option Int :=
  let digit (byte : UInt8) : Bool := 48 ≤ byte && byte ≤ 57
  match digits (text.takeWhile digit), durationUnits.lookup (text.dropWhile digit) with
  | some count, some unit => if count * unit < 2 ^ 63 then some (Int.ofNat (count * unit)) else none
  | _, _ => none

def environment (settings : List (String × String)) : Source where
  Getenv name := ((settings.lookup name).map utf8).getD []
  ParseFloat := ratioValue
  FormatFloat := ratioText
  ParseDuration := wholeDuration

theorem environment_representable (settings : List (String × String)) :
    (environment settings).Representable := by
  intro text value parsed
  change wholeDuration text = some value at parsed
  unfold wholeDuration at parsed
  dsimp only at parsed
  split at parsed
  · split at parsed
    · rename_i small
      obtain rfl := Option.some.inj parsed
      change ((_ : Nat) : Int) ≤ _
      omega
    · cases parsed
  · cases parsed

def unset : RetryConfig := ⟨30000000000, 10000000000, 3, 100000000, 2000000000⟩

theorem default_jitter_safe_iff_unset :
    loadRetry (environment []) = .ok unset ∧ Retry.New unset.retryOptions = .ok unset.policy ∧
      Retry.SafeJitter Governance.attempts unset.policy 2 := by
  have accepted : Retry.New unset.retryOptions = .ok unset.policy := rfl
  refine ⟨by decide +kernel, accepted, ?_⟩
  exact (default_jitter_safe_iff accepted (by decide) rfl 2).mpr (by decide)

/-- Both backoffs at the largest duration. -/
def longest : RetryConfig :=
  { unset with retryBaseBackoff := 2 ^ 63 - 1, retryMaxBackoff := 2 ^ 63 - 1 }

def longestDelays : Source :=
  environment [("RETRY_BASE_BACKOFF", "9223372036854775807ns"),
    ("RETRY_MAX_BACKOFF", "9223372036854775807ns")]

/-- A first attempt that may be retried. -/
def firstAttempt : List (Event (Retry.effects.sum Governance.attempts)) :=
  [⟨.inl .ctxErr, none⟩, ⟨.inl .withTimeout, (0 : Nat)⟩,
    ⟨.inr (), (none, some Governance.rateLimited)⟩,
    ⟨.inl (.onAttempt 1 (some Governance.rateLimited)), ()⟩, ⟨.inl (.cancel 0), ()⟩,
    ⟨.inl .ctxErr, none⟩]

/-- The wait after it, which the client breaks off. -/
def brokenOff : List (Event (Retry.effects.sum Governance.attempts)) :=
  firstAttempt ++ [⟨.inl (.int64N 100000001), (5 : Int)⟩, ⟨.inl (.wait 5), some .canceled⟩]

theorem brokenOff_random : Retry.Random brokenOff := by
  intro bound drawn member
  simp only [brokenOff, firstAttempt, List.cons_append, List.nil_append, List.mem_cons,
    List.not_mem_nil, or_false] at member
  rcases member with same | same | same | same | same | same | same | same <;> cases same
  decide

theorem loaded_paced_brokenOff : loadRetry (environment []) = .ok unset ∧
    Retry.Paced unset.policy (.call (S := Governance.attempts) ()) brokenOff
      (.returned ⟨none, some (.ofContext .canceled), none⟩) := by
  have loaded : loadRetry (environment []) = .ok unset := by decide +kernel
  refine ⟨loaded, (loaded_paced (environment_representable _) loaded (by decide)
    (some Provider.IsRetryable) brokenOff_random).1 ?_⟩
  repeat' apply Program.Leads.step
  exact .refl _

/-- `Load` admits the largest duration. The increment wraps, and the loop panics after the
first attempt. -/
theorem not_default_jitter_safe : longestDelays.Representable ∧
    loadRetry longestDelays = .ok longest ∧ Retry.New longest.retryOptions = .ok longest.policy ∧
    longest.retryOptions.jitter = false ∧ longest.policy.backoff 1 = 2 ^ 63 - 1 ∧
    int64 (longest.policy.backoff 1 + 1) = -2 ^ 63 ∧
    ¬Retry.SafeJitter Governance.attempts longest.policy 1 ∧
    (longest.policy.Do (some Provider.IsRetryable) (.call (S := Governance.attempts) ())).Runs
      firstAttempt (.aborted Retry.jitterPanic) := by
  have wraps : int64 (longest.policy.backoff 1 + 1) = -2 ^ 63 := by decide
  refine ⟨environment_representable _, by decide +kernel, rfl, rfl, by decide, wraps, ?_, ?_⟩
  · intro safe
    have positive := safe.positive
    rw [wraps] at positive
    exact absurd positive (by decide)
  · repeat' apply Program.Leads.step
    exact .refl _

end ModelGate.Config
