import ModelGate.RateLimit.Redis

/-! The rate bound of the Redis limiter, with key expiry unobservable.

An expired key is read as a full bucket. The deadline outlives the time a full
refill takes, so the key that Redis dropped would have been full as well, and
a run with expiries is served like the one in which the key is kept.
-/

set_option autoImplicit false

namespace ModelGate.RateLimit

open Data

namespace RedisLimiter

/-- What every stored key satisfies. -/
structure Stored (limiter : RedisLimiter) (key : Key) : Prop where
  within : (level key.bucket).Within limiter.rule
  deadline : key.deadlineMs = key.bucket.timestampMs + limiter.ttl

theorem allow_stored (limiter : RedisLimiter) (nowMs : Int) {key : Option Key}
    (valid : ∀ stored, key = some stored → limiter.Stored stored) :
    limiter.Stored (limiter.allow nowMs key).1 := by
  refine ⟨?_, rfl⟩
  have nonneg : 0 ≤ (limiter.stored nowMs key).tokens := by
    cases key with
    | none => exact limiter.rule.capacity_nonneg
    | some key => exact (valid key rfl).within.1
  rw [allow_bucket]
  exact TokenBucket.draw_within limiter.rule zero_le_one nowMs nonneg

theorem fill_le_ttl (limiter : RedisLimiter) :
    (limiter.burst : ℚ) / limiter.ratePerMs ≤ limiter.ttl := by
  have ceiling := Int.le_ceil ((limiter.burst : ℚ) / limiter.ratePerMs)
  have nonneg : (0 : ℚ) ≤ (limiter.burst : ℚ) / limiter.ratePerMs :=
    div_nonneg limiter.rule.capacity_nonneg limiter.ratePerMs_pos.le
  have twice : (⌈(limiter.burst : ℚ) / limiter.ratePerMs⌉ : ℚ) * 2 ≤ limiter.ttl := by
    unfold ttl
    exact_mod_cast le_max_right _ _
  linarith

/-- At its deadline a kept key reads as full, exactly as a dropped one does. -/
theorem expired_reads_full (limiter : RedisLimiter) {key : Key} (valid : limiter.Stored key)
    {nowMs : Int} (due : key.deadlineMs ≤ nowMs) :
    limiter.allow nowMs none = limiter.allow nowMs (some key) := by
  have elapsed : limiter.rule.capacity / limiter.rule.rate ≤
      (nowMs : ℚ) - (level key.bucket).since := by
    have reached : ((key.bucket.timestampMs + limiter.ttl : Int) : ℚ) ≤ nowMs := by
      exact_mod_cast valid.deadline ▸ due
    have fill := limiter.fill_le_ttl
    push_cast at reached
    change (limiter.burst : ℚ) / limiter.ratePerMs ≤ nowMs - key.bucket.timestampMs
    linarith
  have kept := TokenBucket.refill_of_elapsed limiter.rule valid.within.1 elapsed
  apply allow_congr
  refine Eq.trans ?_ kept.symm
  simp [TokenBucket.refill, stored, rule]

theorem evaluate_keepKey (limiter : RedisLimiter) {key : Option Key} {evaluation : Evaluation}
    (valid : ∀ stored, key = some stored → limiter.Stored stored)
    (due : evaluation.dropped = true → ∀ stored, key = some stored →
      stored.deadlineMs ≤ evaluation.nowMs) :
    limiter.evaluate key evaluation = limiter.evaluate key (keepKey evaluation) := by
  unfold evaluate keepKey
  cases dropped : evaluation.dropped with
  | false => rfl
  | true =>
      cases key with
      | none => rfl
      | some key => exact limiter.expired_reads_full (valid key rfl) (due dropped key rfl)

/-- Expiry is unobservable: keys, decisions and times agree with the run that keeps the key. -/
theorem serve_keepKey (limiter : RedisLimiter) (evaluations : List Evaluation) {key : Option Key}
    (valid : ∀ stored, key = some stored → limiter.Stored stored)
    (expires : limiter.ExpiresInTime key evaluations) :
    limiter.serve key evaluations = limiter.serve key (evaluations.map keepKey) := by
  induction evaluations generalizing key with
  | nil => rfl
  | cons evaluation rest ih =>
      have same := limiter.evaluate_keepKey valid expires.1
      have next : ∀ stored, some (limiter.evaluate key evaluation).1 = some stored →
          limiter.Stored stored := by
        intro stored found
        rw [← Option.some.inj found, same]
        exact limiter.allow_stored _ valid
      have tail := ih next expires.2
      simp only [serve, List.map_cons, tail, ← same]
      rfl

theorem serve_stored (limiter : RedisLimiter) (evaluations : List Evaluation) {key : Option Key}
    (valid : ∀ stored, key = some stored → limiter.Stored stored) :
    ∀ one ∈ limiter.serve key evaluations, limiter.Stored one.key := by
  induction evaluations generalizing key with
  | nil => intro one member; cases member
  | cons evaluation rest ih =>
      have next : limiter.Stored (limiter.evaluate key evaluation).1 := by
        apply limiter.allow_stored
        intro stored found
        split at found
        · cases found
        · exact valid stored found
      intro one member
      rcases List.mem_cons.mp member with rfl | member
      · exact next
      · exact ih (fun stored found => Option.some.inj found ▸ next) one member

/-- Evaluations of a kept key draw from one abstract bucket. -/
theorem serve_draws (limiter : RedisLimiter) (evaluations : List Evaluation) (key : Key) :
    (limiter.serve (some key) (evaluations.map keepKey)).map
      (fun one => ((one.nowMs : ℚ), one.decision.allowed)) =
      TokenBucket.draws limiter.rule 1 (level key.bucket)
      (evaluations.map fun one => (one.nowMs : ℚ)) := by
  induction evaluations generalizing key with
  | nil => rfl
  | cons evaluation rest ih =>
      have bucket := limiter.allow_bucket evaluation.nowMs (some key)
      have allowed := limiter.allow_allowed evaluation.nowMs (some key)
      simp only [List.map_cons, serve, evaluate, keepKey, Bool.false_eq_true, if_false,
        TokenBucket.draws]
      rw [allowed]
      refine congrArg₂ List.cons rfl ?_
      rw [show (TokenBucket.draw limiter.rule 1 evaluation.nowMs (level key.bucket)).2 =
        level _ from bucket.symm]
      exact ih _

theorem serve_fresh (limiter : RedisLimiter) (evaluation : Evaluation) (rest : List Evaluation) :
    (limiter.serve none ((evaluation :: rest).map keepKey)).map
      (fun one => ((one.nowMs : ℚ), one.decision.allowed)) =
      TokenBucket.draws limiter.rule 1 ⟨limiter.burst, evaluation.nowMs⟩
      ((evaluation :: rest).map fun one => (one.nowMs : ℚ)) := by
  have first : limiter.allow evaluation.nowMs none =
    limiter.allow evaluation.nowMs (some ⟨⟨limiter.burst, evaluation.nowMs⟩, 0⟩) :=
    limiter.allow_congr rfl
  rw [show (⟨limiter.burst, evaluation.nowMs⟩ : TokenBucket.Level ℚ) =
    level ⟨limiter.burst, evaluation.nowMs⟩ from rfl, ← serve_draws limiter (evaluation :: rest)
    ⟨⟨limiter.burst, evaluation.nowMs⟩, 0⟩]
  simp only [List.map_cons, serve, evaluate, keepKey, Bool.false_eq_true, if_false, first]

theorem allowedIn_eq (start finish : ℚ) (served : List Served) :
    allowedIn start finish served =
      TokenBucket.grantsIn start finish
      (served.map fun one => ((one.nowMs : ℚ), one.decision.allowed)) := by
  unfold allowedIn TokenBucket.grantsIn
  rw [List.countP_map]
  rfl

theorem allowedIn_le (limiter : RedisLimiter) (evaluations : List Evaluation)
    (clock : List.IsChain (· ≤ ·) (evaluations.map Evaluation.nowMs)) {start finish : ℚ}
    (ordered : start ≤ finish) :
    (allowedIn start finish (limiter.serve none (evaluations.map keepKey)) : ℚ) ≤
      limiter.burst + limiter.rpm * (finish - start) / 60000 := by
  have budget : (limiter.burst : ℚ) + limiter.rpm * (finish - start) / 60000 =
      limiter.rule.capacity + (finish - start) * limiter.rule.rate := by
    change _ = (limiter.burst : ℚ) + (finish - start) * (limiter.rpm / 60000)
    ring
  rw [budget, allowedIn_eq]
  cases evaluations with
  | nil =>
      have full := limiter.rule.capacity_nonneg
      have refill := mul_nonneg (sub_nonneg.mpr ordered) limiter.rule.rate_pos.le
      simpa [serve, TokenBucket.grantsIn] using add_nonneg full refill
  | cons evaluation rest =>
      rw [serve_fresh]
      have times : List.IsChain (· ≤ ·) ((evaluation :: rest).map fun one => (one.nowMs : ℚ)) := by
        have cast : List.IsChain (fun a b : ℚ => a ≤ b)
            (((evaluation :: rest).map Evaluation.nowMs).map fun time : Int => (time : ℚ)) :=
          List.isChain_map_of_isChain _ (fun _ _ le => Int.cast_le.mpr le) clock
        rwa [List.map_map] at cast
      have full : 0 ≤ (⟨limiter.burst, evaluation.nowMs⟩ : TokenBucket.Level ℚ).tokens :=
        limiter.rule.capacity_nonneg
      have bound := TokenBucket.grantsIn_le limiter.rule zero_le_one ordered _ full times
      rwa [one_mul] at bound

end RedisLimiter

open RedisLimiter

/-- Stored tokens stay in the bucket, every window is bounded, and expiry is unobservable. -/
theorem token_bucket_bound {rpm burst : Int} {limiter : RedisLimiter}
    (built : NewRedisLimiter rpm burst = .ok limiter) (evaluations : List Evaluation)
    (clock : List.IsChain (· ≤ ·) (evaluations.map Evaluation.nowMs))
    (expires : limiter.ExpiresInTime none evaluations) :
    (∀ one ∈ limiter.serve none evaluations, 0 ≤ one.key.bucket.tokens ∧
      one.key.bucket.tokens ≤ burst) ∧
    (∀ start finish : ℚ, start ≤ finish →
      (allowedIn start finish (limiter.serve none evaluations) : ℚ) ≤ burst + rpm *
        (finish - start) / 60000) ∧
    (limiter.serve none evaluations).map Served.decision =
      (limiter.serve none (evaluations.map keepKey)).map Served.decision := by
  obtain ⟨rfl, rfl⟩ : limiter.rpm = rpm ∧ limiter.burst = burst := by
    unfold NewRedisLimiter at built
    split at built
    · cases built
    · cases built
      exact ⟨rfl, rfl⟩
  have kept := limiter.serve_keepKey evaluations (fun _ absent => by cases absent) expires
  refine ⟨?_, ?_, congrArg _ kept⟩
  · intro one member
    exact (limiter.serve_stored evaluations (fun _ absent => by cases absent) one member).within
  · intro start finish ordered
    rw [kept]
    exact limiter.allowedIn_le evaluations clock ordered

/-- One request a minute with a burst of one: the third evaluation finds the
key expired, at the deadline the second one set. -/
theorem token_bucket_bound_expired :
    let limiter : RedisLimiter := ⟨1, 1, by decide, by decide⟩
    let evaluations : List Evaluation := [⟨0, false⟩, ⟨1, false⟩, ⟨120001, true⟩]
    ((limiter.serve none evaluations).map fun one => one.decision.allowed) = [true, false, true] ∧
    (allowedIn 0 120001 (limiter.serve none evaluations) : ℚ) ≤ (1 : Int) + (1 : Int) *
      (120001 - 0) / 60000 ∧
    (limiter.serve none evaluations).map Served.decision =
      (limiter.serve none (evaluations.map keepKey)).map Served.decision := by
  intro limiter evaluations
  have expires : limiter.ExpiresInTime none evaluations := by
    refine ⟨fun dropped => ?_, fun dropped => ?_, fun _ stored found => ?_, trivial⟩
    · cases dropped
    · cases dropped
    · cases found
      decide +kernel
  have built : NewRedisLimiter 1 1 = .ok limiter := rfl
  obtain ⟨_, window, same⟩ := token_bucket_bound built evaluations (by decide) expires
  exact ⟨by decide +kernel, window 0 120001 (by decide +kernel), same⟩

end ModelGate.RateLimit
