import ModelGate.RateLimit.Bound

/-! Runs that differ in their denied evaluations, and runs whose clock steps back. -/

set_option autoImplicit false

namespace ModelGate.RateLimit

open Data

def select {β : Type} (kept : List Bool) (items : List β) : List β :=
  ((items.zip kept).filter Prod.snd).map Prod.fst

theorem select_true {β : Type} (kept : List Bool) (item : β) (items : List β) :
    select (true :: kept) (item :: items) = item :: select kept items := rfl

namespace RedisLimiter

/-- Evaluations at given readings of a key that is kept. -/
def readings (times : List Int) : List Evaluation := times.map fun nowMs => ⟨nowMs, false⟩

theorem map_keepKey (evaluations : List Evaluation) :
    evaluations.map keepKey = readings (evaluations.map Evaluation.nowMs) := by
  rw [readings, List.map_map]
  rfl

theorem serve_readings (limiter : RedisLimiter) (key : Option Key) (nowMs : Int)
    (times : List Int) :
    limiter.serve key (readings (nowMs :: times)) =
      ⟨nowMs, (limiter.allow nowMs key).1, (limiter.allow nowMs key).2⟩ ::
        limiter.serve (some (limiter.allow nowMs key).1) (readings times) := by
  rw [readings, List.map_cons, serve]
  rfl

/-- From a time on, two keys read alike. -/
def Agree (limiter : RedisLimiter) (from' : Int) (first second : Option Key) : Prop :=
  ∀ nowMs, from' ≤ nowMs → TokenBucket.refill limiter.rule nowMs (limiter.stored nowMs first) =
    TokenBucket.refill limiter.rule nowMs (limiter.stored nowMs second)

theorem allow_none (limiter : RedisLimiter) (nowMs : Int) :
    (limiter.allow nowMs none).2.allowed = true := by
  have enough : (1 : ℚ) ≤ limiter.burst := by exact_mod_cast limiter.burst_pos
  have full : TokenBucket.refill limiter.rule nowMs (limiter.stored nowMs none) =
      limiter.burst := by
    simp [TokenBucket.refill, stored, rule]
  rw [allow_allowed, TokenBucket.draw, full, if_pos enough]

/-- A denied evaluation leaves a key that reads as the one before it. -/
theorem agree_of_denied (limiter : RedisLimiter) {nowMs : Int} {key : Option Key}
    (behind : ∀ stored, key = some stored → stored.bucket.timestampMs ≤ nowMs)
    (denied : (limiter.allow nowMs key).2.allowed = false) :
    limiter.Agree nowMs (some (limiter.allow nowMs key).1) key := by
  intro later ordered
  cases key with
  | none =>
      rw [allow_none] at denied
      cases denied
  | some key =>
      have bucket := limiter.allow_bucket nowMs (some key)
      rw [allow_allowed] at denied
      unfold TokenBucket.draw at bucket denied
      split at denied
      · cases denied
      · rename_i short
        rw [if_neg short] at bucket
        change TokenBucket.refill limiter.rule later (level _) = _
        rw [bucket]
        apply TokenBucket.refill_refill
        · exact Int.cast_le.mpr (behind key rfl)
        · exact Int.cast_le.mpr ordered

theorem serve_select (limiter : RedisLimiter) (times : List Int) {kept : List Bool}
    (whole : kept.length = times.length) {from' : Int}
    (clock : List.IsChain (· ≤ ·) (from' :: times)) {first second : Option Key}
    (behind : ∀ stored, first = some stored → stored.bucket.timestampMs ≤ from')
    (agree : limiter.Agree from' first second)
    (denied : ∀ one ∈ select (kept.map not) (limiter.serve first (readings times)),
      one.decision.allowed = false) :
    (limiter.serve second (readings (select kept times))).map Served.decision =
      (select kept (limiter.serve first (readings times))).map Served.decision := by
  -- The two keys need not be equal: they are credited alike from the last reading on.
  induction times generalizing kept from' first second with
  | nil => rfl
  | cons nowMs times ih =>
      cases kept with
      | nil => cases whole
      | cons keep kept =>
          obtain ⟨step, rest⟩ := List.isChain_cons_cons.mp clock
          rw [serve_readings] at denied ⊢
          have lengths : kept.length = times.length := Nat.succ.inj whole
          have since (stored : Key) (found : some (limiter.allow nowMs first).1 = some stored) :
              stored.bucket.timestampMs ≤ nowMs := by
            obtain rfl := Option.some.inj found
            exact le_refl nowMs
          cases keep with
          | true =>
              have same := limiter.allow_congr (agree nowMs step)
              have tail := ih lengths rest since (fun _ _ => rfl) denied
              rw [select_true, select_true, serve_readings, List.map_cons, List.map_cons,
                ← same, tail]
          | false =>
              -- A denied evaluation stores the refilled bucket, which later readings refill to the
              -- same.
              have refused := denied _ (List.mem_cons_self ..)
              have before := limiter.agree_of_denied
                (fun stored found => (behind stored found).trans step) refused
              have after : limiter.Agree nowMs (some (limiter.allow nowMs first).1) second :=
                fun later ordered =>
                (before later ordered).trans (agree later (step.trans ordered))
              exact ih lengths rest since after fun one member =>
                denied one (List.mem_cons_of_mem _ member)

end RedisLimiter

open RedisLimiter

theorem expiresInTime_of_kept (limiter : RedisLimiter) {evaluations : List Evaluation}
    (key : Option Key) (never : ∀ one ∈ evaluations, one.dropped = false) :
    limiter.ExpiresInTime key evaluations := by
  induction evaluations generalizing key with
  | nil => trivial
  | cons evaluation rest ih =>
      refine ⟨fun dropped => ?_, ih _ fun one member => never one (List.mem_cons_of_mem _ member)⟩
      rw [never evaluation (List.mem_cons_self ..)] at dropped
      cases dropped

/-- Any denied evaluations can be left out of a run: the rest are decided as before. -/
theorem denied_requests_free (limiter : RedisLimiter) {evaluations fewer : List Evaluation}
    (clock : List.IsChain (· ≤ ·) (evaluations.map Evaluation.nowMs))
    (expires : limiter.ExpiresInTime none evaluations) {kept : List Bool}
    (whole : kept.length = evaluations.length)
    (denied : ∀ one ∈ select (kept.map not) (limiter.serve none evaluations),
      one.decision.allowed = false)
    (same : fewer.map Evaluation.nowMs = select kept (evaluations.map Evaluation.nowMs))
    (also' : limiter.ExpiresInTime none fewer) :
    (limiter.serve none fewer).map Served.decision =
      (select kept (limiter.serve none evaluations)).map Served.decision := by
  rw [limiter.serve_keepKey evaluations (fun _ absent => by cases absent) expires,
    map_keepKey] at denied ⊢
  rw [limiter.serve_keepKey fewer (fun _ absent => by cases absent) also', map_keepKey, same]
  cases evaluations with
  | nil =>
      cases kept with
      | nil => rfl
      | cons => cases whole
  | cons evaluation rest =>
      have started : List.IsChain (· ≤ ·)
          (evaluation.nowMs :: (evaluation :: rest).map Evaluation.nowMs) :=
        List.isChain_cons_cons.mpr ⟨le_refl evaluation.nowMs, clock⟩
      exact limiter.serve_select _ (by rw [List.length_map]; exact whole) started
        (fun _ absent => by cases absent) (fun _ _ => rfl) denied

/-- One request a second: the denied evaluation is left out. -/
theorem denied_requests_free_once :
    let limiter : RedisLimiter := ⟨60, 1, by decide, by decide⟩
    let evaluations : List Evaluation := [⟨0, false⟩, ⟨100, false⟩, ⟨1000, false⟩]
    ((limiter.serve none evaluations).map fun one => one.decision.allowed) = [true, false, true] ∧
    (limiter.serve none [⟨0, false⟩, ⟨1000, false⟩]).map Served.decision =
      (select [true, false, true] (limiter.serve none evaluations)).map Served.decision := by
  intro limiter evaluations
  refine ⟨by decide +kernel, ?_⟩
  exact denied_requests_free limiter (by decide) (expiresInTime_of_kept limiter none (by decide))
    rfl (by decide +kernel) rfl (expiresInTime_of_kept limiter none (by decide))

/-! Clocks that step back -/

def largest (first : Int) (times : List Int) : Int := times.foldl max first

/-- An evaluation that reads more than the timestamp stored before it finds the
largest reading so far there: the clock does not go on after a step back. -/
def Onward : Int → Int → List Int → Prop
  | _, _, [] => True
  | largest, stored, nowMs :: times =>
      (stored < nowMs → stored = largest) ∧ Onward (max largest nowMs) nowMs times

theorem gained_le {times : List Int} {greatest stored : Int} (onward : Onward greatest stored times)
    (below : stored ≤ greatest) :
    TokenBucket.gained (stored : ℚ) (times.map fun time : Int => (time : ℚ)) ≤
      largest greatest times - greatest := by
  induction times generalizing greatest stored with
  | nil => simp [TokenBucket.gained, largest]
  | cons nowMs times ih =>
      obtain ⟨step, rest⟩ := onward
      have tail := ih rest (le_max_right _ _)
      have final : largest greatest (nowMs :: times) = largest (max greatest nowMs) times := rfl
      rw [List.map_cons, TokenBucket.gained, final]
      -- A reading ahead of the stored one starts at the largest so far, one behind gains nothing.
      by_cases ahead : stored < nowMs
      · obtain rfl := step ahead
        have later : (stored : ℚ) ≤ nowMs := Int.cast_le.mpr ahead.le
        rw [max_eq_right ahead.le] at tail ⊢
        rw [max_eq_right (sub_nonneg.mpr later)]
        linarith
      · have back : (nowMs : ℚ) ≤ stored := Int.cast_le.mpr (not_lt.mp ahead)
        rw [max_eq_left ((not_lt.mp ahead).trans below)] at tail ⊢
        rw [max_eq_left (sub_nonpos.mpr back)]
        linarith

def allowed (served : List Served) : Nat := served.countP fun one => one.decision.allowed

/-- No stretch of clock time is credited twice: what is allowed fits the burst
and the refill from the first to the largest reading. -/
def CreditedOnce (limiter : RedisLimiter) (first : Evaluation) (rest : List Evaluation) : Prop :=
  (allowed (limiter.serve none (first :: rest)) : ℚ) ≤ limiter.burst + limiter.rpm *
    (largest first.nowMs (rest.map Evaluation.nowMs) - first.nowMs) / 60000

theorem backward_clock_credits_once (limiter : RedisLimiter) {first : Evaluation}
    {rest : List Evaluation} (expires : limiter.ExpiresInTime none (first :: rest))
    (onward : Onward first.nowMs first.nowMs (rest.map Evaluation.nowMs)) :
    CreditedOnce limiter first rest := by
  have kept := limiter.serve_keepKey (first :: rest) (fun _ absent => by cases absent) expires
  have full : 0 ≤ (⟨limiter.burst, first.nowMs⟩ : TokenBucket.Level ℚ).tokens :=
    limiter.rule.capacity_nonneg
  have paid := TokenBucket.grants_le limiter.rule zero_le_one
    ((first :: rest).map fun one => (one.nowMs : ℚ)) full
  rw [← limiter.serve_fresh, List.countP_map, one_mul, ← kept] at paid
  have credit := gained_le onward (le_refl _)
  rw [List.map_map] at credit
  have refill := mul_le_mul_of_nonneg_right credit limiter.ratePerMs_pos.le
  have opening : TokenBucket.gained (first.nowMs : ℚ)
      ((first :: rest).map fun one => (one.nowMs : ℚ)) =
      TokenBucket.gained (first.nowMs : ℚ) (rest.map fun one => (one.nowMs : ℚ)) := by
    rw [List.map_cons, TokenBucket.gained, sub_self, max_self, zero_add]
  calc (allowed (limiter.serve none (first :: rest)) : ℚ)
      ≤ limiter.burst + TokenBucket.gained (first.nowMs : ℚ) (rest.map fun one => (one.nowMs : ℚ)) *
        limiter.ratePerMs :=
        opening ▸ paid
    _ ≤ limiter.burst + (largest first.nowMs (rest.map Evaluation.nowMs) - first.nowMs) *
      limiter.ratePerMs :=
        add_le_add (le_refl _) refill
    _ = limiter.burst + limiter.rpm *
      (largest first.nowMs (rest.map Evaluation.nowMs) - first.nowMs) / 60000 := by
        rw [ratePerMs]
        ring

/-- One request a second, with a clock that only steps back at the end. -/
theorem backward_clock_credits_once_late :
    let limiter : RedisLimiter := ⟨60, 1, by decide, by decide⟩
    let rest : List Evaluation := [⟨1000, false⟩, ⟨500, false⟩, ⟨400, false⟩]
    ((limiter.serve none (⟨0, false⟩ :: rest)).map fun one => one.decision.allowed) =
      [true, true, false, false] ∧
    CreditedOnce limiter ⟨0, false⟩ rest := by
  intro limiter rest
  refine ⟨by decide +kernel, ?_⟩
  apply backward_clock_credits_once limiter (expiresInTime_of_kept limiter none (by decide))
  exact ⟨fun _ => rfl, by decide, by decide, trivial⟩

/-- One request a second: the second before the step back is credited again. -/
theorem not_backward_clock_credits_once :
    ∃ (limiter : RedisLimiter) (first : Evaluation) (rest : List Evaluation),
      limiter.ExpiresInTime none (first :: rest) ∧ ¬CreditedOnce limiter first rest := by
  refine ⟨⟨60, 1, by decide, by decide⟩, ⟨1000, false⟩, [⟨0, false⟩, ⟨1000, false⟩], ?_, ?_⟩
  · exact expiresInTime_of_kept _ none (by decide)
  · have twice : allowed (serve ⟨60, 1, by decide, by decide⟩ none
        [⟨1000, false⟩, ⟨0, false⟩, ⟨1000, false⟩]) = 2 := by
      decide +kernel
    unfold CreditedOnce
    rw [twice]
    norm_num [largest]

end ModelGate.RateLimit
