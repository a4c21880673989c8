import ModelGate.Retry.Policy

/-! What any protocol may expect of the retry loop. -/

set_option autoImplicit false

namespace ModelGate.Retry

open Numeric Semantics

namespace Policy

/-- The default jitter never sees the largest duration. -/
def Steady (p : Policy) : Prop :=
  p.options.jitter = true ∨ ∀ attempt : Nat, 1 ≤ attempt → (attempt : Int) < p.options.maxAttempts →
    p.backoff attempt < 2 ^ 63 - 1

end Policy

theorem positive_of_new {options : Options} {p : Policy} (accepted : New options = .ok p) :
    0 < p.options.maxAttempts := by
  obtain ⟨positive, -, -, -, rfl⟩ := new_ok_iff.mp accepted
  exact positive

variable {T : Signature} {α Phase : Type}

/-- Success comes with what the operation assigned, and with its cancel
function if that is retained. -/
structure Done.Sound (Q : α → Prop) (E : Err → Prop) (retainSuccess : Bool) (done : Done α) :
    Prop where
  success : done.err = none → ∃ value, done.captured = some value ∧ Q value
  failure : ∀ err, done.err = some err → E err
  retained : done.cancel.isSome = true ↔ retainSuccess = true ∧ done.err = none

/-- The operation of an attempt assigns its variable when it succeeds. -/
def Assigns (Q : α → Prop) (E : Err → Prop) (next : Phase) :
    Exit (Option α × Option Err) → Phase → Prop
  | .returned (captured, err), last =>
      last = next ∧ (err = none → ∃ value, captured = some value ∧ Q value) ∧
        ∀ failed, err = some failed → E failed
  | .aborted _, _ => False

/-- How the loop ends, where `phases` are those after each number of attempts. -/
def Ends (p : Policy) (Q : α → Prop) (E : Nat → Err → Prop) (retainSuccess : Bool)
    (phases : Nat → Phase) : Exit (Done α) → Phase → Prop
  | .returned done, last => ∃ made : Nat,
      (made : Int) ≤ p.options.maxAttempts ∧ last = phases made ∧
        done.Sound Q (E made) retainSuccess
  | .aborted _, last =>
      ¬ p.Steady ∧ ∃ made : Nat, (made : Int) ≤ p.options.maxAttempts ∧ last = phases made

/-- The loop is its rounds: what one of them has when the later ones have it,
the whole loop has. -/
theorem rounds_induction {p : Policy} {shouldRetry : Option (Err → Bool)}
    {operation : Program T (Option α × Option Err)} {retainSuccess : Bool}
    {motive : Nat → Option α → Program (effects.sum T) (Done α) → Prop}
    (round : ∀ (made : Nat) captured again, (made : Int) + 1 ≤ p.options.maxAttempts →
      ((made : Int) + 1 < p.options.maxAttempts →
        ∀ captured, motive (made + 1) captured (again captured)) →
      motive made captured (effect .ctxErr >>= p.entered shouldRetry operation retainSuccess
        (made + 1) captured again))
    (positive : 0 < p.options.maxAttempts) (captured : Option α) :
    motive 0 captured
      (p.loop shouldRetry operation retainSuccess p.options.maxAttempts.toNat 1 captured) := by
  have rest (left made : Nat) (captured : Option α)
      (total : (made : Int) + left + 1 = p.options.maxAttempts) :
      motive made captured
      (p.loop shouldRetry operation retainSuccess (left + 1) (made + 1) captured) := by
    induction left generalizing made captured with
    | zero =>
        apply round made captured _ (by omega)
        -- nothing is left, so this attempt is the last one
        intro early
        omega
    | succ left ih =>
        apply round made captured _ (by omega)
        intro _ captured
        exact ih (made + 1) captured (by omega)
  obtain ⟨left, count⟩ : ∃ left, p.options.maxAttempts.toNat = left + 1 :=
    ⟨p.options.maxAttempts.toNat - 1, by omega⟩
  rw [count]
  exact rest left 0 captured (by omega)

section Loop

variable {P : Protocol (effects.sum T) Phase} {phases : Nat → Phase}
  (ignores : ∀ made op, P.Ignores (phases made) (.inl op)) {Q : α → Prop} {E : Nat → Err → Prop}
  (checks : ∀ made ended, P.answers (phases made) (.inl .ctxErr) (some ended) →
    E made (.ofContext ended))
  (waits : ∀ made ended, 1 ≤ made → E made (.ofContext ended)) {p : Policy}
  (shouldRetry : Option (Err → Bool)) {operation : Program T (Option α × Option Err)}
  (retainSuccess : Bool)

theorem ends_failed {made : Nat} (within : (made : Int) ≤ p.options.maxAttempts)
    (captured : Option α) {err : Err} (known : E made err) :
    Obeys P (Ends p Q E retainSuccess phases) (.done (⟨none, some err, captured⟩ : Done α))
      (phases made) := by
  apply obeys_done.mpr
  refine ⟨made, within, rfl, nofun, ?_, by simp⟩
  rintro other same
  obtain rfl := Option.some.inj same
  exact known

section Effects

include ignores

theorem obeys_effect {β : Type} {post : Exit β → Phase → Prop} {made : Nat} (op : Effect)
    {next : effects.Reply op → Program (effects.sum T) β}
    (rest : ∀ reply, P.answers (phases made) (.inl op) reply →
      Obeys P post (next reply) (phases made)) : Obeys P post (effect op >>= next) (phases made) :=
  obeys_ignored (S := effects.sum T) (ignores made op) rest

theorem jitter_obeys {β : Type} {post : Exit β → Phase → Prop} {attempt : Nat} (later : 1 ≤ attempt)
    (early : (attempt : Int) < p.options.maxAttempts) {next : Int → Program (effects.sum T) β}
    (panics : ¬ p.Steady → ∀ reason, post (.aborted reason) (phases attempt))
    (rest : ∀ delay, Obeys P post (next delay) (phases attempt)) :
    Obeys P post (p.Jitter (p.backoff attempt) >>= next) (phases attempt) := by
  unfold Policy.Jitter
  split
  · exact obeys_effect ignores (.jitter _) fun delay _ => rest delay
  · rename_i absent
    unfold fullJitter
    split
    · exact rest 0
    · by_cases steady : p.Steady
      · have small := steady.resolve_left absent attempt later early
        have bound : int64 (p.backoff attempt + 1) = p.backoff attempt + 1 :=
          int64_of_bounds (by omega) (by omega)
        rw [bound, if_neg (by omega)]
        exact obeys_effect ignores (.int64N _) fun delay _ => rest delay
      · split
        · exact obeys_abort.mpr (panics steady _)
        · exact obeys_effect ignores (.int64N _) fun delay _ => rest delay

include waits

theorem failed_obeys {attempt : Nat} (first : 1 ≤ attempt)
    (within : (attempt : Int) ≤ p.options.maxAttempts) (captured : Option α) {err : Err}
    (known : E attempt err) {again : Program (effects.sum T) (Done α)}
    (retries : (attempt : Int) < p.options.maxAttempts →
      Obeys P (Ends p Q E retainSuccess phases) again (phases attempt))
    (ended : Option ContextError) :
    Obeys P (Ends p Q E retainSuccess phases)
      (p.failed shouldRetry attempt captured err again ended) (phases attempt) := by
  cases ended with
  | some ended => exact ends_failed retainSuccess within captured (waits attempt ended first)
  | none =>
      unfold Policy.failed
      dsimp only
      split
      · exact ends_failed retainSuccess within captured known
      · rename_i more
        have early : (attempt : Int) < p.options.maxAttempts := by
          have other : (attempt : Int) ≠ p.options.maxAttempts := fun same => more (.inl same)
          omega
        apply jitter_obeys ignores first early
        · intro unsteady _
          exact ⟨unsteady, attempt, within, rfl⟩
        · intro delay
          unfold Policy.pause
          split
          · exact retries early
          · apply obeys_effect ignores (.wait delay)
            intro ended _
            cases ended with
            | some ended =>
                exact ends_failed retainSuccess within captured (waits attempt ended first)
            | none => exact retries early

theorem attempted_obeys {attempt : Nat} (first : 1 ≤ attempt)
    (within : (attempt : Int) ≤ p.options.maxAttempts) (cancel : Nat)
    {again : Option α → Program (effects.sum T) (Done α)}
    (retries : (attempt : Int) < p.options.maxAttempts →
      ∀ captured, Obeys P (Ends p Q E retainSuccess phases) (again captured) (phases attempt))
    (captured : Option α) (err : Option Err)
    (assigned : err = none → ∃ value, captured = some value ∧ Q value)
    (known : ∀ failed, err = some failed → E attempt failed) :
    Obeys P (Ends p Q E retainSuccess phases)
      (p.attempted shouldRetry retainSuccess attempt cancel again (captured, err))
      (phases attempt) := by
  unfold Policy.attempted
  apply obeys_effect ignores (.onAttempt attempt err)
  intro _ _
  cases err with
  | none =>
      dsimp only
      split
      · rename_i retained
        apply obeys_done.mpr
        exact ⟨attempt, within, rfl, fun _ => assigned rfl, nofun, by simp [retained]⟩
      · rename_i released
        apply obeys_effect ignores (.cancel cancel)
        intro _ _
        apply obeys_done.mpr
        exact ⟨attempt, within, rfl, fun _ => assigned rfl, nofun, by simp [released]⟩
  | some err =>
      apply obeys_effect ignores (.cancel cancel)
      intro _ _
      apply obeys_effect ignores .ctxErr
      intro ended _
      exact failed_obeys ignores waits shouldRetry retainSuccess first within captured
        (known err rfl) (fun early => retries early captured) ended

end Effects

section Rounds

variable
  (assigns : ∀ made, Obeys (P.along (.inr effects T)) (Assigns Q (E (made + 1)) (phases (made + 1)))
    operation (phases made))
include assigns

theorem operation_obeys {β : Type} {post : Exit β → Phase → Prop} {made : Nat}
    {next : Option α × Option Err → Program (effects.sum T) β}
    (rest : ∀ captured err, (err = none → ∃ value, captured = some value ∧ Q value) →
      (∀ failed, err = some failed → E (made + 1) failed) →
      Obeys P post (next (captured, err)) (phases (made + 1))) :
    Obeys P post (operation.along (.inr effects T) >>= next) (phases made) := by
  rw [obeys_bind, obeys_along]
  apply (assigns made).mono
  intro exit last ended
  cases exit with
  | aborted reason => exact ended.elim
  | returned result =>
      obtain ⟨rfl, assigned, known⟩ := ended
      exact followed_returned.mpr (rest result.1 result.2 assigned known)

include ignores checks waits

theorem entered_obeys {made : Nat} (within : (made : Int) + 1 ≤ p.options.maxAttempts)
    (captured : Option α) {again : Option α → Program (effects.sum T) (Done α)}
    (retries : (made : Int) + 1 < p.options.maxAttempts →
      ∀ captured, Obeys P (Ends p Q E retainSuccess phases) (again captured) (phases (made + 1)))
    (ended : Option ContextError) (answered : P.answers (phases made) (.inl .ctxErr) ended) :
    Obeys P (Ends p Q E retainSuccess phases)
      (p.entered shouldRetry operation retainSuccess (made + 1) captured again ended)
      (phases made) := by
  cases ended with
  | some ended => exact ends_failed retainSuccess (by omega) captured (checks made ended answered)
  | none =>
      apply obeys_effect ignores .withTimeout
      intro cancel _
      apply operation_obeys assigns
      exact attempted_obeys ignores waits shouldRetry retainSuccess (Nat.le_add_left 1 made)
        (by omega) cancel (fun early => retries (by omega))

theorem rounds_obeys (positive : 0 < p.options.maxAttempts) (captured : Option α) :
    Obeys P (Ends p Q E retainSuccess phases)
      (p.loop shouldRetry operation retainSuccess p.options.maxAttempts.toNat 1 captured)
      (phases 0) := by
  refine rounds_induction
    (motive := fun made _ program => Obeys P (Ends p Q E retainSuccess phases) program
      (phases made)) ?_ positive captured
  intro made captured again within retries
  apply obeys_effect ignores .ctxErr
  exact entered_obeys ignores checks waits shouldRetry retainSuccess assigns within captured retries

theorem doRetained_obeys (positive : 0 < p.options.maxAttempts) :
    Obeys P (Ends p Q E true phases) (p.DoRetained shouldRetry operation) (phases 0) :=
  rounds_obeys ignores checks waits shouldRetry true assigns positive none

theorem do_obeys (positive : 0 < p.options.maxAttempts) :
    Obeys P (Ends p Q E false phases) (p.Do shouldRetry operation) (phases 0) := by
  unfold Policy.Do
  rw [obeys_bind]
  apply (rounds_obeys ignores checks waits shouldRetry false assigns positive none).mono
  intro exit last ended
  cases exit with
  | aborted reason => exact ended
  | returned done =>
      obtain ⟨made, within, reached, sound⟩ := ended
      have released : done.cancel = none := by
        cases kept : done.cancel with
        | none => rfl
        | some cancel => cases (sound.retained.mp (by simp [kept])).1
      apply followed_returned.mpr
      rw [released]
      exact obeys_done.mpr ⟨made, within, reached, sound⟩

end Rounds

end Loop

end ModelGate.Retry
