import ModelGate.Api.MappedError
import ModelGate.Service.Gateway

/-! The code a request record stores and the code the error envelope carries.

`gatewayErrorCode` and `writeMappedError` ask for the same types in different
orders. A chain has one terminal error, so at most one of the questions about
terminals is answered; only a dependency above a rate limit separates the two.
-/

set_option autoImplicit false

namespace ModelGate

namespace Err

def terminal : Err → Err
  | .dependency _ (some cause) => cause.terminal
  | .upstream _ (some cause) => cause.terminal
  | .wrap _ cause => cause.terminal
  | err => err

theorem asValidation_terminal : ∀ err : Err, err.terminal.asValidation = err.asValidation
  | .sentinel _ | .text _ | .validation _ _ | .idempotency _ | .rateLimit _ => rfl
  | .dependency _ none | .upstream _ none => rfl
  | .dependency _ (some cause) | .upstream _ (some cause) | .wrap _ cause =>
      asValidation_terminal cause

theorem asIdempotency_terminal : ∀ err : Err, err.terminal.asIdempotency = err.asIdempotency
  | .sentinel _ | .text _ | .validation _ _ | .idempotency _ | .rateLimit _ => rfl
  | .dependency _ none | .upstream _ none => rfl
  | .dependency _ (some cause) | .upstream _ (some cause) | .wrap _ cause =>
      asIdempotency_terminal cause

/-- A rate limit wraps nothing, so it can only end a chain. -/
theorem terminal_of_asRateLimit {decision : RateLimit.Decision} :
    ∀ err : Err, err.asRateLimit = some decision → err.terminal = .rateLimit decision
  | .sentinel _, limited | .text _, limited | .validation _ _, limited | .idempotency _, limited =>
      nomatch limited
  | .dependency _ none, limited | .upstream _ none, limited => nomatch limited
  | .rateLimit _, limited => congrArg Err.rateLimit (Option.some.inj limited)
  | .dependency _ (some cause), limited | .upstream _ (some cause), limited |
      .wrap _ cause, limited =>
      terminal_of_asRateLimit cause limited

theorem is_unique {first second : Sentinel} :
    ∀ err : Err, err.is first = true → err.is second = true → first = second
  | .sentinel _, found, again => (eq_of_beq found).symm.trans (eq_of_beq again)
  | .text _, found, _ | .validation _ _, found, _ | .idempotency _, found, _ |
      .rateLimit _, found, _ => nomatch found
  | .dependency _ none, found, _ | .upstream _ none, found, _ => nomatch found
  | .dependency _ (some cause), found, again | .upstream _ (some cause), found, again |
      .wrap _ cause, found, again =>
      is_unique cause found again

/-- No dependency of the chain wraps, at any depth, a rate limit. -/
def NeverHidesLimit : Err → Prop
  | .dependency _ (some cause) => cause.asRateLimit = none ∧ cause.NeverHidesLimit
  | .upstream _ (some cause) => cause.NeverHidesLimit
  | .wrap _ cause => cause.NeverHidesLimit
  | _ => True

theorem asDependency_of_asRateLimit {decision : RateLimit.Decision} :
    ∀ err : Err, err.NeverHidesLimit → err.asRateLimit = some decision → err.asDependency = none
  | .sentinel _, _, _ | .text _, _, _ | .validation _ _, _, _ | .idempotency _, _, _ |
      .rateLimit _, _, _ => rfl
  | .upstream _ none, _, _ => rfl
  | .dependency _ none, _, limited => nomatch limited
  | .dependency _ (some _), clear, limited => nomatch clear.1.symm.trans limited
  | .upstream _ (some cause), clear, limited | .wrap _ cause, clear, limited =>
      asDependency_of_asRateLimit cause clear limited

end Err

namespace Api

open Provider Service

theorem writeUpstreamError_code (headers : List (String × String)) (code : String) :
    (writeUpstreamError headers code).code = code := by
  unfold writeUpstreamError
  split_ifs <;> rfl

theorem codes_of_limited {err : Err} {decision : RateLimit.Decision} (clear : err.NeverHidesLimit)
    (limited : err.asRateLimit = some decision) :
    gatewayErrorCode err = "rate_limit_exceeded" ∧
    (writeMappedError err).code = "rate_limit_exceeded" := by
  have ends := Err.terminal_of_asRateLimit err limited
  have noValidation : err.asValidation = none := by rw [← Err.asValidation_terminal, ends]; rfl
  have noIdempotency : err.asIdempotency = none := by rw [← Err.asIdempotency_terminal, ends]; rfl
  have noDependency := Err.asDependency_of_asRateLimit err clear limited
  constructor
  · simp only [gatewayErrorCode, noValidation, noIdempotency, noDependency, limited]
  · simp only [writeMappedError, noValidation, limited]

/-- The two context errors are asked for in opposite orders; no chain ends in both. -/
theorem context_order (err : Err) (canceled deadline otherwise : String) :
    (if err.is (.context .canceled) then canceled
      else if err.is (.context .deadlineExceeded) then deadline
      else otherwise) =
    if err.is (.context .deadlineExceeded) then deadline
    else if err.is (.context .canceled) then canceled
      else otherwise := by
  by_cases wasCanceled : err.is (.context .canceled) = true
  · have inTime : err.is (.context .deadlineExceeded) = false := by
      rw [← Bool.not_eq_true]
      intro expired
      exact absurd (Err.is_unique err wasCanceled expired) (by decide)
    simp only [wasCanceled, inTime, if_true, Bool.false_eq_true, if_false]
  · simp only [wasCanceled, if_false, Bool.false_eq_true]

theorem codes_of_unlimited {err : Err} (unlimited : err.asRateLimit = none) :
    gatewayErrorCode err = (writeMappedError err).code := by
  unfold gatewayErrorCode writeMappedError
  rw [unlimited]
  cases err.asValidation with
  | some rejected => rfl
  | none =>
    cases err.asIdempotency with
    | some code => rfl
    | none =>
      cases err.asDependency with
      | some code => rfl
      | none =>
        cases err.asUpstream with
        | some info => exact (writeUpstreamError_code _ _).symm
        | none =>
          dsimp only
          rw [context_order, apply_ite ErrorResponse.code, apply_ite ErrorResponse.code]

theorem gatewayErrorCode_eq_envelope (err : Err) (clear : err.NeverHidesLimit) :
    gatewayErrorCode err = (writeMappedError err).code := by
  cases limited : err.asRateLimit with
  | none => exact codes_of_unlimited limited
  | some decision =>
    have codes := codes_of_limited clear limited
    exact codes.1.trans codes.2.symm

/-- A dependency failure above an upstream timeout: several types match, both give the
dependency's code. -/
theorem gatewayErrorCode_eq_envelope_of_dependency :
    gatewayErrorCode
    (.wrap "begin" (.dependency "idempotency_unavailable"
        (some (.upstream ⟨"primary", "chat", .network, 0, true⟩ (some .deadlineExceeded))))) =
    (writeMappedError
      (.wrap "begin" (.dependency "idempotency_unavailable"
        (some (.upstream ⟨"primary", "chat", .network, 0, true⟩
        (some .deadlineExceeded)))))).code :=
  gatewayErrorCode_eq_envelope _ ⟨rfl, trivial⟩

end Api

end ModelGate
