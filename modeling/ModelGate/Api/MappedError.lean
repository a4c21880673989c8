import ModelGate.Errors
import ModelGate.Numeric.Int64

/-! How `internal/api` answers an error. -/

set_option autoImplicit false

namespace ModelGate.Api

open Numeric Provider

/-- The headers a handler sets, the status and the `errorDetail` of the body. -/
structure ErrorResponse where
  headers : List (String × String)
  status : Nat
  errorType : String
  code : String
  message : String
  deriving DecidableEq

def applyRateLimitHeaders (decision : RateLimit.Decision) : List (String × String) :=
  if decision.limit ≤ 0 then []
  else [("X-RateLimit-Limit", toString decision.limit),
    ("X-RateLimit-Remaining", toString (max 0 decision.remaining))]

/-- A duration in whole seconds, rounded up. Durations are an `int64` of
nanoseconds, and dividing them truncates. -/
def retryAfterSeconds (retryAfter : Int) : Int :=
  max 1 ((int64 (int64 (retryAfter + 1000000000) - 1)).tdiv 1000000000)

/-- The provider an error names. -/
def providerHeader (err : Err) : List (String × String) :=
  match err.asUpstream with
  | some info => if info.provider ≠ "" then [("X-ModelGate-Provider", info.provider)] else []
  | none => []

def writeUpstreamError (headers : List (String × String)) (code : String) : ErrorResponse :=
  if code = "upstream_timeout" then
    ⟨headers, 504, "upstream_error", code, "provider request timed out"⟩
  else if code = "no_healthy_provider" then
    ⟨headers, 503, "upstream_error", code, "no healthy provider is available"⟩
  else ⟨headers, 502, "upstream_error", code, "provider request failed"⟩

def writeMappedError (err : Err) : ErrorResponse :=
  let headers := providerHeader err
  match err.asValidation with
  | some (code, message) => ⟨headers, 400, "invalid_request_error", code, message⟩
  | none =>
  match err.asRateLimit with
  | some decision =>
      ⟨headers ++ applyRateLimitHeaders decision ++
        [("Retry-After", toString (retryAfterSeconds decision.retryAfter))], 429,
        "rate_limit_error", "rate_limit_exceeded", "request rate limit exceeded"⟩
  | none =>
  match err.asIdempotency with
  | some code =>
      let message :=
        if code = "idempotency_key_conflict" then
          "Idempotency-Key was already used with a different request"
        else "a request with this Idempotency-Key is already in progress"
      ⟨headers ++ [("Retry-After", "1")], 409, "invalid_request_error", code, message⟩
  | none =>
  match err.asDependency with
  | some code =>
      ⟨headers, 503, "service_unavailable_error", code,
        "a required gateway dependency is unavailable"⟩
  | none =>
  match err.asUpstream with
  | some _ => writeUpstreamError headers (ErrorCode err)
  | none =>
      if err.is (.context .deadlineExceeded) then
        ⟨headers, 504, "upstream_error", "upstream_timeout", "provider request timed out"⟩
      else if err.is (.context .canceled) then
        ⟨headers, 408, "request_error", "request_canceled", "request was canceled"⟩
      else ⟨headers, 502, "upstream_error", "provider_request_failed", "provider request failed"⟩

/-- The header is the least positive number of seconds that covers a wait. -/
theorem retryAfterSeconds_least {retryMs : Int} (low : 1 ≤ retryMs) (high : retryMs ≤ 60000) :
    0 < retryAfterSeconds (retryMs * 1000000) ∧
    retryMs ≤ 1000 * retryAfterSeconds (retryMs * 1000000) ∧ ∀ seconds, 0 < seconds →
    retryMs ≤ 1000 * seconds → retryAfterSeconds (retryMs * 1000000) ≤ seconds := by
  have exact' : retryAfterSeconds (retryMs * 1000000) =
      max 1 ((retryMs * 1000000 + 1000000000 - 1) / 1000000000) := by
    have sum : int64 (retryMs * 1000000 + 1000000000) = retryMs * 1000000 + 1000000000 :=
      int64_of_bounds (by omega) (by omega)
    rw [retryAfterSeconds, sum, int64_of_bounds (by omega) (by omega), Int.tdiv_eq_ediv_of_nonneg
      (by omega)]
  rw [exact']
  refine ⟨by omega, by omega, fun seconds positive enough => ?_⟩
  omega

end ModelGate.Api
