import ModelGate.RateLimit.Redis

/-! The error values the packages exchange, as linear chains of `Unwrap`.

`errors.Is` looks for a sentinel anywhere in a chain; `errors.As` takes the
outermost value of a type.
-/

set_option autoImplicit false

namespace ModelGate

inductive ErrorKind where | httpStatus | network | invalidResponse | unavailable
  deriving DecidableEq, Repr

/-- `provider.UpstreamError` without its cause. -/
structure UpstreamError where
  provider : String
  operation : String
  kind : ErrorKind
  statusCode : Int
  retryable : Bool
  deriving DecidableEq, Repr

/-- The two values `Context.Err` can take. -/
inductive ContextError where | canceled | deadlineExceeded
  deriving DecidableEq, Repr

inductive Sentinel where
  | context (error : ContextError)
  | errOpen
  | errNoHealthyProviders
  | eof
  deriving DecidableEq, Repr

inductive Err where
  | sentinel (value : Sentinel)
  | text (message : String)
  | validation (code message : String)
  | idempotency (code : String)
  | rateLimit (decision : RateLimit.Decision)
  | dependency (code : String) (cause : Option Err)
  | upstream (info : UpstreamError) (cause : Option Err)
  | wrap (message : String) (cause : Err)

namespace Err

def deadlineExceeded : Err := .sentinel (.context .deadlineExceeded)
def errOpen : Err := .sentinel .errOpen
def errNoHealthyProviders : Err := .sentinel .errNoHealthyProviders
def eof : Err := .sentinel .eof

def ofContext (error : ContextError) : Err := .sentinel (.context error)

/-- `errors.Is` for a sentinel. -/
def is (target : Sentinel) : Err → Bool
  | .sentinel value => value == target
  | .text _ => false
  | .validation _ _ => false
  | .idempotency _ => false
  | .rateLimit _ => false
  | .dependency _ none => false
  | .dependency _ (some cause) => cause.is target
  | .upstream _ none => false
  | .upstream _ (some cause) => cause.is target
  | .wrap _ cause => cause.is target

/-- `errors.As` for `*UpstreamError`. -/
def asUpstream : Err → Option UpstreamError
  | .upstream info _ => some info
  | .dependency _ (some cause) => cause.asUpstream
  | .wrap _ cause => cause.asUpstream
  | _ => none

def asValidation : Err → Option (String × String)
  | .validation code message => some (code, message)
  | .dependency _ (some cause) => cause.asValidation
  | .upstream _ (some cause) => cause.asValidation
  | .wrap _ cause => cause.asValidation
  | _ => none

def asIdempotency : Err → Option String
  | .idempotency code => some code
  | .dependency _ (some cause) => cause.asIdempotency
  | .upstream _ (some cause) => cause.asIdempotency
  | .wrap _ cause => cause.asIdempotency
  | _ => none

def asRateLimit : Err → Option RateLimit.Decision
  | .rateLimit decision => some decision
  | .dependency _ (some cause) => cause.asRateLimit
  | .upstream _ (some cause) => cause.asRateLimit
  | .wrap _ cause => cause.asRateLimit
  | _ => none

def asDependency : Err → Option String
  | .dependency code _ => some code
  | .upstream _ (some cause) => cause.asDependency
  | .wrap _ cause => cause.asDependency
  | _ => none

end Err

namespace Provider

open Err

/-- The error for a nil result without an error. -/
def nilResult (name operation message : String) : Err :=
  .upstream ⟨name, operation, .invalidResponse, 0, false⟩ (some (.text message))

def IsRetryable (err : Err) : Bool :=
  if err.is (.context .canceled) then false
  else if err.is (.context .deadlineExceeded) then true
  else
    match err.asUpstream with
    | none => false
    | some info => info.retryable

/-- The caller never passes a nil error. -/
def IsCircuitFailure (err : Err) : Bool :=
  if err.is (.context .canceled) then false
  else
    match err.asUpstream with
    | none => true
    | some info =>
        info.kind == .network || info.kind == .invalidResponse || info.statusCode == 429 ||
          decide (info.statusCode ≥ 500)

def ErrorCode (err : Err) : String :=
  if err.is (.context .deadlineExceeded) then "upstream_timeout"
  else if err.is (.context .canceled) then "request_canceled"
  else
    match err.asUpstream with
    | none => "provider_request_failed"
    | some info =>
        if info.statusCode = 429 then "provider_rate_limited"
        else if info.statusCode = 503 then "provider_unavailable"
        else if info.kind = .network ∧ err.is (.context .deadlineExceeded) then "upstream_timeout"
        else
          match info.kind with
          | .network => "provider_network_error"
          | .invalidResponse => "invalid_provider_response"
          | .unavailable => "no_healthy_provider"
          | .httpStatus => "provider_request_failed"

end Provider

end ModelGate
