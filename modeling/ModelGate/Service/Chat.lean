import ModelGate.Data.Text
import ModelGate.Errors
import ModelGate.Provider.Types

/-! Request validation of `internal/service`. -/

set_option autoImplicit false

namespace ModelGate.Service

open Data Numeric Provider

def invalid (code message : String) : Err := .validation code message

def validRoles : List String := ["developer", "system", "user", "assistant"]

/-- The loop over the messages, from a position on. -/
def validateMessages : Nat → List ChatMessage → Option Err
  | _, [] => none
  | index, message :: rest =>
      if message.role ∉ validRoles then
        some (invalid "invalid_message_role"
          ("messages[" ++ toString index ++ "].role is not supported"))
      else if trimSpace message.content = "" then
        some (invalid "invalid_message_content"
          ("messages[" ++ toString index ++ "].content is required"))
      else validateMessages (index + 1) rest

/-- A missing bound leaves a parameter unchecked. -/
def outOfRange (low high : ℚ) : Option Float64 → Bool
  | none => false
  | some value => value.lt (.ofRat low) || (Float64.ofRat high).lt value

def ValidateChatRequest : Option ChatRequest → Option Err
  | none => some (invalid "invalid_request" "request body is required")
  | some req =>
      if trimSpace req.model = "" then some (invalid "invalid_model" "model is required")
      else if req.messages = [] then
        some (invalid "invalid_messages" "messages must contain at least one item")
      else
        match validateMessages 0 req.messages with
        | some err => some err
        | none =>
            if outOfRange 0 2 req.temperature then
              some (invalid "invalid_temperature" "temperature must be between 0 and 2")
            else if outOfRange 0 1 req.topP then
              some (invalid "invalid_top_p" "top_p must be between 0 and 1")
            else if req.maxTokens.any (· ≤ 0) then
              some (invalid "invalid_max_tokens" "max_tokens must be greater than zero")
            else none

def supportedCharacter (c : Char) : Bool :=
  ('a' ≤ c && c ≤ 'z') || ('A' ≤ c && c ≤ 'Z') || ('0' ≤ c && c ≤ '9') || "._:-".toList.contains c

theorem ascii_of_supported {c : Char} (supported : supportedCharacter c = true) :
    0 < c.toNat ∧ c.toNat < 128 := by
  have between {low high : Char} (bounds : low ≤ c ∧ c ≤ high) : low.toNat ≤ c.toNat ∧
      c.toNat ≤ high.toNat :=
    ⟨bounds.1, bounds.2⟩
  simp only [supportedCharacter, Bool.or_eq_true, Bool.and_eq_true, decide_eq_true_eq] at supported
  obtain ((lower | upper) | digit) | other := supported
  · have := between lower
    have : 'a'.toNat = 97 ∧ 'z'.toNat = 122 := by decide
    omega
  · have := between upper
    have : 'A'.toNat = 65 ∧ 'Z'.toNat = 90 := by decide
    omega
  · have := between digit
    have : '0'.toNat = 48 ∧ '9'.toNat = 57 := by decide
    omega
  · have punctuation : c = '.' ∨ c = '_' ∨ c = ':' ∨ c = '-' := by simpa using other
    obtain rfl | rfl | rfl | rfl := punctuation <;> decide

/-- An empty key asks for no idempotency. -/
def normalizeIdempotencyKey (value : String) : Except Err String :=
  let value := trimSpace value
  if value = "" then .ok ""
  else if value.utf8ByteSize > 128 then
    .error (invalid "invalid_idempotency_key" "Idempotency-Key must not exceed 128 bytes")
  else if value.toList.any (!supportedCharacter ·) then
    .error (invalid "invalid_idempotency_key" "Idempotency-Key contains unsupported characters")
  else .ok value

/-- An accepted key is trimmed ASCII text without control characters. -/
theorem zero_notMem_normalized {value key : String}
    (accepted : normalizeIdempotencyKey value = .ok key) : (0 : UInt8) ∉ utf8 key := by
  simp only [normalizeIdempotencyKey] at accepted
  split at accepted
  · obtain rfl := Except.ok.inj accepted
    decide
  · split at accepted
    · cases accepted
    · split at accepted
      · cases accepted
      · rename_i supported
        obtain rfl := Except.ok.inj accepted
        refine zero_notMem_utf8 fun c member => ?_
        simp only [List.any_eq_true, not_exists, not_and, Bool.not_eq_true,
          Bool.not_eq_false'] at supported
        exact ascii_of_supported (supported c member)

end ModelGate.Service
