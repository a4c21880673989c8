import ModelGate.Data.Text
import ModelGate.Errors
import ModelGate.Provider.Types

/-! The response cache of `internal/cache`. -/

set_option autoImplicit false

namespace ModelGate.Cache

open Data Numeric Provider

inductive Status where | bypass | miss | hit
  deriving DecidableEq, Repr

def Status.text : Status → String
  | .hit => "HIT"
  | .miss => "MISS"
  | .bypass => "BYPASS"

def Cacheable (req : ChatRequest) : Prop :=
  req.stream = false ∧ ∃ temperature, req.temperature = some temperature ∧
    temperature.eq (.ofRat 0) = true

instance (req : ChatRequest) : Decidable (Cacheable req) :=
  match found : req.temperature with
  | none => isFalse fun ⟨_, _, given, _⟩ => by simp [found] at given
  | some value =>
      if zero : req.stream = false ∧ value.eq (.ofRat 0) = true then
        isTrue ⟨zero.1, value, found, zero.2⟩
      else isFalse fun ⟨plain, _, given, equal⟩ =>
        zero ⟨plain, by rw [found] at given; cases given; exact equal⟩

/-- `Policy.Key` up to the digest. -/
def keyInput (identity canonical : Bytes) : Bytes := identity ++ 0 :: canonical

/-- No key stands for the `false` result. -/
def Key (sha256 : Bytes → Bytes) (marshal : ChatRequest → Except Err Bytes) (identity : Bytes)
    (req : ChatRequest) : Except Err (Option String) :=
  if ¬ Cacheable req then .ok none
  else
    match marshal req with
    | .error err => .error (.wrap "encode cache fingerprint" err)
    | .ok canonical => .ok (some (hexEncode (sha256 (keyInput identity canonical))))

/-- The keyspace under the prefix `modelgate:cache:`. -/
abbrev Keyspace := String → Option Bytes

def redisKey (key : String) : String := "modelgate:cache:" ++ key

theorem redisKey_inj {first second : String} (same : redisKey first = redisKey second) :
    first = second :=
  (String.append_right_inj _).mp same

namespace Keyspace

/-- A missing key is no error: `ErrNotFound` becomes the `false` result. -/
def Get (space : Keyspace) (key : String) : Option Bytes := space (redisKey key)

def Set (space : Keyspace) (key : String) (response : Bytes) : Keyspace :=
  Function.update space (redisKey key) (some response)

end Keyspace

end ModelGate.Cache
