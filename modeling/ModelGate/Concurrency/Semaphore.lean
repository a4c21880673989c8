import Mathlib.Data.List.Count
import Mathlib.Data.Nat.Notation

/-! The semaphore of `internal/concurrency`.

The channel is the number of its elements. Each permit has the `sync.Once` of
its `Release`.
-/

set_option autoImplicit false

namespace ModelGate.Concurrency

structure Semaphore where
  capacity : Nat
  slots : Nat
  spent : List Bool
  deriving DecidableEq

def New (maxConcurrent : Int) : Except String Semaphore :=
  if maxConcurrent ≤ 0 then .error "max concurrent requests must be positive"
  else .ok ⟨maxConcurrent.toNat, 0, []⟩

namespace Semaphore

/-- The send of `Acquire`, which blocks on a full channel. -/
def Acquire (s : Semaphore) : Option (Nat × Semaphore) :=
  if s.slots < s.capacity then
    some (s.spent.length, { s with slots := s.slots + 1, spent := s.spent ++ [false] })
  else none

/-- The receive of the first `Release` blocks on an empty channel. -/
def Release (s : Semaphore) (permit : Nat) : Option Semaphore :=
  if s.spent[permit]? = some false then
    if 0 < s.slots then some { s with slots := s.slots - 1, spent := s.spent.set permit true }
    else none
  else some s

def InFlight (s : Semaphore) : Nat := s.slots

end Semaphore

end ModelGate.Concurrency
