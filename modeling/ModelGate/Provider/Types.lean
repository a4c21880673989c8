import ModelGate.Numeric.Float64

/-! The request, response and stream values of `internal/provider`. -/

set_option autoImplicit false

namespace ModelGate.Provider

open Numeric

structure ChatMessage where
  role : String
  content : String
  deriving DecidableEq

/-- A nil pointer of the source is `none`. -/
structure ChatRequest where
  model : String
  messages : List ChatMessage
  temperature : Option Float64
  topP : Option Float64
  maxTokens : Option Int
  stream : Bool
  deriving DecidableEq

structure ChatUsage where
  promptTokens : Int
  completionTokens : Int
  totalTokens : Int
  deriving DecidableEq, Repr

def ChatUsage.zero : ChatUsage := ⟨0, 0, 0⟩

structure ChatChoice where
  index : Int
  message : ChatMessage
  finishReason : String
  deriving DecidableEq

/-- `provider` carries the tag `json:"-"`: no encoding holds it. -/
structure ChatResponse where
  provider : String
  id : String
  object : String
  created : Int
  model : String
  choices : List ChatChoice
  usage : ChatUsage
  deriving DecidableEq

structure ChatDelta where
  role : String
  content : String
  deriving DecidableEq

structure ChatStreamChoice where
  index : Int
  delta : ChatDelta
  finishReason : Option String
  deriving DecidableEq

structure ChatStreamChunk where
  id : String
  object : String
  created : Int
  model : String
  choices : List ChatStreamChoice
  usage : Option ChatUsage
  deriving DecidableEq

end ModelGate.Provider
