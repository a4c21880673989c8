import ModelGate.Data.Lines
import ModelGate.Errors
import ModelGate.Provider.Types

/-! The reader of server-sent events, `sseStream`.

What one turn of the loop of `Recv` meets is a `Read`: a line, the end of the
context, or an error of the scanner. The end of the list is the end of the
body. Both kinds of failure last, so they stay in front of the next call.
-/

set_option autoImplicit false

namespace ModelGate.Provider

open Data

/-- `encoding/json` on chunks. A nil chunk has an encoding, and encoding cannot
fail: the fields are strings and integers. -/
structure ChunkCodec where
  marshal : Option ChatStreamChunk → Bytes
  unmarshal : Bytes → Except Err ChatStreamChunk

def maxSSEEventBytes : Nat := 1 <<< 20

inductive Read where
  | line (text : Bytes)
  | ended (error : ContextError)
  | failed (err : Err) (context : Option ContextError)

structure SseStream where
  reads : List Read
  done : Bool

abbrev Received := Option ChatStreamChunk × Option Err

/-- The comparison `err == io.EOF`, which looks at no wrapped error. -/
def isEOF : Err → Bool
  | .sentinel .eof => true
  | _ => false

def decodeSSEData (codec : ChunkCodec) (dataLines : List Bytes) : Received :=
  let data := [10].intercalate dataLines
  if trimSpaceBytes data = utf8 "[DONE]" then (none, some .eof)
  else
    match codec.unmarshal data with
    | .error err => (none, some (.wrap "decode SSE chunk" err))
    | .ok chunk =>
        if chunk.id = "" ∨ chunk.object ≠ "chat.completion.chunk" then
          (none, some (.text "provider returned an incomplete SSE chunk"))
        else (some chunk, none)

namespace SseStream

def decode (codec : ChunkCodec) (reads : List Read) (dataLines : List Bytes) :
    Received × SseStream :=
  let received := decodeSSEData codec dataLines
  (received, ⟨reads, received.2.any isEOF⟩)

/-- The value of a line that is neither blank nor a comment, if its field is `data`. -/
def dataOf (line : Bytes) : Option Bytes :=
  if line.head? = some 58 then none
  else
    match cut 58 line with
    | none => none
    | some (field, value) => if field ≠ utf8 "data" then none else some (trimPrefix 32 value)

/-- The loop of `Recv` with its two local variables. -/
def scan (codec : ChunkCodec) : List Read → List Bytes → Nat → Received × SseStream
  | [], dataLines, _ =>
      -- A body may end without the blank line that would end its last event.
      if dataLines.length > 0 then decode codec [] dataLines
      else ((none, some .eof), ⟨[], true⟩)
  | .ended error :: rest, _, _ => ((none, some (.ofContext error)), ⟨.ended error :: rest, false⟩)
  -- The scanner stopped at an error; a context that ended meanwhile is returned instead.
  | .failed err context :: rest, _, _ =>
      let returned :=
        match context with
        | some error => .ofContext error
        | none => .wrap "read SSE stream" err
      ((none, some returned), ⟨.failed err context :: rest, false⟩)
  | .line text :: rest, dataLines, eventBytes =>
      -- The scanner has cut one carriage return already; this cuts a second one.
      let line := trimSuffix 13 text
      let eventBytes := eventBytes + (line.length + 1)
      if eventBytes > maxSSEEventBytes then
        ((none, some (.text ("SSE event exceeds " ++ toString maxSSEEventBytes ++ " bytes"))),
          ⟨rest, false⟩)
      else if line.isEmpty then
        if dataLines.length = 0 then scan codec rest dataLines 0 else decode codec rest dataLines
      else scan codec rest (dataLines ++ (dataOf line).toList) eventBytes

def Recv (codec : ChunkCodec) (s : SseStream) : Received × SseStream :=
  if s.done then ((none, some .eof), s) else scan codec s.reads [] 0

def after (codec : ChunkCodec) : Nat → SseStream → SseStream
  | 0, s => s
  | calls + 1, s => after codec calls (s.Recv codec).2

/-- What a number of calls return in turn. -/
def recvs (codec : ChunkCodec) : Nat → SseStream → List Received
  | 0, _ => []
  | calls + 1, s => (s.Recv codec).1 :: recvs codec calls (s.Recv codec).2

/-- The reads a scanner makes of lines. Its buffer holds a line with its
newline, and one carriage return goes with the newline. -/
def readLines : List Bytes → List Read
  | [] => []
  | line :: rest =>
      if maxSSEEventBytes ≤ line.length then [.failed (.text "bufio.Scanner: token too long") none]
      else .line (trimSuffix 13 line) :: readLines rest

end SseStream

/-- A stream on a body that is read to its end under a context that lasts. -/
def newSSEStream (body : Bytes) : SseStream := ⟨SseStream.readLines (rawLines body), false⟩

end ModelGate.Provider
