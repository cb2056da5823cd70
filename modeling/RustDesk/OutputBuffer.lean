import RustDesk.Message
import RustDesk.Utf8Text

/-!
# The output that a terminal session remembers

`OutputBuffer` keeps the last output of a session by lines, so that a client which comes
back can be shown the most recent part of it. The newest line may still lack its newline;
the oldest lines go when there are too many bytes or too many lines.
-/

namespace RustDesk

def maxOutputBufferSize : Nat := 1024 * 1024

def maxBufferLines : Nat := 10000

def newline : UInt8 := 10

structure OutputBuffer where
  lines : List Bytes := []
  totalSize : Nat := 0
  lastLineIncomplete : Bool := false
  deriving DecidableEq, Repr

namespace OutputBuffer

/-- One line of new data, stored behind the others. -/
def pushBack (b : OutputBuffer) (line : Bytes) : OutputBuffer :=
  { b with lines := b.lines ++ [line], totalSize := b.totalSize + line.length }

/-- The loop of `append` over the pieces between the newlines. -/
def pushLines (endsWithNewline : Bool) : List Bytes → OutputBuffer → OutputBuffer
  | [], b => b
  | [line], b =>
    if line.isEmpty then b
    else if endsWithNewline then b.pushBack (line ++ [newline])
    else { b.pushBack line with lastLineIncomplete := true }
  | line :: next :: rest, b =>
    pushLines endsWithNewline (next :: rest) (b.pushBack (line ++ [newline]))

/-- The loop of `append` that drops the oldest lines. -/
def trim : List Bytes → Nat → Bool → OutputBuffer
  | [], totalSize, incomplete =>
    if totalSize > maxOutputBufferSize then {} else ⟨[], totalSize, incomplete⟩
  | removed :: lines, totalSize, incomplete =>
    if totalSize > maxOutputBufferSize ∨ (removed :: lines).length > maxBufferLines then
      trim lines
        (if removed.length > totalSize then (lines.map List.length).sum
          else totalSize - removed.length)
        (if lines.isEmpty then false else incomplete)
    else ⟨removed :: lines, totalSize, incomplete⟩

/-- What `append` does with the data behind the line that was still incomplete. -/
def appendLines (b : OutputBuffer) (remaining : Bytes) : OutputBuffer :=
  let b := b.pushLines (remaining.getLast? = some newline) (remaining.splitOn newline)
  trim b.lines b.totalSize b.lastLineIncomplete

def append (b : OutputBuffer) (data : Bytes) : OutputBuffer :=
  if data.isEmpty then b
  else
    match b.lastLineIncomplete, b.lines.getLast? with
    | true, some lastLine =>
      match data.findIdx? (· = newline) with
      | some pos =>
        appendLines
          ⟨b.lines.dropLast ++ [lastLine ++ data.take (pos + 1)], b.totalSize + (pos + 1), false⟩
          (data.drop (pos + 1))
      -- no newline yet: nothing is trimmed on this way out
      | none =>
        { b with
          lines := b.lines.dropLast ++ [lastLine ++ data]
          totalSize := b.totalSize + data.length }
    | _, _ => appendLines b data

/-- The end of a line from the next character on: at most `skips` continuation bytes go. -/
def alignTail : (skips : Nat) → Bytes → Bytes
  | 0, tail => tail
  | _, [] => []
  | skips + 1, byte :: tail =>
    if Utf8Text.IsContinuation byte then alignTail skips tail else byte :: tail

/-- The loop of `get_recent` over the lines, newest first; `chunks` has the oldest first. -/
def collectRecent (maxBytes : Nat) : List Bytes → Nat → List Bytes → List Bytes
  | [], _, chunks => chunks
  | line :: older, size, chunks =>
    if size + line.length > maxBytes then
      if size = 0 ∧ line.length > maxBytes then
        let tail := alignTail 3 (line.drop (line.length - maxBytes))
        if tail.isEmpty then chunks else tail :: chunks
      else chunks
    else collectRecent maxBytes older (size + line.length) (line :: chunks)

def getRecent (b : OutputBuffer) (maxBytes : Nat) : Bytes :=
  if maxBytes = 0 then [] else (collectRecent maxBytes b.lines.reverse 0 []).flatten

/-- The buffer after several messages. -/
def appendAll (b : OutputBuffer) (messages : List Bytes) : OutputBuffer :=
  messages.foldl append b

end OutputBuffer

end RustDesk
