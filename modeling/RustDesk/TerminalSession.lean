import RustDesk.OutputBuffer
import Mathlib.Data.Finset.Basic

/-!
# One terminal session, and what it sends

A session object belongs to one shell: the reader thread of the shell puts what it reads
into a channel, and `read_outputs` takes it out, remembers it and sends it on. `poll` is
what `read_outputs` does with one session while it holds the lock of the session.
-/

namespace RustDesk

def channelBufferSize : Nat := 500

def compressThreshold : Nat := 512

def defaultReconnectBufferBytes : Nat := 8 * 1024

def maxSigwinchPhaseAttempts : Nat := 3

/-- The compressor of the library: either direction may fail. -/
structure Zstd where
  encode : Bytes → Option Bytes
  decode : Bytes → Option Bytes

namespace Zstd

/-- An error is only logged: the result is empty then. -/
def compress (z : Zstd) (data : Bytes) : Bytes := (z.encode data).getD []

/-- `unwrap_or_default` -/
def decompress (z : Zstd) (data : Bytes) : Bytes := (z.decode data).getD []

/-- Compressing succeeds, and decompressing undoes it. -/
def Lossless (z : Zstd) : Prop :=
  ∀ data, ∃ packed, z.encode data = some packed ∧ z.decode packed = some data

/-- A compressor that stores its input as it is. -/
def stored : Zstd where
  encode := some
  decode := some

theorem lossless_stored : stored.Lossless := fun data => ⟨data, rfl, rfl⟩

end Zstd

structure TerminalOpened where
  terminalId : Int
  success : Bool
  message : String
  pid : Nat
  serviceId : String
  replayTerminalOutput : Bool := false
  persistentSessions : Finset Int := ∅
  deriving DecidableEq

structure TerminalData where
  terminalId : Int
  data : Bytes
  compressed : Bool := false
  deriving DecidableEq, Repr

structure TerminalClosed where
  terminalId : Int
  exitCode : Int
  deriving DecidableEq, Repr

inductive TerminalResponse
  | opened (opened : TerminalOpened)
  | data (data : TerminalData)
  | closed (closed : TerminalClosed)
  deriving DecidableEq

def createTerminalDataResponse (z : Zstd) (terminalId : Int) (data : Bytes) : TerminalResponse :=
  if data.length > compressThreshold then
    let compressed := z.compress data
    if compressed.length < data.length then .data { terminalId, data := compressed, compressed := true }
    else .data { terminalId, data }
  else .data { terminalId, data }

/-- The output for a terminal that a client finds in a response. -/
def TerminalResponse.output (z : Zstd) (terminalId : Int) : TerminalResponse → Bytes
  | .data d =>
    if d.terminalId = terminalId then if d.compressed then z.decompress d.data else d.data else []
  | _ => []

inductive SigwinchAction
  | tempResize
  | restore
  deriving DecidableEq, Repr

inductive SigwinchPhase
  | idle
  | tempResize (retries : Nat)
  | restore (retries : Nat)
  deriving DecidableEq, Repr

/-- The phase after an attempt was made or given up, and the attempt. -/
def SigwinchPhase.attempt : SigwinchPhase → SigwinchPhase × Option SigwinchAction
  | .tempResize 0 => (.idle, none)
  | .tempResize (retries + 1) => (.tempResize retries, some .tempResize)
  | .restore 0 => (.idle, none)
  | .restore (retries + 1) => (.restore retries, some .restore)
  | .idle => (.idle, none)

/-- The phase after an attempt that succeeded. -/
def SigwinchAction.next : SigwinchAction → SigwinchPhase
  | .tempResize => .restore maxSigwinchPhaseAttempts
  | .restore => .idle

inductive SessionState
  | closed
  | active (pendingBuffer : Option Bytes) (sigwinch : SigwinchPhase)
  deriving DecidableEq, Repr

/-- The result of `try_wait` on a child process. -/
inductive WaitResult
  | exited (code : Int)
  | running
  | failed
  deriving DecidableEq, Repr

/-- `outputRx` holds the messages that wait in the channel, the oldest first; of the PTY, the
child process and the reader thread it matters only whether they are there. -/
structure TerminalSession where
  ptyPair : Bool := false
  child : Bool := false
  outputRx : Option (List Bytes) := none
  readerThread : Bool := false
  outputBuffer : OutputBuffer := {}
  pid : Nat := 0
  rows : Nat
  cols : Nat
  closedMessageSent : Bool := false
  state : SessionState := .closed
  deriving DecidableEq, Repr

/-- What `read_outputs` learns from the system about a session. -/
structure Sighting where
  readerFinished : Bool := false
  tryWait : WaitResult := .running
  resize : Nat → Nat → Bool := fun _ _ => true

namespace TerminalSession

/-- The messages in the channel. -/
def channel (s : TerminalSession) : List Bytes := s.outputRx.getD []

/-- What is left to be replayed. -/
def pending (s : TerminalSession) : Bytes :=
  match s.state with
  | .active (some buffer) _ => buffer
  | _ => []

/-- `try_send_output`: a full channel drops the message, a closed one ends the reader. -/
def trySendOutput (s : TerminalSession) (data : Bytes) : TerminalSession :=
  match s.outputRx with
  | some queue =>
    if queue.length < channelBufferSize then { s with outputRx := some (queue ++ [data]) } else s
  | none => s

def doSigwinchResize (s : TerminalSession) (resize : Nat → Nat → Bool) (action : SigwinchAction) :
    Bool :=
  if s.rows = 0 ∨ s.cols = 0 then false
  else
    let targetRows := match action with
      | .tempResize => if s.rows > 2 then s.rows - 1 else s.rows + 1
      | .restore => s.rows
    if s.ptyPair then resize targetRows s.cols else false

/-- The session has ended, and no one has noticed before. -/
def shouldSendClosed (s : TerminalSession) (o : Sighting) : Bool :=
  !s.closedMessageSent &&
    ((s.readerThread && o.readerFinished) ||
      (s.child && (match o.tryWait with | .exited _ => true | _ => false)))

/-- The messages taken out of the channel, with the buffer that remembers them. -/
def drain (s : TerminalSession) : TerminalSession :=
  { s with
    outputRx := s.outputRx.map fun _ => []
    outputBuffer := s.outputBuffer.appendAll s.channel }

/-- The responses for the pending replay. -/
def replay (z : Zstd) (terminalId : Int) : Option Bytes → List TerminalResponse
  | some buffer => if buffer.isEmpty then [] else [createTerminalDataResponse z terminalId buffer]
  | none => []

/-- The turn of one session in `read_outputs`: the session after it, and the responses. -/
def poll (z : Zstd) (terminalId : Int) (o : Sighting) (s : TerminalSession) :
    TerminalSession × List TerminalResponse :=
  let received := s.channel
  let s := { s.drain with closedMessageSent := s.closedMessageSent || s.shouldSendClosed o }
  match s.state with
  | .closed => (s, [])
  | .active pendingBuffer sigwinch =>
    let (sigwinch, action) := sigwinch.attempt
    let sigwinch := match action with
      | some action => if s.doSigwinchResize o.resize action then action.next else sigwinch
      | none => sigwinch
    ({ s with state := .active none sigwinch },
      replay z terminalId pendingBuffer ++ received.map (createTerminalDataResponse z terminalId))

/-- The child is taken out of the session, and its exit code asked for. -/
def takeChild (s : TerminalSession) (wait : WaitResult) : TerminalSession × Int :=
  ({ s with child := false },
    match s.child, wait with
    | true, .exited code => code
    | _, _ => 0)

/-- `handle_open` finds the session: what waits in the channel is drained, up to a bound, and
the most recent output is set aside for the client. -/
def reconnect (s : TerminalSession) : TerminalSession :=
  let backlog := s.channel.take channelBufferSize
  let outputBuffer := s.outputBuffer.appendAll backlog
  let buffer := outputBuffer.getRecent defaultReconnectBufferBytes
  { s with
    outputRx := s.outputRx.map (List.drop channelBufferSize)
    outputBuffer
    state := .active (if buffer.isEmpty then none else some buffer)
      (.tempResize maxSigwinchPhaseAttempts) }

end TerminalSession

end RustDesk
