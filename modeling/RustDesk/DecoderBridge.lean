import RustDesk.CodecNegotiation
import RustDesk.MapCache
import RustDesk.ParamSets
import RustDesk.PartialReads

/-!
# The bridge to the decoder

The client sends access units over a socket to a daemon that owns the decoder, and the daemon
sends back the pictures. Each direction has a header in front of every message; the two sides
have been written apart, one in Rust and one in C, so each has its own constants and checks here.

Four threads share the connection: `GokeDecoder` writes the units and `session` reads them,
`drain_loop` writes the pictures and `render_loop` reads them. A call that is interrupted
is repeated and changes nothing.
-/

namespace RustDesk.Goke

open PartialReads (Reading Link)

def le32 (n : Nat) : Bytes := toLeBytes 4 n

/-- The words of a header. -/
def word (bytes : Bytes) (i : Nat) : Nat := ofLeBytes ((bytes.drop (4 * i)).take 4)

/-! ### The client -/

def hello : Nat := 0x474b4849

def input : Nat := 0x474b494e

def outputNv21 : Nat := 0x47524632

def maxYuv : Nat := 4096 * 2304 * 3 / 2

/-- `codec_id`; the format that is not known is `none`. -/
def codecId : Option CodecFormat → Option Nat
  | some .h264 => some 4
  | some .h265 => some 36
  | _ => none

structure GokeDecoder where
  csdSent : Bool := false
  hevc : Bool
  deriving DecidableEq, Repr

namespace GokeDecoder

/-- `new`, with what it writes; there has to be a surface and a daemon that listens. -/
def new (codec : Option CodecFormat) (surface connected : Bool) : Option (GokeDecoder × List Bytes) :=
  match codecId codec with
  | none => none
  | some id =>
    if surface && connected then some ({ hevc := id == 36 }, [le32 hello, le32 id]) else none

/-- What `send` writes; the length has to fit a `u32`. -/
def send (data : Bytes) : Option (List Bytes) :=
  if data.length < 2 ^ 32 then some [le32 input, le32 data.length, data] else none

/-- The parameter sets, before the first unit. -/
def csd (d : GokeDecoder) (data : Bytes) : Option (Option Bytes) :=
  if d.csdSent then some none else extractParamSets data d.hevc

/-- The unit itself; the result says whether the call succeeds. -/
def sendUnit (d : GokeDecoder) (sent : List Bytes) (data : Bytes) : List Bytes × Bool × GokeDecoder :=
  match send data with
  | none => (sent, false, { d with csdSent := true })
  | some out => (sent ++ out, true, { d with csdSent := true })

/-- What `decode` writes; `none` is a panic. -/
def decode (d : GokeDecoder) (data : Bytes) : Option (List Bytes × Bool × GokeDecoder) :=
  match d.csd data with
  | none => none
  | some none => some (d.sendUnit [] data)
  | some (some csd) =>
    match send csd with
    | none => some ([], false, d)
    | some out => some (d.sendUnit out data)

end GokeDecoder

/-! ### `session` -/

inductive Received
  | hello (codec : Nat)
  | unit (data : Bytes)
  deriving DecidableEq, Repr

inductive SessionEnd
  | badHello
  | badHeader
  | setup
  | getBuffer
  | putBuffer
  | stopped
  deriving DecidableEq, Repr

inductive SessionStage
  | hello
  | header
  | data (length : Nat)
  | closed (reason : SessionEnd)
  deriving DecidableEq, Repr

/-- `input` counts the units that the decoder has taken. -/
structure Session where
  stage : SessionStage := .hello
  received : List Received := []
  input : Nat := 0
  deriving DecidableEq, Repr

/-- The answers of the decoder: whether it can be opened, what `get_buf` returns with the
address and the room of the buffer, and what `put_buf` returns. -/
structure DecoderCalls where
  opened : Bool := true
  getBuffer : BitVec 32 := 0
  address : BitVec 32 := 1
  room : BitVec 32 := BitVec.allOnes 32
  putBuffer : BitVec 32 := 0

def gokeMaxInput : Nat := 16 * 1024 * 1024

namespace Session

variable (s : Session)

def close (reason : SessionEnd) : Session := { s with stage := .closed reason }

/-- The bytes of the `read_full` in progress. -/
def want : Nat :=
  match s.stage with
  | .hello => 8
  | .header => 8
  | .data length => length
  | .closed _ => 0

def onHello (calls : DecoderCalls) (magic codec : Nat) : Session :=
  if magic ≠ 0x474b4849 ∨ (codec ≠ 4 ∧ codec ≠ 36) then s.close .badHello
  else
    let s : Session := { s with received := s.received ++ [.hello codec] }
    if calls.opened then { s with stage := .header } else s.close .setup

def onHeader (magic length : Nat) : Session :=
  if magic ≠ 0x474b494e ∨ length = 0 ∨ gokeMaxInput < length then s.close .badHeader
  else { s with stage := .data length }

def onData (calls : DecoderCalls) (length : Nat) (data : Bytes) : Session :=
  let s : Session := { s with received := s.received ++ [.unit data] }
  if calls.getBuffer ≠ 0 ∨ calls.address = 0 ∨ calls.room.toNat < length then s.close .getBuffer
  else if calls.putBuffer ≠ 0 then s.close .putBuffer
  else { s with stage := .header, input := s.input + 1 }

def take (calls : DecoderCalls) (bytes : Bytes) : Session :=
  match s.stage with
  | .hello => s.onHello calls (word bytes 0) (word bytes 1)
  | .header => s.onHeader (word bytes 0) (word bytes 1)
  | .data length => s.onData calls length bytes
  | .closed _ => s

def reader (calls : DecoderCalls) : PartialReads.Reader UInt8 Session where
  want := want
  take s bytes := s.take calls bytes

/-- It goes on reading. -/
def Open : Prop := ∀ reason, s.stage ≠ .closed reason

instance : Decidable s.Open :=
  match hs : s.stage with
  | .hello => .isTrue fun _ hclosed => nomatch hs.symm.trans hclosed
  | .header => .isTrue fun _ hclosed => nomatch hs.symm.trans hclosed
  | .data _ => .isTrue fun _ hclosed => nomatch hs.symm.trans hclosed
  | .closed reason => .isFalse fun hopen => hopen reason hs

/-- A header has been rejected. -/
def Rejected : Prop := s.stage = .closed .badHello ∨ s.stage = .closed .badHeader

end Session

/-! ### `drain_loop` -/

/-- A picture as it is sent: the two planes are `ow * oh` and `ow * oh / 2` bytes. -/
structure Nv21 where
  width : Nat
  height : Nat
  y : Bytes
  vu : Bytes
  deriving DecidableEq, Repr

/-- `n` bytes from a pointer on. -/
def bytesOf (p : Plane) (n : Nat) : Bytes := (List.range n).map p

def Picture.nv21 (p : Picture) : Nv21 where
  width := p.width
  height := p.height
  y := bytesOf p.y (u32 (p.width * p.height))
  vu := bytesOf p.vu (u32 (p.width * p.height) / 2)

/-- The six words before a picture. -/
def Picture.head (p : Picture) : Bytes :=
  ([0x47524632, p.width, p.height, u32 (p.width * p.height), u32 (p.width * p.height) / 2,
    p.width].map le32).flatten

/-- What `drain_loop` writes for a picture. -/
def Picture.message (p : Picture) : List Bytes := [p.head, p.nv21.y, p.nv21.vu]

/-- `emitted` are the pictures that were sent or are being sent. -/
structure Drain where
  daemon : Daemon
  emitted : List Nv21 := []

/-! ### `render_loop` -/

inductive RenderEnd
  | badHeader
  | overflow
  | geometry
  | lock
  | surface
  | convert
  | post
  | stopped
  deriving DecidableEq, Repr

inductive RenderStage
  | header
  | planes (width height ylen vulen : Nat)
  | closed (reason : RenderEnd)
  deriving DecidableEq, Repr

/-- `obtained` are the pictures that were read. -/
structure Render where
  stage : RenderStage := .header
  size : Nat × Nat := (0, 0)
  frames : Nat := 0
  obtained : List Nv21 := []
  deriving DecidableEq, Repr

/-- The answers of the window and of the conversion. -/
structure WindowCalls where
  setBuffersGeometry : Int := 0
  lock : Int := 0
  bits : Bool := true
  stride : Int := 4096
  height : Int := 2304
  nv21ToArgb : Int := 0
  unlockAndPost : Int := 0

/-- Products and sums of `u32`; `none` is an overflow. -/
def checkedU32 (n : Nat) : Option Nat := if n < 2 ^ 32 then some n else none

/-- The checks of a header, in their order. -/
def headerAccepted (magic width height ylen vulen : Nat) : Option Bool :=
  if magic ≠ outputNv21 ∨ width = 0 ∨ height = 0 ∨ 4096 < width ∨ 2304 < height then some false
  else do
    let area ← checkedU32 (width * height)
    if ylen ≠ area then some false
    else if vulen ≠ area / 2 then some false
    else do
      let total ← checkedU32 (ylen + vulen)
      some (decide (total ≤ maxYuv))

namespace Render

variable (r : Render)

def close (reason : RenderEnd) : Render := { r with stage := .closed reason }

/-- The bytes of the `read_exact` in progress. -/
def want : Nat :=
  match r.stage with
  | .header => 24
  | .planes _ _ ylen vulen => ylen + vulen
  | .closed _ => 0

def onHeader (words : Nat → Nat) : Render :=
  match headerAccepted (words 0) (words 1) (words 2) (words 3) (words 4) with
  | none => r.close .overflow
  | some false => r.close .badHeader
  | some true => { r with stage := .planes (words 1) (words 2) (words 3) (words 4) }

/-- The picture is drawn to the window. -/
def present (calls : WindowCalls) (width height : Nat) : Render :=
  if r.size ≠ (width, height) ∧ calls.setBuffersGeometry ≠ 0 then r.close .geometry
  else
    let r := { r with size := (width, height) }
    if calls.lock ≠ 0 ∨ calls.bits = false then r.close .lock
    else if calls.stride < width ∨ calls.height < height then r.close .surface
    else if calls.nv21ToArgb ≠ 0 then r.close .convert
    else if calls.unlockAndPost ≠ 0 then r.close .post
    else { r with stage := .header, frames := (r.frames + 1) % 2 ^ 32 }

def onPlanes (calls : WindowCalls) (width height ylen : Nat) (yuv : Bytes) : Render :=
  let picture : Nv21 := { width, height, y := yuv.take ylen, vu := yuv.drop ylen }
  { r with obtained := r.obtained ++ [picture] }.present calls width height

def take (calls : WindowCalls) (bytes : Bytes) : Render :=
  match r.stage with
  | .header => r.onHeader (word bytes)
  | .planes width height ylen _ => r.onPlanes calls width height ylen bytes
  | .closed _ => r

def reader (calls : WindowCalls) : PartialReads.Reader UInt8 Render where
  want := want
  take r bytes := r.take calls bytes

def Open : Prop := ∀ reason, r.stage ≠ .closed reason

instance : Decidable r.Open :=
  match hr : r.stage with
  | .header => .isTrue fun _ hclosed => nomatch hr.symm.trans hclosed
  | .planes .. => .isTrue fun _ hclosed => nomatch hr.symm.trans hclosed
  | .closed reason => .isFalse fun hopen => hopen reason hr

/-- A header has been rejected, or its check has overflowed. -/
def Rejected : Prop := r.stage = .closed .badHeader ∨ r.stage = .closed .overflow

end Render

/-! ### The connection -/

/-- `units` are those that were passed to `decode`. -/
structure Bridge where
  client : GokeDecoder
  panicked : Bool := false
  units : List Bytes := []
  up : Link UInt8 Session
  drain : Drain
  down : Link UInt8 Render

/-- A call of `decode`, a frame from the decoder, a call of one of the threads on the socket, or
the end of a thread. -/
inductive BridgeAction
  | decode (data : Bytes)
  | clientWrite (n : Nat)
  | clientFails
  | sessionRead (n : Nat) (calls : DecoderCalls)
  | sessionStops
  | frame (f : Frame) (first second : Option Nat) (memory : Nat → Plane) (stack : Nat × Nat → Nat)
  | drainWrite (n : Nat)
  | drainFails
  | renderRead (n : Nat) (calls : WindowCalls)
  | renderStops

namespace Bridge

variable (w : Bridge)

/-- A connection, after `accept`. -/
def start (client : GokeDecoder) (out : List Bytes) (daemon : Daemon) : Bridge where
  client
  up := { out, reader := { state := {} } }
  drain := { daemon }
  down := { reader := { state := {} } }

def onDecode (data : Bytes) : Bridge :=
  match w.client.decode data with
  | none => { w with panicked := true, units := w.units ++ [data] }
  | some (out, _, client) =>
    { w with client, up := w.up.send out, units := w.units ++ [data] }

/-- One turn of `drain_loop`. A frame that is not supported ends the connection. -/
def onFrame (f : Frame) (first second : Option Nat) (memory : Nat → Plane)
    (stack : Nat × Nat → Nat) : Bridge :=
  if !Daemon.supported f then { w with down := w.down.fail }
  else
    match w.drain.daemon.nv21FromFrame f first second memory stack with
    | (none, daemon) => { w with drain := { w.drain with daemon } }
    | (some p, daemon) =>
      { w with
        drain := { daemon, emitted := w.drain.emitted ++ [p.nv21] }
        down := w.down.send p.message }

def step : BridgeAction → Bridge
  | .decode data => w.onDecode data
  | .clientWrite n => { w with up := w.up.write n }
  | .clientFails => { w with up := w.up.fail }
  | .sessionRead n calls => { w with up := w.up.read (Session.reader calls) n }
  | .sessionStops =>
    { w with up := { w.up with reader := { state := w.up.reader.state.close .stopped } } }
  | .frame f first second memory stack => w.onFrame f first second memory stack
  | .drainWrite n => { w with down := w.down.write n }
  | .drainFails => { w with down := w.down.fail }
  | .renderRead n calls => { w with down := w.down.read (Render.reader calls) n }
  | .renderStops =>
    { w with down := { w.down with reader := { state := w.down.reader.state.close .stopped } } }

/-- A thread makes its next call when the one before has returned; a unit is not empty and has at
most 16 MiB. -/
def Possible : BridgeAction → Prop
  | .decode data => w.up.broken = false ∧ w.up.out = [] ∧ data ≠ [] ∧ data.length ≤ gokeMaxInput
  | .clientWrite n => w.up.CanWrite n
  | .sessionRead n calls => w.up.CanRead (Session.reader calls) n
  | .frame .. => w.down.broken = false ∧ w.down.out = []
  | .drainWrite n => w.down.CanWrite n
  | .renderRead n calls => w.down.CanRead (Render.reader calls) n
  | .sessionStops => w.up.reader.state.Open
  | .renderStops => w.down.reader.state.Open
  | .clientFails | .drainFails => True

instance : ∀ a, Decidable (w.Possible a)
  | .decode _ => inferInstanceAs (Decidable (_ ∧ _))
  | .clientWrite n => inferInstanceAs (Decidable (w.up.CanWrite n))
  | .sessionRead n calls => inferInstanceAs (Decidable (w.up.CanRead (Session.reader calls) n))
  | .frame .. => inferInstanceAs (Decidable (_ ∧ _))
  | .drainWrite n => inferInstanceAs (Decidable (w.down.CanWrite n))
  | .renderRead n calls => inferInstanceAs (Decidable (w.down.CanRead (Render.reader calls) n))
  | .sessionStops => inferInstanceAs (Decidable w.up.reader.state.Open)
  | .renderStops => inferInstanceAs (Decidable w.down.reader.state.Open)
  | .clientFails => .isTrue trivial
  | .drainFails => .isTrue trivial

end Bridge

end RustDesk.Goke
