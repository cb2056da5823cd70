import RustDesk.ParamSets
import RustDesk.History
import Mathlib.Data.List.Infix

/-!
# The decoder of the Android system

A `MediaCodec` has to be given the parameter sets of a stream, in a buffer of their own, before
it is given frames. `decode` takes them from the first packet, and it takes note that they were
sent before it sends them. What the codec was given is kept newest first; the answers of the
system to the calls of one `decode` are a parameter of the step.
-/

namespace RustDesk.MediaCodec

open Goke (extractParamSets extractParamSets_some)

inductive DecodeError
  | ndk (code : Int)
  | io (code : Nat)
  | message (text : String)
  | panic
  deriving DecidableEq, Repr

/-- A buffer that was queued, with its flags: 2 for the configuration, 0 for a frame. -/
structure InputBuffer where
  data : Bytes
  flags : Nat
  deriving DecidableEq, Repr

/-- The answers on the way of one input buffer: its size if there is one, then how the write
and `queue_input_buffer` end. -/
structure InputCalls where
  dequeue : Except Int (Option Nat) := .ok (some 65536)
  write : Option Nat := none
  queue : Option Int := none

/-- The answers about the output; `width`, `height` and `stride` are those of the output
format, and `warmup` are the polls of three seconds, with whether they bring a buffer. -/
structure OutputCalls where
  dequeue : Except Int Bool := .ok true
  release : Option Int := none
  width : Option Int := some 1920
  height : Option Int := some 1080
  stride : Option Int := some 1920
  supported : Bool := true
  warmup : List (Except Int Bool) := []

structure Calls where
  csd : InputCalls := {}
  input : InputCalls := {}
  output : OutputCalls := {}

structure MediaCodecDecoder where
  name : String
  renderToSurface : Bool
  csdSent : Bool := false
  warmupExhausted : Bool := false
  queued : List InputBuffer := []
  deriving DecidableEq, Repr

namespace MediaCodecDecoder

variable (d : MediaCodecDecoder)

/-- `self.name.contains("hevc")` -/
def hevc : Bool := decide ("hevc".toList <:+: d.name.toList)

/-- What is done with a buffer from `dequeue_input_buffer`, if there is one. -/
def queueInput (calls : InputCalls) (tooBig : String) (data : Bytes) (flags : Nat) :
    MediaCodecDecoder × Except DecodeError Unit :=
  match calls.dequeue with
  | .error e => (d, .error (.ndk e))
  | .ok none => (d, .ok ())
  | .ok (some room) =>
    if room < data.length then (d, .error (.message tooBig))
    else
      match calls.write with
      | some e => (d, .error (.io e))
      | none =>
        match calls.queue with
        | some e => (d, .error (.ndk e))
        | none => ({ d with queued := ⟨data, flags⟩ :: d.queued }, .ok ())

/-- `self.csd_sent = true` -/
def noted : MediaCodecDecoder := { d with csdSent := true }

def sendCsd (calls : InputCalls) (data : Bytes) : MediaCodecDecoder × Except DecodeError Unit :=
  if d.csdSent then (d, .ok ())
  else
    match extractParamSets data d.hevc with
    | none => (d.noted, .error .panic)
    | some none => (d.noted, .ok ())
    | some (some csd) =>
      d.noted.queueInput calls "csd: the input data size is bigger than input buf" csd 2

def sendFrame (calls : InputCalls) (data : Bytes) : MediaCodecDecoder × Except DecodeError Unit :=
  d.queueInput calls "The input data size is bigger than input buf" data 0

def released (calls : OutputCalls) : Except DecodeError Bool :=
  match calls.release with
  | some e => .error (.ndk e)
  | none => .ok true

/-- What comes of an output buffer. -/
def takeOutput (calls : OutputCalls) : Except DecodeError Bool :=
  if d.renderToSurface then released calls
  else
    match calls.width, calls.height, calls.stride with
    | none, _, _ => .error (.message "Failed to dequeue_output_buffer, width is None")
    | _, none, _ => .error (.message "Failed to dequeue_output_buffer, height is None")
    | _, _, none => .error (.message "Failed to dequeue_output_buffer, stride is None")
    | some _, some _, some _ =>
      if calls.supported then released calls else .error (.message "Unsupported image format")

/-- The polls for the first frame, up to the one that ends them. -/
def warmUp (calls : OutputCalls) : List (Except Int Bool) → Option (Except DecodeError Bool)
  | [] => none
  | .error e :: _ => some (.error (.ndk e))
  | .ok true :: _ => some (released calls)
  | .ok false :: polls => warmUp calls polls

def receive (calls : OutputCalls) : MediaCodecDecoder × Except DecodeError Bool :=
  match calls.dequeue with
  | .error e => (d, .error (.ndk e))
  | .ok true => (d, d.takeOutput calls)
  | .ok false =>
    if d.renderToSurface && !d.warmupExhausted then
      match warmUp calls calls.warmup with
      | some r => (d, r)
      | none => ({ d with warmupExhausted := true }, .ok false)
    else (d, .ok false)

def decode (calls : Calls) (data : Bytes) : MediaCodecDecoder × Except DecodeError Bool :=
  match d.sendCsd calls.csd data with
  | (d, .error e) => (d, .error e)
  | (d, .ok ()) =>
    match d.sendFrame calls.input data with
    | (d, .error e) => (d, .error e)
    | (d, .ok ()) => d.receive calls.output

/-- A packet with the answers that its `decode` gets. -/
structure Packet where
  data : Bytes
  calls : Calls := {}

def step (d : MediaCodecDecoder) (p : Packet) : MediaCodecDecoder := (d.decode p.calls p.data).1

/-- Every frame was queued behind a buffer with these parameter sets. -/
structure ConfigFirst (csd : Bytes) (d : MediaCodecDecoder) : Prop where
  behind : History.Always (fun b before => b.flags = 0 → (⟨csd, 2⟩ : InputBuffer) ∈ before) d.queued

end MediaCodecDecoder

namespace InputCalls

variable (calls : InputCalls)

/-- There is a buffer, with room for so many bytes. -/
def room : Option Nat :=
  match calls.dequeue with
  | .ok room => room
  | .error _ => none

/-- The codec takes the data. -/
def Takes (data : Bytes) : Prop :=
  (∃ room ∈ calls.room, data.length ≤ room) ∧ calls.write = none ∧ calls.queue = none

instance (data : Bytes) : Decidable (calls.Takes data) := inferInstanceAs (Decidable (_ ∧ _))

/-- No buffer was free in time. -/
def Skips : Prop := calls.dequeue = .ok none

instance : Decidable calls.Skips := inferInstanceAs (Decidable (_ = _))

end InputCalls

namespace MediaCodecDecoder

variable {d : MediaCodecDecoder}

/-! ### What one call queues -/

theorem queueInput_takes {calls : InputCalls} {data : Bytes} (h : calls.Takes data) (tooBig : String)
    (flags : Nat) :
    d.queueInput calls tooBig data flags = ({ d with queued := ⟨data, flags⟩ :: d.queued }, .ok ()) := by
  obtain ⟨⟨room, hroom, hle⟩, hwrite, hqueue⟩ := h
  unfold InputCalls.room at hroom
  unfold queueInput
  cases hd : calls.dequeue with
  | error e =>
    rw [hd] at hroom
    cases hroom
  | ok r =>
    rw [hd] at hroom
    cases hroom
    dsimp only
    rw [if_neg (by omega), hwrite, hqueue]

theorem queueInput_refuses (d : MediaCodecDecoder) {calls : InputCalls} {data : Bytes}
    (h : ¬calls.Takes data) (tooBig : String) (flags : Nat) :
    ∃ r, d.queueInput calls tooBig data flags = (d, r) ∧ (r = .ok () ↔ calls.Skips) := by
  unfold InputCalls.Takes InputCalls.room at h
  unfold queueInput InputCalls.Skips
  cases hd : calls.dequeue with
  | error e => exact ⟨_, rfl, by simp⟩
  | ok r =>
    cases r with
    | none => exact ⟨_, rfl, by simp⟩
    | some room =>
      rw [hd] at h
      dsimp only
      split_ifs with hbig
      · exact ⟨_, rfl, by simp⟩
      · cases hwrite : calls.write with
        | some e => exact ⟨_, rfl, by simp⟩
        | none =>
          cases hqueue : calls.queue with
          | some e => exact ⟨_, rfl, by simp⟩
          | none => exact absurd ⟨⟨room, rfl, by omega⟩, hwrite, hqueue⟩ h

theorem receive_input (calls : OutputCalls) :
    (d.receive calls).1.queued = d.queued ∧ (d.receive calls).1.csdSent = d.csdSent := by
  unfold receive
  cases calls.dequeue with
  | error e => exact ⟨rfl, rfl⟩
  | ok there =>
    cases there with
    | true => exact ⟨rfl, rfl⟩
    | false =>
      dsimp only
      split_ifs
      · cases warmUp calls calls.warmup with
        | some r => exact ⟨rfl, rfl⟩
        | none => exact ⟨rfl, rfl⟩
      · exact ⟨rfl, rfl⟩

/-- The frame of a packet, if the codec takes it. -/
def frames (p : Packet) : List InputBuffer :=
  if p.calls.input.Takes p.data then [⟨p.data, 0⟩] else []

/-- What `decode` does once the parameter sets are dealt with. -/
def afterCsd (d : MediaCodecDecoder) (p : Packet) : MediaCodecDecoder × Except DecodeError Bool :=
  match d.sendFrame p.calls.input p.data with
  | (d, .error e) => (d, .error e)
  | (d, .ok ()) => d.receive p.calls.output

theorem afterCsd_input (d : MediaCodecDecoder) (p : Packet) :
    (d.afterCsd p).1.queued = frames p ++ d.queued ∧ (d.afterCsd p).1.csdSent = d.csdSent := by
  unfold afterCsd sendFrame frames
  by_cases htakes : p.calls.input.Takes p.data
  · rw [queueInput_takes htakes, if_pos htakes]
    exact receive_input p.calls.output
  · obtain ⟨r, hr, -⟩ := d.queueInput_refuses htakes
      "The input data size is bigger than input buf" 0
    rw [hr, if_neg htakes]
    cases r with
    | error e => exact ⟨rfl, rfl⟩
    | ok u => exact receive_input p.calls.output

theorem step_sent (h : d.csdSent = true) (p : Packet) :
    (d.step p).queued = frames p ++ d.queued ∧ (d.step p).csdSent = true := by
  have hcsd : d.sendCsd p.calls.csd p.data = (d, .ok ()) := if_pos h
  have hstep : d.step p = (d.afterCsd p).1 := by
    unfold step decode
    rw [hcsd]
    rfl
  rw [hstep, ← h]
  exact afterCsd_input d p

/-- Once the parameter sets are dealt with, frames are all that is queued. -/
theorem run_queued (h : d.csdSent = true) (ps : List Packet) :
    (History.run step d ps).queued = (ps.flatMap frames).reverse ++ d.queued := by
  induction ps generalizing d with
  | nil => rfl
  | cons p ps ih =>
    obtain ⟨hqueued, hsent⟩ := step_sent h p
    have hone : (frames p).reverse = frames p := by
      unfold frames
      split_ifs <;> rfl
    rw [History.run_cons, ih hsent, hqueued, List.flatMap_cons, List.reverse_append, hone,
      List.append_assoc]

/-! ### The first call -/

/-- A decoder as `create_media_codec` makes it. -/
def create (name : String) (renderToSurface : Bool) : MediaCodecDecoder where
  name := name
  renderToSurface := renderToSurface

theorem first_step {name : String} {renderToSurface : Bool} {p : Packet} {csd : Bytes}
    (hcsd : extractParamSets p.data (create name renderToSurface).hevc = some (some csd)) :
    ((create name renderToSurface).step p).csdSent = true ∧
      ((create name renderToSurface).step p).queued =
        if p.calls.csd.Takes csd then frames p ++ [⟨csd, 2⟩]
        else if p.calls.csd.Skips then frames p else [] := by
  have hsend : (create name renderToSurface).sendCsd p.calls.csd p.data =
      (create name renderToSurface).noted.queueInput p.calls.csd
        "csd: the input data size is bigger than input buf" csd 2 := by
    unfold sendCsd
    rw [if_neg (by exact Bool.false_ne_true), hcsd]
  unfold step decode
  rw [hsend]
  by_cases htakes : p.calls.csd.Takes csd
  · rw [queueInput_takes htakes, if_pos htakes]
    obtain ⟨hqueued, hsent⟩ :=
      afterCsd_input { (create name renderToSurface).noted with queued := [⟨csd, 2⟩] } p
    exact ⟨hsent, hqueued⟩
  · obtain ⟨r, hr, hskip⟩ := (create name renderToSurface).noted.queueInput_refuses htakes
      "csd: the input data size is bigger than input buf" 2
    rw [hr, if_neg htakes]
    cases r with
    | error e =>
      rw [if_neg fun h => nomatch hskip.mpr h]
      exact ⟨rfl, rfl⟩
    | ok u =>
      rw [if_pos (hskip.mp rfl)]
      obtain ⟨hqueued, hsent⟩ := afterCsd_input (create name renderToSurface).noted p
      exact ⟨hsent, hqueued.trans (List.append_nil _)⟩

/-- None of the packets is taken as a frame. The first is not tried when its parameter sets end
in an error. -/
def NoneTaken (p : Packet) (ps : List Packet) : Prop :=
  (p.calls.csd.Skips → ¬p.calls.input.Takes p.data) ∧ ∀ q ∈ ps, ¬q.calls.input.Takes q.data

theorem frames_eq_nil {p : Packet} : frames p = [] ↔ ¬p.calls.input.Takes p.data := by
  unfold frames
  split_ifs with h
  · exact ⟨nofun, fun hno => absurd h hno⟩
  · exact ⟨fun _ => h, fun _ => rfl⟩

theorem flags_frames {p : Packet} : ∀ b ∈ frames p, b.flags = 0 := by
  unfold frames
  split_ifs
  · exact List.forall_mem_singleton.mpr rfl
  · exact nofun

theorem always_behind {csd : Bytes} (fs : List InputBuffer) (hfs : ∀ b ∈ fs, b.flags = 0) :
    History.Always (fun b before => b.flags = 0 → (⟨csd, 2⟩ : InputBuffer) ∈ before) (fs ++ [⟨csd, 2⟩]) := by
  induction fs with
  | nil => exact ⟨nofun, trivial⟩
  | cons b fs ih =>
    obtain ⟨-, hrest⟩ := List.forall_mem_cons.mp hfs
    exact ⟨fun _ => List.mem_append_right fs (List.mem_singleton_self _), ih hrest⟩

theorem always_alone {csd : Bytes} {fs : List InputBuffer} (hfs : ∀ b ∈ fs, b.flags = 0) :
    History.Always (fun b before => b.flags = 0 → (⟨csd, 2⟩ : InputBuffer) ∈ before) fs ↔ fs = [] := by
  constructor
  · intro h
    cases fs with
    | nil => rfl
    | cons b fs =>
      obtain ⟨hb, hrest⟩ := List.forall_mem_cons.mp hfs
      have hconfig := hrest _ (h.1 hb)
      cases hconfig
  · rintro rfl
    trivial

theorem not_configFirst {csd : Bytes} {b : InputBuffer} {before : List InputBuffer}
    (hqueued : d.queued = b :: before) (hframe : b.flags = 0)
    (hno : (⟨csd, 2⟩ : InputBuffer) ∉ before) : ¬ConfigFirst csd d := by
  rintro ⟨h⟩
  rw [hqueued] at h
  exact hno (h.1 hframe)

/-- Of a run whose first packet has parameter sets: every frame is queued behind them exactly
when the codec takes them at the first call, or takes no packet at all. -/
theorem config_first (name : String) (renderToSurface : Bool) (p : Packet) (ps : List Packet)
    (csd : Bytes) (hcsd : extractParamSets p.data (create name renderToSurface).hevc = some (some csd)) :
    ConfigFirst csd (History.run step (create name renderToSurface) (p :: ps)) ↔
      p.calls.csd.Takes csd ∨ NoneTaken p ps := by
  obtain ⟨hsent, hfirst⟩ := first_step hcsd
  have hrun : (History.run step (create name renderToSurface) (p :: ps)).queued =
      (ps.flatMap frames).reverse ++ ((create name renderToSurface).step p).queued := run_queued hsent ps
  have hlater : ∀ b ∈ (ps.flatMap frames).reverse, b.flags = 0 := by
    intro b hb
    obtain ⟨q, -, hq⟩ := List.mem_flatMap.mp (List.mem_reverse.mp hb)
    exact flags_frames b hq
  have hnone : (ps.flatMap frames).reverse = [] ↔ ∀ q ∈ ps, ¬q.calls.input.Takes q.data := by
    simp only [List.reverse_eq_nil_iff, List.flatMap_eq_nil_iff, frames_eq_nil]
  have hconfig : ∀ d, ConfigFirst csd d ↔ History.Always
      (fun b before => b.flags = 0 → (⟨csd, 2⟩ : InputBuffer) ∈ before) d.queued :=
    fun d => ⟨fun h => h.behind, fun h => ⟨h⟩⟩
  unfold NoneTaken
  rw [hconfig, hrun, hfirst]
  by_cases htakes : p.calls.csd.Takes csd
  · rw [if_pos htakes, ← List.append_assoc]
    refine iff_of_true (always_behind _ ?_) (.inl htakes)
    exact List.forall_mem_append.mpr ⟨hlater, flags_frames⟩
  · rw [if_neg htakes, or_iff_right htakes]
    by_cases hskips : p.calls.csd.Skips
    · rw [if_pos hskips, always_alone (List.forall_mem_append.mpr ⟨hlater, flags_frames⟩),
        List.append_eq_nil_iff, hnone, frames_eq_nil, and_comm]
      exact and_congr_left fun _ => ⟨fun h _ => h, fun h => h hskips⟩
    · rw [if_neg hskips, List.append_nil, always_alone hlater, hnone]
      exact (and_iff_right fun h => absurd h hskips).symm

/-- A packet with a parameter set and a slice. -/
def keyPacket : Bytes := [0, 0, 0, 1, 0x67, 0x42, 0, 0, 1, 0x65, 0x88]

theorem keyPacket_csd :
    extractParamSets keyPacket (create "video/avc" true).hevc = some (some [0, 0, 0, 1, 0x67, 0x42]) := by
  have havc : (create "video/avc" true).hevc = false := by
    unfold hevc create
    decide +kernel
  rw [havc]
  decide +kernel

theorem config_first_taken :
    ConfigFirst [0, 0, 0, 1, 0x67, 0x42]
      (History.run step (create "video/avc" true) [⟨keyPacket, {}⟩, ⟨[0, 0, 1, 0x41], {}⟩]) :=
  (config_first "video/avc" true ⟨keyPacket, {}⟩ [⟨[0, 0, 1, 0x41], {}⟩] _ keyPacket_csd).mpr
    (.inl ⟨⟨65536, rfl, by simp⟩, rfl, rfl⟩)

/-- No buffer is free when the parameter sets are to be sent, but one is a moment later. -/
def hurried : Packet := ⟨keyPacket, { csd := { dequeue := .ok none } }⟩

theorem frame_before_config :
    extractParamSets hurried.data (create "video/avc" true).hevc =
        some (some [0, 0, 0, 1, 0x67, 0x42]) ∧
      ¬ConfigFirst [0, 0, 0, 1, 0x67, 0x42] (History.run step (create "video/avc" true) [hurried]) := by
  have htakes : hurried.calls.input.Takes hurried.data := ⟨⟨65536, rfl, by simp [hurried, keyPacket]⟩, rfl, rfl⟩
  have hno : ¬hurried.calls.csd.Takes [0, 0, 0, 1, 0x67, 0x42] := fun h => nomatch h.1.choose_spec.1
  have hskips : hurried.calls.csd.Skips := rfl
  have hqueued : (History.run step (create "video/avc" true) [hurried]).queued = [⟨keyPacket, 0⟩] := by
    have hfirst := (first_step (show extractParamSets hurried.data _ = _ from keyPacket_csd)).2
    rw [if_neg hno, if_pos hskips, frames, if_pos htakes] at hfirst
    rw [History.run_cons, History.run_nil, hfirst]
    rfl
  exact ⟨keyPacket_csd, not_configFirst hqueued rfl List.not_mem_nil⟩

end MediaCodecDecoder

end RustDesk.MediaCodec
