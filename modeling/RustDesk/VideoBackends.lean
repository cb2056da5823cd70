import RustDesk.BytesCodec

/-!
# The decoders behind a video message

A message carries the encoded frames of one codec. `Decoder::handle_video_frame` picks a decoder
for it, and each of these has a loop of its own that passes the frames on. The decoders
themselves are not modelled: they answer each call as they like, and `passed` keeps the frames
that they were given.
-/

namespace RustDesk.VideoBackends

variable {σ ι ρ α : Type}

inductive Chroma
  | i420
  | i444
  deriving DecidableEq, Repr

/-- A decoder with what it remembers. -/
structure Backend (σ ρ : Type) where
  decode : σ → Bytes → σ × Except String ρ
  state : σ

/-- `VpxDecoder` and `AomDecoder` can be asked for what is left. -/
structure FlushBackend (σ ι : Type) extends Backend σ (List ι) where
  flush : σ → σ × Except String (List ι)

/-- Which parts were built. -/
structure Build where
  hwcodec : Bool
  vram : Bool
  mediacodec : Bool
  android : Bool
  deriving DecidableEq, Repr

/-- What the caller hands over to be filled. -/
structure Screen (ι : Type) where
  rgb : Option ι := none
  texture : Option ι := none
  pixelbuffer : Bool := true
  chroma : Option Chroma := none

/-- What is known of an image: whether it can be converted, and its chroma. -/
structure ImageOps (ι : Type) where
  toFmt : ι → Bool
  chroma : ι → Chroma

/-- What a handler comes to. -/
structure Handled (δ ι : Type) where
  decoder : δ
  screen : Screen ι
  passed : List Bytes
  result : Except String Bool

/-! ### The loops -/

/-- What a loop over frames comes to, up to the first error. -/
structure Passing (σ ρ α : Type) where
  backend : Backend σ ρ
  passed : List Bytes
  value : α
  result : Except String Unit

/-- `for frame in frames { … decoder.decode(&frame.data)? … }` -/
def eachFrame (take : α → ρ → α) : List Bytes → α → Backend σ ρ → Passing σ ρ α
  | [], a, b => ⟨b, [], a, .ok ()⟩
  | data :: frames, a, b =>
    match b.decode b.state data with
    | (s, .error e) => ⟨{ b with state := s }, [data], a, .error e⟩
    | (s, .ok r) =>
      let p := eachFrame take frames (take a r) { b with state := s }
      { p with passed := data :: p.passed }

/-- The image that is left when each one replaces the last. -/
def lastImage (last : Option ι) (images : List ι) : Option ι := images.getLast?.or last

/-- `handle_vpxs_video_frame` and `handle_av1s_video_frame` -/
def handleFlushed (ops : ImageOps ι) (b : FlushBackend σ ι) (frames : List Bytes) (screen : Screen ι) :
    Handled (FlushBackend σ ι) ι :=
  let p := eachFrame lastImage frames none b.toBackend
  match p.result with
  | .error e => ⟨{ b with toBackend := p.backend }, screen, p.passed, .error e⟩
  | .ok () =>
    match b.flush p.backend.state with
    | (s, .error e) => ⟨{ b with toBackend := { p.backend with state := s } }, screen, p.passed, .error e⟩
    | (s, .ok images) =>
      let b := { b with toBackend := { p.backend with state := s } }
      match lastImage p.value images with
      | none => ⟨b, screen, p.passed, .ok false⟩
      | some last =>
        ⟨b, { screen with chroma := some (ops.chroma last), rgb := some last }, p.passed, .ok true⟩

def handleVpxsVideoFrame (ops : ImageOps ι) (b : FlushBackend σ ι) (vpxs : List Bytes)
    (screen : Screen ι) : Handled (FlushBackend σ ι) ι := handleFlushed ops b vpxs screen

def handleAv1sVideoFrame (ops : ImageOps ι) (b : FlushBackend σ ι) (av1s : List Bytes)
    (screen : Screen ι) : Handled (FlushBackend σ ι) ι := handleFlushed ops b av1s screen

def finished (p : Passing σ ρ (Screen ι × Bool)) : Handled (Backend σ ρ) ι :=
  ⟨p.backend, p.value.1, p.passed, p.result.map fun _ => p.value.2⟩

def handleHwramVideoFrame (ops : ImageOps ι) (b : Backend σ (List ι)) (frames : List Bytes)
    (screen : Screen ι) : Handled (Backend σ (List ι)) ι :=
  finished (eachFrame (fun a images => images.foldl (fun a image =>
    if ops.toFmt image then ({ a.1 with rgb := some image }, true) else a) a) frames (screen, false) b)

def handleVramVideoFrame (b : Backend σ (List ι)) (frames : List Bytes) (screen : Screen ι) :
    Handled (Backend σ (List ι)) ι :=
  finished (eachFrame (fun a images => images.foldl (fun a image =>
    ({ a.1 with texture := some image }, true)) a) frames (screen, false) b)

def handleGokeVideoFrame (b : Backend σ Bool) (frames : List Bytes) (screen : Screen ι) :
    Handled (Backend σ Bool) ι :=
  finished (eachFrame (fun a accepted => (a.1, accepted)) frames (screen, false) b)

/-- The loop returns from its first round. The pixels that `MediaCodec` writes to `rgb` are left to
the decoder. -/
def handleMediacodecVideoFrame (b : Backend σ Bool) (frames : List Bytes) (screen : Screen ι) :
    Handled (Backend σ Bool) ι :=
  match frames with
  | [] => ⟨b, screen, [], .ok false⟩
  | data :: _ =>
    let r := b.decode b.state data
    ⟨{ b with state := r.1 }, screen, [data], r.2⟩

/-! ### The dispatch -/

/-- The decoders of H264, or those of H265. -/
structure H26x (σ ι : Type) where
  ram : Option (Backend σ (List ι)) := none
  vram : Option (Backend σ (List ι)) := none
  goke : Option (Backend σ Bool) := none
  mediaCodec : Option (Backend σ Bool) := none

structure Decoder (σ ι : Type) where
  vp8 : Option (FlushBackend σ ι) := none
  vp9 : Option (FlushBackend σ ι) := none
  av1 : Option (FlushBackend σ ι) := none
  vp8MediaCodec : Option (Backend σ Bool) := none
  h264 : H26x σ ι := {}
  h265 : H26x σ ι := {}

inductive VideoFrame
  | vp8s (frames : List Bytes)
  | vp9s (frames : List Bytes)
  | av1s (frames : List Bytes)
  | h264s (frames : List Bytes)
  | h265s (frames : List Bytes)
  | other
  deriving DecidableEq, Repr

def VideoFrame.frames : VideoFrame → List Bytes
  | .vp8s frames | .vp9s frames | .av1s frames | .h264s frames | .h265s frames => frames
  | .other => []

namespace Handled

variable {δ δ' : Type}

def map (f : δ → δ') (h : Handled δ ι) : Handled δ' ι := ⟨f h.decoder, h.screen, h.passed, h.result⟩

def refused (d : δ) (screen : Screen ι) (text : String) : Handled δ ι := ⟨d, screen, [], .error text⟩

end Handled

/-- A decoder that is only there in some builds. -/
def onlyIn {β : Type} (built : Bool) (decoder : Option β) : Option β := if built then decoder else none

def handleH26x (build : Build) (text : String) (ops : ImageOps ι) (d : H26x σ ι) (frames : List Bytes)
    (screen : Screen ι) : Handled (H26x σ ι) ι :=
  let screen' := { screen with chroma := some .i420 }
  if (build.hwcodec || build.vram) && !build.android then
    match onlyIn build.vram d.vram, onlyIn build.hwcodec d.ram with
    | some b, _ =>
      (handleVramVideoFrame b frames { screen' with pixelbuffer := false }).map fun b => { d with vram := some b }
    | none, some b => (handleHwramVideoFrame ops b frames screen').map fun b => { d with ram := some b }
    | none, none => .refused d screen' text
  else if build.mediacodec then
    match onlyIn build.android d.goke, d.mediaCodec with
    | some b, _ => (handleGokeVideoFrame b frames screen').map fun b => { d with goke := some b }
    | none, some b =>
      (handleMediacodecVideoFrame b frames screen').map fun b => { d with mediaCodec := some b }
    | none, none => .refused d screen' text
  else .refused d screen "unsupported video frame type!"

def handleVideoFrame (build : Build) (ops : ImageOps ι) (d : Decoder σ ι) (frame : VideoFrame)
    (screen : Screen ι) : Handled (Decoder σ ι) ι :=
  match frame with
  | .vp8s vp8s =>
    match onlyIn build.mediacodec d.vp8MediaCodec, d.vp8 with
    | some b, _ =>
      (handleMediacodecVideoFrame b vp8s { screen with pixelbuffer := false }).map fun b =>
        { d with vp8MediaCodec := some b }
    | none, some b => (handleVpxsVideoFrame ops b vp8s screen).map fun b => { d with vp8 := some b }
    | none, none => .refused d screen "vp8 decoder not available"
  | .vp9s vp9s =>
    match d.vp9 with
    | some b => (handleVpxsVideoFrame ops b vp9s screen).map fun b => { d with vp9 := some b }
    | none => .refused d screen "vp9 decoder not available"
  | .av1s av1s =>
    match d.av1 with
    | some b => (handleAv1sVideoFrame ops b av1s screen).map fun b => { d with av1 := some b }
    | none => .refused d screen "av1 decoder not available"
  | .h264s h264s =>
    (handleH26x build "don't support h264!" ops d.h264 h264s screen).map fun h => { d with h264 := h }
  | .h265s h265s =>
    (handleH26x build "don't support h265!" ops d.h265 h265s screen).map fun h => { d with h265 := h }
  | .other => .refused d screen "unsupported video frame type!"

/-- The `MediaCodec` that a message goes to, if it goes to one. -/
def H26x.mediaCodecOf (build : Build) (d : H26x σ ι) : Option (Backend σ Bool) :=
  if (build.hwcodec || build.vram) && !build.android then none
  else if build.mediacodec then
    match onlyIn build.android d.goke with
    | some _ => none
    | none => d.mediaCodec
  else none

def mediaCodecOf (build : Build) (d : Decoder σ ι) : VideoFrame → Option (Backend σ Bool)
  | .vp8s _ => onlyIn build.mediacodec d.vp8MediaCodec
  | .h264s _ => d.h264.mediaCodecOf build
  | .h265s _ => d.h265.mediaCodecOf build
  | _ => none

/-! ### Every frame is passed on -/

/-- Unless there is an error, the frames are passed on once each and in order. -/
def PassesAll {δ : Type} (h : Handled δ ι) (frames : List Bytes) : Prop :=
  ∀ ok, h.result = .ok ok → h.passed = frames

/-- The message has one frame at most, or the decoder reports an error at the first. -/
def OneOrError (b : Backend σ Bool) (frames : List Bytes) : Prop :=
  frames.length ≤ 1 ∨ ∃ data e, frames.head? = some data ∧ (b.decode b.state data).2 = .error e

section

variable {frames : List Bytes} {screen : Screen ι} {ops : ImageOps ι} {build : Build}

theorem eachFrame_passed {take : α → ρ → α} {a : α} {b : Backend σ ρ}
    (h : (eachFrame take frames a b).result = .ok ()) : (eachFrame take frames a b).passed = frames := by
  induction frames generalizing a b with
  | nil => rfl
  | cons data frames ih =>
    unfold eachFrame at h ⊢
    generalize b.decode b.state data = r at h
    obtain ⟨s, e | r⟩ := r
    · cases h
    · exact congrArg (data :: ·) (ih h)

theorem passesAll_map {δ δ' : Type} {f : δ → δ'} {h : Handled δ ι} :
    PassesAll (h.map f) frames ↔ PassesAll h frames := Iff.rfl

theorem passesAll_refused {δ : Type} (d : δ) (screen : Screen ι) (text : String) (frames : List Bytes) :
    PassesAll (Handled.refused d screen text) frames := fun _ h => nomatch h

theorem passesAll_finished {take : Screen ι × Bool → ρ → Screen ι × Bool} {a : Screen ι × Bool}
    {b : Backend σ ρ} : PassesAll (finished (eachFrame take frames a b)) frames := by
  intro ok h
  apply eachFrame_passed
  unfold finished at h
  cases hr : (eachFrame take frames a b).result with
  | error e =>
    rw [hr] at h
    cases h
  | ok u => rfl

theorem passesAll_flushed (b : FlushBackend σ ι) : PassesAll (handleFlushed ops b frames screen) frames := by
  intro ok h
  have hpassed : (eachFrame lastImage frames none b.toBackend).result = .ok () →
      (eachFrame lastImage frames none b.toBackend).passed = frames := eachFrame_passed
  unfold handleFlushed at h ⊢
  generalize eachFrame lastImage frames none b.toBackend = p at h hpassed
  obtain ⟨backend, passed, value, e | u⟩ := p
  · cases h
  · dsimp only at h ⊢
    generalize b.flush backend.state = r at h
    obtain ⟨s, e | images⟩ := r
    · cases h
    · dsimp only
      cases lastImage value images with
      | none => exact hpassed rfl
      | some last => exact hpassed rfl

/-- The loop over `MediaCodec` passes on the first frame and no other. -/
theorem passesAll_mediacodec (b : Backend σ Bool) :
    PassesAll (handleMediacodecVideoFrame b frames screen) frames ↔ OneOrError b frames := by
  match frames with
  | [] => exact iff_of_true (fun _ _ => rfl) (.inl (Nat.zero_le 1))
  | [data] => exact iff_of_true (fun _ _ => rfl) (.inl (le_refl 1))
  | data :: second :: rest =>
    constructor
    · intro h
      right
      cases hr : (b.decode b.state data).2 with
      | error e => exact ⟨data, e, rfl, hr⟩
      | ok r =>
        have hpassed := h r hr
        cases hpassed
    · rintro (h | ⟨_, e, hdata, he⟩) ok hok
      · simp at h
      · cases hdata
        have hboth := he.symm.trans hok
        cases hboth

theorem passesAll_h26x (text : String) (d : H26x σ ι) :
    PassesAll (handleH26x build text ops d frames screen) frames ↔
      ∀ b, d.mediaCodecOf build = some b → OneOrError b frames := by
  unfold handleH26x H26x.mediaCodecOf
  dsimp only
  split_ifs with hdesktop hmedia
  · -- none of the desktop decoders returns early
    refine iff_of_true ?_ nofun
    cases onlyIn build.vram d.vram with
    | some b => exact passesAll_map.mpr passesAll_finished
    | none =>
      cases onlyIn build.hwcodec d.ram with
      | some b => exact passesAll_map.mpr passesAll_finished
      | none => exact passesAll_refused _ _ _ _
  · cases onlyIn build.android d.goke with
    | some b => exact iff_of_true (passesAll_map.mpr passesAll_finished) nofun
    | none =>
      cases d.mediaCodec with
      | some b => simp [passesAll_map, passesAll_mediacodec]
      | none => exact iff_of_true (passesAll_refused _ _ _ _) nofun
  · exact iff_of_true (passesAll_refused _ _ _ _) nofun

/-- Every decoder is given every frame of a message, once and in order, unless the message goes to
a `MediaCodec` and has more than one frame. -/
theorem frames_passed_iff (build : Build) (ops : ImageOps ι) (d : Decoder σ ι) (frame : VideoFrame)
    (screen : Screen ι) :
    PassesAll (handleVideoFrame build ops d frame screen) frame.frames ↔
      ∀ b, mediaCodecOf build d frame = some b → OneOrError b frame.frames := by
  cases frame with
  | vp8s vp8s =>
    unfold handleVideoFrame mediaCodecOf VideoFrame.frames
    dsimp only
    cases onlyIn build.mediacodec d.vp8MediaCodec with
    | some b => simp [passesAll_map, passesAll_mediacodec]
    | none =>
      refine iff_of_true ?_ nofun
      cases d.vp8 with
      | some b => exact passesAll_map.mpr (passesAll_flushed b)
      | none => exact passesAll_refused _ _ _ _
  | vp9s vp9s =>
    refine iff_of_true ?_ nofun
    unfold handleVideoFrame
    dsimp only
    cases d.vp9 with
    | some b => exact passesAll_map.mpr (passesAll_flushed b)
    | none => exact passesAll_refused _ _ _ _
  | av1s av1s =>
    refine iff_of_true ?_ nofun
    unfold handleVideoFrame
    dsimp only
    cases d.av1 with
    | some b => exact passesAll_map.mpr (passesAll_flushed b)
    | none => exact passesAll_refused _ _ _ _
  | h264s h264s => exact passesAll_h26x _ d.h264
  | h265s h265s => exact passesAll_h26x _ d.h265
  | other => exact iff_of_true (passesAll_refused _ _ _ _) nofun

end

/-- A decoder that takes whatever it is given. -/
def willing : Backend Unit Bool := ⟨fun _ _ => ((), .ok true), ()⟩

theorem second_frame_dropped :
    ¬PassesAll (handleVideoFrame ⟨false, false, true, true⟩ ⟨fun _ => true, fun _ => .i420⟩
      ({ h264 := { mediaCodec := some willing } } : Decoder Unit Unit) (.h264s [[1], [2]]) {}) [[1], [2]] := by
  intro h
  have hpassed := h true rfl
  cases hpassed

end RustDesk.VideoBackends
