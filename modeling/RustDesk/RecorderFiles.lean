import RustDesk.CodecNegotiation

/-!
# The files of a recorder

A recorder writes the frames of one picture after another to a file. It begins a new one when the size or
the format changes, and when the presentation time goes back, also within a message. The file that it
leaves is finished, or removed when it has no frame or is less than a second old; each of these is told
to the uploader.

What is around the recorder (whether a file can be made, how old it is when it is left) is asked of
an `Environment`, at a place in time that `clock` counts. Files are numbered in the place of their
names, which are distinct. Beside each frame stands the picture that it is of.
-/

namespace RustDesk.Recording

/-- `EncodedVideoFrame` -/
structure Frame where
  data : List UInt8
  key : Bool
  pts : Int
  deriving DecidableEq, Repr

/-- `video_frame::Union` -/
inductive Union
  | vp8s (frames : List Frame)
  | vp9s (frames : List Frame)
  | av1s (frames : List Frame)
  | h264s (frames : List Frame)
  | h265s (frames : List Frame)
  | other
  deriving DecidableEq, Repr

namespace Union

/-- The format, where it is not unknown, with the frames. -/
def formatFrames : Union → Option (CodecFormat × List Frame)
  | vp8s frames => some (.vp8, frames)
  | vp9s frames => some (.vp9, frames)
  | av1s frames => some (.av1, frames)
  | h264s frames => some (.h264, frames)
  | h265s frames => some (.h265, frames)
  | other => none

end Union

inductive RecordState
  | newFile (filename : Nat)
  | newFrame
  | writeTail
  | removeFile
  deriving DecidableEq, Repr

/-- What all frames of a file have in common. -/
structure Picture where
  width : Nat
  height : Nat
  format : CodecFormat
  deriving DecidableEq, Repr

structure RecorderContext2 where
  filename : Nat
  picture : Picture
  deriving DecidableEq, Repr

structure Passed where
  picture : Picture
  frame : Frame
  deriving DecidableEq, Repr

structure File where
  ctx2 : RecorderContext2
  content : List Passed := []
  deriving DecidableEq, Repr

/-- `WebmRecorder` and `HwRecorder`, with the file that they write. -/
structure Inner where
  file : File
  key : Bool := false
  written : Bool := false
  deriving DecidableEq, Repr

inductive RecordError
  | checkFailed
  | unsupportedFrame
  | unsupportedCodec
  | setFilename
  | create
  | noContext
  | firstNotKey
  deriving DecidableEq, Repr

structure Environment where
  hwcodec : Bool := true
  setFilename : Nat → Bool := fun _ => true
  create : Nat → Bool := fun _ => true
  isYoung : Nat → Bool := fun _ => false

structure Recorder where
  inner : Option Inner := none
  ctx2 : Option RecorderContext2 := none
  pts : Option Int := none
  checkFailed : Bool := false
  clock : Nat := 0
  names : Nat := 0
  files : List File := []
  states : List RecordState := []
  deriving DecidableEq, Repr

structure Call where
  union : Union
  width : Nat
  height : Nat
  deriving DecidableEq, Repr

def isWebm : CodecFormat → Bool
  | .vp8 | .vp9 | .av1 => true
  | .h264 | .h265 => false

/-- `write_video`; the muxer takes every frame. -/
def Inner.writeVideo (i : Inner) (x : Passed) : Inner :=
  let key := i.key || x.frame.key
  if key then { key, file := { i.file with content := i.file.content ++ [x] }, written := true }
  else { i with key }

namespace Recorder

variable (env : Environment) (s : Recorder)

def sendState (state : RecordState) : Recorder := { s with states := s.states ++ [state] }

/-- `self.inner = None`, with what the recorder of the file does when it is dropped. -/
def dropInner (isYoung : Bool) : Recorder :=
  match s.inner with
  | none => s
  | some i =>
    { s with inner := none, files := s.files ++ [i.file] }.sendState
      (if !i.written || isYoung then .removeFile else .writeTail)

/-- A new context, in either branch of `check`. -/
def newContext (p : Picture) : Recorder × Option RecordError :=
  if env.setFilename s.clock then
    ({ s with ctx2 := some ⟨s.names, p⟩, names := s.names + 1, clock := s.clock + 2 }.dropInner
      (env.isYoung (s.clock + 1)), none)
  else ({ s with clock := s.clock + 1 }, some .setFilename)

def newInner (ctx2 : RecorderContext2) (format : CodecFormat) : Recorder × Option RecordError :=
  if isWebm format || env.hwcodec then
    if env.create s.clock then
      ({ s with inner := some { file := { ctx2 } }, pts := none, clock := s.clock + 1 }.sendState
        (.newFile ctx2.filename), none)
    else ({ s with clock := s.clock + 1 }, some .create)
  else (s, some .unsupportedCodec)

/-- The first half of `check`: the context is that of the picture. -/
def checkContext (p : Picture) : Recorder × Option RecordError :=
  match s.ctx2 with
  | some ctx2 => if ctx2.picture ≠ p then s.newContext env p else (s, none)
  | none => s.newContext env p

def checkInner (p : Picture) : Recorder × Option RecordError :=
  match s.ctx2 with
  | none => (s, some .noContext)
  | some ctx2 => if s.inner.isNone then s.newInner env ctx2 p.format else (s, none)

def check (p : Picture) : Recorder × Option RecordError :=
  match s.checkContext env p with
  | (s, some e) => (s, some e)
  | (s, none) => s.checkInner env p

/-- `check`, and that it failed is kept. -/
def checked (p : Picture) : Recorder × Option RecordError :=
  match s.check env p with
  | (s, some e) => ({ s with checkFailed := true }, some e)
  | (s, none) => (s, none)

def checkPts (x : Passed) : Recorder × Option RecordError :=
  if s.pts.isNone && !x.frame.key then (s, some .firstNotKey)
  else
    let oldPts := s.pts
    let s := { s with pts := some x.frame.pts }
    if oldPts.getD 0 > x.frame.pts then
      let s := { s.dropInner (env.isYoung s.clock) with ctx2 := none, clock := s.clock + 1 }
      match s.checked env x.picture with
      | (s, some e) => (s, some e)
      | (s, none) => ({ s with pts := some x.frame.pts }, none)
    else (s, none)

def writeVideo (x : Passed) : Recorder := { s with inner := s.inner.map (·.writeVideo x) }

def writeFrames : Recorder → List Passed → Recorder × Option RecordError
  | s, [] => (s, none)
  | s, x :: xs =>
    match s.checkPts env x with
    | (s, some e) => (s, some e)
    | (s, none) => writeFrames (s.writeVideo x) xs

end Recorder

def Call.passed (call : Call) : List Passed :=
  match call.union.formatFrames with
  | some (format, frames) => frames.map (⟨⟨call.width, call.height, format⟩, ·⟩)
  | none => []

namespace Recorder

variable (env : Environment) (s : Recorder)

def writeFrame (call : Call) : Recorder × Option RecordError :=
  if s.checkFailed then (s, some .checkFailed)
  else
    match call.union.formatFrames with
    | none => (s, some .unsupportedFrame)
    | some (format, _) =>
      match s.checked env ⟨call.width, call.height, format⟩ with
      | (s, some e) => (s, some e)
      | (s, none) =>
        if isWebm format || env.hwcodec then
          match s.writeFrames env call.passed with
          | (s, some e) => (s, some e)
          | (s, none) => (s.sendState .newFrame, none)
        else (s, some .unsupportedFrame)

def run (calls : List Call) : Recorder := calls.foldl (fun s call => (s.writeFrame env call).1) {}

def drop : Recorder := { s.dropInner (env.isYoung s.clock) with clock := s.clock + 1 }

end Recorder

/-! ### What is promised of the files and of the states -/

/-- `frame.pts as u64 * 1_000_000` -/
def Frame.timestamp (f : Frame) : Nat := (f.pts % 2 ^ 64).toNat * 1000000 % 2 ^ 64

/-- A file holds frames of its own picture, one after another of those passed, from a key frame on. -/
structure File.Good (passed : List Passed) (f : File) : Prop where
  picture : ∀ x ∈ f.content, x.picture = f.ctx2.picture
  key : ∀ x ∈ f.content.head?, x.frame.key = true
  sorted : f.content.Pairwise fun x y => x.frame.pts ≤ y.frame.pts
  contiguous : f.content <:+: passed

/-- What is sent about one file from its beginning to its end. -/
structure Block where
  filename : Nat
  frames : Nat
  isRemoved : Bool

def Block.states (b : Block) : List RecordState :=
  .newFile b.filename :: List.replicate b.frames .newFrame ++ [if b.isRemoved then .removeFile else .writeTail]

/-- The file that is open, after the given number of frames. -/
def openStates (inner : Option Inner) (frames : Nat) : List RecordState :=
  match inner with
  | none => []
  | some i => .newFile i.file.ctx2.filename :: List.replicate frames .newFrame

/-- Each file is told about from its beginning to its end, and only the last can still be open. -/
def Recorder.Pattern (s : Recorder) : Prop :=
  ∃ (blocks : List Block) (frames : Nat),
    s.states = blocks.flatMap Block.states ++ openStates s.inner frames

def Recorder.allFiles (s : Recorder) : List File := s.files ++ s.inner.toList.map Inner.file

/-! ### One step -/

/-- The file that is open: it is empty before its first key frame, and afterwards it ends with the frame that
was passed last, unless the recorder has failed. -/
structure Inner.Fits (passed : List Passed) (pts : Option Int) (failed : Bool) (i : Inner) : Prop where
  good : i.file.Good passed
  empty : i.key = false → i.file.content = []
  last : i.key = true → ∃ before x, i.file.content = before ++ [x] ∧ pts = some x.frame.pts ∧
    (failed = false → i.file.content <:+ passed)

structure Recorder.Inv (passed : List Passed) (s : Recorder) : Prop where
  closed : ∀ f ∈ s.files, f.Good passed
  opened : ∀ i ∈ s.inner, i.Fits passed s.pts s.checkFailed
  pattern : s.Pattern
  fresh : ∀ f ∈ s.allFiles, f.ctx2.filename < s.names
  nodup : (s.allFiles.map fun f => f.ctx2.filename).Nodup

/-- The context is that of the open file, which is of a format that can be written. -/
def Recorder.Matches (env : Environment) (s : Recorder) : Prop :=
  s.ctx2 = (s.inner.map fun i => i.file.ctx2) ∧
    ∀ i ∈ s.inner, (isWebm i.file.ctx2.picture.format || env.hwcodec) = true

theorem File.Good.append {passed : List Passed} {f : File} (h : f.Good passed) (more : List Passed) :
    f.Good (passed ++ more) :=
  ⟨h.picture, h.key, h.sorted, h.contiguous.trans (List.prefix_append passed more).isInfix⟩

theorem File.good_empty (ctx2 : RecorderContext2) (passed : List Passed) : File.Good passed { ctx2 } where
  picture _ hx := absurd hx List.not_mem_nil
  key _ hx := absurd hx (Option.not_mem_none _)
  sorted := List.Pairwise.nil
  contiguous := List.nil_infix

namespace Recorder

variable (env : Environment) {s : Recorder} {passed : List Passed} {p : Picture} {x : Passed}

theorem pattern_dropInner (h : s.Pattern) (isYoung : Bool) : (s.dropInner isYoung).Pattern := by
  obtain ⟨blocks, frames, hstates⟩ := h
  rw [dropInner]
  cases hinner : s.inner with
  | none =>
    refine ⟨blocks, frames, ?_⟩
    rw [hstates]
  | some i =>
    refine ⟨blocks ++ [⟨i.file.ctx2.filename, frames, !i.written || isYoung⟩], 0, ?_⟩
    rw [hinner] at hstates
    simp [sendState, hstates, openStates, Block.states]

theorem allFiles_dropInner (s : Recorder) (isYoung : Bool) : (s.dropInner isYoung).allFiles = s.allFiles := by
  rw [dropInner]
  cases hinner : s.inner with
  | none => rfl
  | some i => simp [allFiles, sendState, hinner]

@[simp] theorem inner_dropInner (s : Recorder) (isYoung : Bool) : (s.dropInner isYoung).inner = none := by
  rw [dropInner]
  cases hinner : s.inner with
  | none => exact hinner
  | some i => rfl

theorem names_dropInner (s : Recorder) (isYoung : Bool) : (s.dropInner isYoung).names = s.names := by
  rw [dropInner]
  cases s.inner <;> rfl

theorem inv_dropInner (h : s.Inv passed) (isYoung : Bool) : (s.dropInner isYoung).Inv passed where
  closed f hf := by
    rw [dropInner] at hf
    cases hinner : s.inner with
    | none =>
      rw [hinner] at hf
      exact h.closed f hf
    | some i =>
      rw [hinner] at hf
      rcases List.mem_append.mp hf with hf | hf
      · exact h.closed f hf
      · rw [List.mem_singleton.mp hf]
        exact (h.opened i hinner).good
  opened i hi := by
    rw [inner_dropInner] at hi
    exact absurd hi (Option.not_mem_none i)
  pattern := pattern_dropInner h.pattern isYoung
  fresh f hf := by
    rw [allFiles_dropInner] at hf
    rw [names_dropInner]
    exact h.fresh f hf
  nodup := by
    rw [allFiles_dropInner]
    exact h.nodup

def renewed (s : Recorder) (p : Picture) (isYoung : Bool) (clock : Nat) : Recorder :=
  { s.dropInner isYoung with ctx2 := some ⟨s.names, p⟩, names := s.names + 1, clock }

def begun (s : Recorder) (p : Picture) (isYoung : Bool) (clock : Nat) : Recorder :=
  { s.renewed p isYoung clock with inner := some { file := { ctx2 := ⟨s.names, p⟩ } }, pts := none }.sendState
    (.newFile s.names)

theorem newContext_cases (s : Recorder) (p : Picture) :
    s.newContext env p = ({ s with clock := s.clock + 1 }, some .setFilename) ∨
      ∃ isYoung clock, s.newContext env p = (s.renewed p isYoung clock, none) := by
  rw [newContext]
  by_cases hname : env.setFilename s.clock = true
  · rw [if_pos hname]
    refine .inr ⟨env.isYoung (s.clock + 1), s.clock + 2, ?_⟩
    obtain hinner | ⟨i, hinner⟩ := Option.eq_none_or_eq_some s.inner
    · simp only [renewed, dropInner, hinner]
    · simp only [renewed, dropInner, hinner, sendState]
  · rw [if_neg hname]
    exact .inl rfl

theorem checkInner_renewed (s : Recorder) (p : Picture) (isYoung : Bool) (clock : Nat) :
    (∃ clock' e, (s.renewed p isYoung clock).checkInner env p = (s.renewed p isYoung clock', some e)) ∨
      (isWebm p.format || env.hwcodec) = true ∧
        ∃ clock', (s.renewed p isYoung clock).checkInner env p = (s.begun p isYoung clock', none) := by
  have hnone : (s.renewed p isYoung clock).inner = none := inner_dropInner s isYoung
  have hctx : (s.renewed p isYoung clock).ctx2 = some ⟨s.names, p⟩ := rfl
  rw [checkInner, hctx]
  simp only [hnone, Option.isNone_none, if_true]
  rw [newInner]
  by_cases hcodec : (isWebm p.format || env.hwcodec) = true
  · rw [if_pos hcodec]
    by_cases hcreate : env.create (s.renewed p isYoung clock).clock = true
    · rw [if_pos hcreate]
      exact .inr ⟨hcodec, clock + 1, rfl⟩
    · rw [if_neg hcreate]
      exact .inl ⟨clock + 1, .create, rfl⟩
  · rw [if_neg hcodec]
    exact .inl ⟨clock, .unsupportedCodec, rfl⟩

/-- All that `check` can do. -/
theorem check_cases (h : s.Matches env) (p : Picture) :
    (∃ i, s.inner = some i ∧ i.file.ctx2.picture = p ∧ s.check env p = (s, none)) ∨
      (∃ clock e, s.check env p = ({ s with clock }, some e)) ∨
      (∃ isYoung clock e, s.check env p = (s.renewed p isYoung clock, some e)) ∨
      (isWebm p.format || env.hwcodec) = true ∧
        ∃ isYoung clock, s.check env p = (s.begun p isYoung clock, none) := by
  have hnew : s.checkContext env p = s.newContext env p →
      (∃ clock e, s.check env p = ({ s with clock }, some e)) ∨
        (∃ isYoung clock e, s.check env p = (s.renewed p isYoung clock, some e)) ∨
        (isWebm p.format || env.hwcodec) = true ∧
          ∃ isYoung clock, s.check env p = (s.begun p isYoung clock, none) := by
    intro hcontext
    rw [check, hcontext]
    rcases newContext_cases env s p with h | ⟨isYoung, clock, h⟩
    · rw [h]
      exact .inl ⟨_, _, rfl⟩
    · rw [h]
      rcases checkInner_renewed env s p isYoung clock with ⟨clock', e, h⟩ | ⟨hcodec, clock', h⟩
      · exact .inr (.inl ⟨isYoung, clock', e, h⟩)
      · exact .inr (.inr ⟨hcodec, isYoung, clock', h⟩)
  obtain ⟨h, -⟩ := h
  obtain hinner | ⟨i, hinner⟩ := Option.eq_none_or_eq_some s.inner
  · rw [hinner, Option.map_none] at h
    exact .inr (hnew (by rw [checkContext, h]))
  · rw [hinner, Option.map_some] at h
    by_cases hp : i.file.ctx2.picture = p
    · refine .inl ⟨i, hinner, hp, ?_⟩
      have hcontext : s.checkContext env p = (s, none) := by
        rw [checkContext, h]
        simp [hp]
      rw [check, hcontext]
      simp [checkInner, h, hinner]
    · refine .inr (hnew ?_)
      rw [checkContext, h]
      simp [hp]

theorem inv_renewed (h : s.Inv passed) (p : Picture) (isYoung : Bool) (clock : Nat) :
    (s.renewed p isYoung clock).Inv passed where
  closed := (inv_dropInner h isYoung).closed
  opened := (inv_dropInner h isYoung).opened
  pattern := (inv_dropInner h isYoung).pattern
  fresh f hf := by
    have hlt := (inv_dropInner h isYoung).fresh f hf
    rw [names_dropInner] at hlt
    exact Nat.lt_succ_of_lt hlt
  nodup := (inv_dropInner h isYoung).nodup

theorem inv_begun (h : s.Inv passed) (p : Picture) (isYoung : Bool) (clock : Nat) :
    (s.begun p isYoung clock).Inv passed := by
  have hrenewed := inv_renewed h p isYoung clock
  have hfiles : (s.begun p isYoung clock).allFiles =
      (s.dropInner isYoung).files ++ [{ ctx2 := ⟨s.names, p⟩ }] := rfl
  have hold : s.allFiles = (s.dropInner isYoung).files := by
    rw [← allFiles_dropInner s isYoung, allFiles, inner_dropInner, Option.toList_none, List.map_nil,
      List.append_nil]
  refine ⟨hrenewed.closed, ?_, ?_, ?_, ?_⟩
  · intro i hi
    rw [← Option.some.inj hi]
    exact ⟨File.good_empty _ _, fun _ => rfl, fun hkey => absurd hkey Bool.false_ne_true⟩
  · obtain ⟨blocks, frames, hstates⟩ := hrenewed.pattern
    have hnone : (s.renewed p isYoung clock).inner = none := inner_dropInner s isYoung
    rw [hnone, openStates, List.append_nil] at hstates
    refine ⟨blocks, 0, ?_⟩
    rw [begun, sendState, hstates]
    rfl
  · intro f hf
    rw [hfiles, ← hold] at hf
    rcases List.mem_append.mp hf with hf | hf
    · exact Nat.lt_succ_of_lt (h.fresh f hf)
    · rw [List.mem_singleton.mp hf]
      exact Nat.lt_succ_self _
  · rw [hfiles, ← hold, List.map_append, List.map_singleton]
    refine h.nodup.append (List.nodup_singleton _) ?_
    intro name hname hlast
    obtain ⟨f, hf, rfl⟩ := List.mem_map.mp hname
    rw [List.mem_singleton] at hlast
    exact absurd hlast (Nat.ne_of_lt (h.fresh f hf))

structure Rests (env : Environment) (passed : List Passed) (s : Recorder) : Prop where
  inv : s.Inv passed
  context : s.checkFailed = false → s.Matches env

structure Writes (env : Environment) (passed : List Passed) (p : Picture) (s : Recorder) : Prop where
  inv : s.Inv passed
  context : s.Matches env
  sound : s.checkFailed = false
  opened : ∃ i, s.inner = some i ∧ i.file.ctx2.picture = p

structure Due (env : Environment) (passed : List Passed) (x : Passed) (s : Recorder) : Prop where
  closed : ∀ f ∈ s.files, f.Good passed
  pattern : s.Pattern
  fresh : ∀ f ∈ s.allFiles, f.ctx2.filename < s.names
  nodup : (s.allFiles.map fun f => f.ctx2.filename).Nodup
  context : s.Matches env
  sound : s.checkFailed = false
  pts : s.pts = some x.frame.pts
  opened : ∃ i, s.inner = some i ∧ i.file.ctx2.picture = x.picture ∧ i.file.Good passed ∧
    (i.key = false → i.file.content = []) ∧
    (i.key = true → ∃ before y, i.file.content = before ++ [y] ∧ y.frame.pts ≤ x.frame.pts ∧
      i.file.content <:+ passed)

theorem inv_fail (h : s.Inv passed) : Recorder.Inv passed { s with checkFailed := true } where
  closed := h.closed
  opened i hi := by
    obtain ⟨hgood, hempty, hlast⟩ := h.opened i hi
    refine ⟨hgood, hempty, fun hkey => ?_⟩
    obtain ⟨before, y, hcontent, hpts, -⟩ := hlast hkey
    exact ⟨before, y, hcontent, hpts, fun hfailed => absurd hfailed.symm Bool.false_ne_true⟩
  pattern := h.pattern
  fresh := h.fresh
  nodup := h.nodup

/-- Frames can be passed over when no file has begun to fill, or the recorder has failed. -/
theorem inv_append (h : s.Inv passed) (hidle : ∀ i ∈ s.inner, i.key = true → s.checkFailed = true)
    (more : List Passed) : s.Inv (passed ++ more) where
  closed f hf := (h.closed f hf).append more
  opened i hi := by
    obtain ⟨hgood, hempty, hlast⟩ := h.opened i hi
    refine ⟨hgood.append more, hempty, fun hkey => ?_⟩
    obtain ⟨before, y, hcontent, hpts, -⟩ := hlast hkey
    refine ⟨before, y, hcontent, hpts, fun hsound => ?_⟩
    rw [hidle i hi hkey] at hsound
    exact absurd hsound.symm Bool.false_ne_true
  pattern := h.pattern
  fresh := h.fresh
  nodup := h.nodup

theorem checked_spec (h : s.Inv passed) (hcontext : s.Matches env) (hsound : s.checkFailed = false) (p : Picture) :
    (∃ t e, s.checked env p = (t, some e) ∧ t.Inv passed ∧ t.checkFailed = true) ∨
      ∃ t, s.checked env p = (t, none) ∧ t.Writes env passed p ∧
        (s.inner = none → ∀ i ∈ t.inner, i.key = false) := by
  rw [checked]
  rcases check_cases env hcontext p with ⟨i, hi, hp, hcheck⟩ | ⟨clock, e, hcheck⟩ |
    ⟨isYoung, clock, e, hcheck⟩ | ⟨hcodec, isYoung, clock, hcheck⟩
  · rw [hcheck]
    refine .inr ⟨s, rfl, ⟨h, hcontext, hsound, i, hi, hp⟩, fun hnone => ?_⟩
    rw [hi] at hnone
    cases hnone
  · rw [hcheck]
    exact .inl ⟨_, e, rfl, inv_fail (s := { s with clock }) ⟨h.closed, h.opened, h.pattern, h.fresh, h.nodup⟩, rfl⟩
  · rw [hcheck]
    exact .inl ⟨_, e, rfl, inv_fail (inv_renewed h p isYoung clock), rfl⟩
  · rw [hcheck]
    refine .inr ⟨_, rfl, ⟨inv_begun h p isYoung clock, ⟨rfl, fun i hi => ?_⟩, ?_, _, rfl, rfl⟩, fun _ i hi => ?_⟩
    · rw [← Option.some.inj hi]
      exact hcodec
    · rw [← hsound, begun, renewed, dropInner]
      cases s.inner <;> rfl
    · rw [← Option.some.inj hi]

def goesBack (s : Recorder) (x : Passed) : Recorder :=
  { ({ s with pts := some x.frame.pts } : Recorder).dropInner (env.isYoung s.clock) with
    ctx2 := none, clock := s.clock + 1 }

@[simp] theorem inner_goesBack (s : Recorder) (x : Passed) : (s.goesBack env x).inner = none :=
  inner_dropInner { s with pts := some x.frame.pts } _

theorem matches_goesBack (s : Recorder) (x : Passed) : (s.goesBack env x).Matches env := by
  rw [Matches, inner_goesBack]
  exact ⟨rfl, fun j hj => absurd hj (Option.not_mem_none j)⟩

theorem checkFailed_goesBack (s : Recorder) (x : Passed) : (s.goesBack env x).checkFailed = s.checkFailed := by
  obtain hinner | ⟨i, hinner⟩ := Option.eq_none_or_eq_some s.inner
  · simp only [goesBack, dropInner, hinner]
  · simp only [goesBack, dropInner, hinner, sendState]

theorem inv_goesBack (h : s.Inv passed) (x : Passed) : (s.goesBack env x).Inv passed := by
  have hinv := inv_dropInner h (env.isYoung s.clock)
  have hsame : s.goesBack env x = { s.dropInner (env.isYoung s.clock) with
      pts := some x.frame.pts, ctx2 := none, clock := s.clock + 1 } := by
    obtain hinner | ⟨i, hinner⟩ := Option.eq_none_or_eq_some s.inner
    · simp only [goesBack, dropInner, hinner]
    · simp only [goesBack, dropInner, hinner, sendState]
  rw [hsame]
  refine ⟨hinv.closed, fun j hj => ?_, hinv.pattern, hinv.fresh, hinv.nodup⟩
  have hj' : j ∈ (s.dropInner (env.isYoung s.clock)).inner := hj
  rw [inner_dropInner] at hj'
  exact absurd hj' (Option.not_mem_none j)

/-- A file that was begun is empty, so the next frame can be of any time. -/
theorem due_of_begun {t : Recorder} (h : t.Writes env passed x.picture) (hkey : ∀ i ∈ t.inner, i.key = false) :
    Due env passed x { t with pts := some x.frame.pts } := by
  obtain ⟨j, hj, hjp⟩ := h.opened
  have hfits := h.inv.opened j hj
  refine ⟨h.inv.closed, h.inv.pattern, h.inv.fresh, h.inv.nodup, h.context, h.sound, rfl, j, hj, hjp, hfits.good,
    hfits.empty, fun hk => ?_⟩
  rw [hkey j hj] at hk
  exact absurd hk Bool.false_ne_true

theorem due_of_le (h : s.Writes env passed x.picture) (hle : ¬ s.pts.getD 0 > x.frame.pts) :
    Due env passed x { s with pts := some x.frame.pts } := by
  obtain ⟨i, hi, hp⟩ := h.opened
  have hfits := h.inv.opened i hi
  refine ⟨h.inv.closed, h.inv.pattern, h.inv.fresh, h.inv.nodup, h.context, h.sound, rfl, i, hi, hp, hfits.good,
    hfits.empty, fun hkey => ?_⟩
  obtain ⟨before, y, hcontent, hpts, hsuffix⟩ := hfits.last hkey
  rw [hpts, Option.getD_some] at hle
  exact ⟨before, y, hcontent, by omega, hsuffix h.sound⟩

theorem checkPts_of_back (hfirst : ¬ (s.pts.isNone && !x.frame.key) = true) (hback : s.pts.getD 0 > x.frame.pts) :
    s.checkPts env x =
      match (s.goesBack env x).checked env x.picture with
      | (s, some e) => (s, some e)
      | (s, none) => ({ s with pts := some x.frame.pts }, none) := by
  rw [checkPts, if_neg hfirst]
  exact if_pos hback

theorem checkPts_spec (h : s.Writes env passed x.picture) :
    (∃ t e, s.checkPts env x = (t, some e) ∧ t.Rests env passed ∧
      ∀ i ∈ t.inner, i.key = true → t.checkFailed = true) ∨
      ∃ t, s.checkPts env x = (t, none) ∧ t.Due env passed x := by
  by_cases hfirst : (s.pts.isNone && !x.frame.key) = true
  · -- No time was seen, so no frame was written.
    rw [checkPts, if_pos hfirst]
    refine .inl ⟨s, _, rfl, ⟨h.inv, fun _ => h.context⟩, fun j hj hkey => ?_⟩
    obtain ⟨before, y, -, hpts, -⟩ := (h.inv.opened j hj).last hkey
    rw [hpts] at hfirst
    exact absurd hfirst Bool.false_ne_true
  · by_cases hback : s.pts.getD 0 > x.frame.pts
    · -- The file is left, and another is begun.
      rw [checkPts_of_back env hfirst hback]
      have hsound : (s.goesBack env x).checkFailed = false := (checkFailed_goesBack env s x).trans h.sound
      rcases checked_spec env (inv_goesBack env h.inv x) (matches_goesBack env s x) hsound x.picture with
        ⟨t, e, ht, hinv, hfailed⟩ | ⟨t, ht, hwrites, hkey⟩
      · rw [ht]
        refine .inl ⟨t, e, rfl, ⟨hinv, fun hf => ?_⟩, fun _ _ _ => hfailed⟩
        rw [hfailed] at hf
        exact absurd hf.symm Bool.false_ne_true
      · rw [ht]
        exact .inr ⟨_, rfl, due_of_begun env hwrites (hkey (inner_goesBack env s x))⟩
    · rw [checkPts, if_neg hfirst]
      simp only [if_neg hback]
      exact .inr ⟨_, rfl, due_of_le env h hback⟩

theorem good_writeVideo {f : File} {before : List Passed} {y : Passed} (h : f.Good passed)
    (hcontent : f.content = before ++ [y]) (hle : y.frame.pts ≤ x.frame.pts) (hsuffix : f.content <:+ passed)
    (hp : f.ctx2.picture = x.picture) : File.Good (passed ++ [x]) { f with content := f.content ++ [x] } where
  picture z hz := by
    rcases List.mem_append.mp hz with hz | hz
    · exact h.picture z hz
    · rw [List.mem_singleton.mp hz, hp]
  key z hz := by
    apply h.key z
    rw [hcontent] at hz ⊢
    cases before <;> exact hz
  sorted := by
    have hlast : ∀ z ∈ f.content, z.frame.pts ≤ y.frame.pts := by
      intro z hz
      have hsorted := h.sorted
      rw [hcontent, List.pairwise_append] at hsorted
      rw [hcontent] at hz
      rcases List.mem_append.mp hz with hz | hz
      · exact hsorted.2.2 z hz y (List.mem_singleton_self y)
      · rw [List.mem_singleton.mp hz]
    rw [List.pairwise_append]
    refine ⟨h.sorted, List.pairwise_singleton _ _, fun z hz w hw => ?_⟩
    rw [List.mem_singleton.mp hw]
    exact Int.le_trans (hlast z hz) hle
  contiguous := by
    obtain ⟨front, rfl⟩ := hsuffix
    rw [List.append_assoc]
    exact (List.suffix_append front _).isInfix

theorem good_first {ctx2 : RecorderContext2} (hkey : x.frame.key = true) (hp : ctx2.picture = x.picture)
    (passed : List Passed) : File.Good (passed ++ [x]) { ctx2, content := [x] } where
  picture z hz := by rw [List.mem_singleton.mp hz, hp]
  key z hz := by rw [← Option.some.inj hz, hkey]
  sorted := List.pairwise_singleton _ _
  contiguous := (List.suffix_append passed [x]).isInfix

theorem fits_writeVideo {i : Inner} (hp : i.file.ctx2.picture = x.picture) (hgood : i.file.Good passed)
    (hempty : i.key = false → i.file.content = [])
    (hlast : i.key = true → ∃ before y, i.file.content = before ++ [y] ∧ y.frame.pts ≤ x.frame.pts ∧
      i.file.content <:+ passed) :
    (i.writeVideo x).Fits (passed ++ [x]) (some x.frame.pts) false := by
  rw [Inner.writeVideo]
  by_cases hkey : (i.key || x.frame.key) = true
  · simp only [if_pos hkey]
    refine ⟨?_, fun h => absurd (hkey.symm.trans h).symm Bool.false_ne_true, fun _ => ⟨i.file.content, x, rfl, rfl, ?_⟩⟩
    · by_cases hikey : i.key = true
      · obtain ⟨before, y, hcontent, hle, hsuffix⟩ := hlast hikey
        exact good_writeVideo hgood hcontent hle hsuffix hp
      · have hxkey : x.frame.key = true := by simpa [hikey] using hkey
        rw [Bool.not_eq_true] at hikey
        rw [hempty hikey]
        exact good_first hxkey hp passed
    · intro _
      by_cases hikey : i.key = true
      · obtain ⟨-, -, -, -, front, rfl⟩ := hlast hikey
        exact ⟨front, (List.append_assoc front _ [x]).symm⟩
      · rw [Bool.not_eq_true] at hikey
        simp only [hempty hikey]
        exact List.suffix_append passed [x]
  · simp only [if_neg hkey]
    have hikey : i.key = false := by
      rw [Bool.or_eq_true, not_or, Bool.not_eq_true] at hkey
      exact hkey.1
    exact ⟨hgood.append [x], fun _ => hempty hikey, fun h => absurd h hkey⟩

@[simp] theorem ctx2_writeVideo (i : Inner) (x : Passed) : (i.writeVideo x).file.ctx2 = i.file.ctx2 := by
  rw [Inner.writeVideo]
  by_cases hkey : (i.key || x.frame.key) = true
  · simp only [if_pos hkey]
  · simp only [if_neg hkey]

theorem writes_of_due (h : s.Due env passed x) : (s.writeVideo x).Writes env (passed ++ [x]) x.picture := by
  obtain ⟨i, hi, hp, hgood, hempty, hlast⟩ := h.opened
  have hinner : (s.writeVideo x).inner = some (i.writeVideo x) := by rw [writeVideo, hi, Option.map_some]
  have hnames : (s.writeVideo x).allFiles.map (fun f => f.ctx2.filename) =
      s.allFiles.map fun f => f.ctx2.filename := by
    rw [allFiles, allFiles, hinner, hi]
    simp [writeVideo]
  refine ⟨⟨?_, ?_, ?_, ?_, ?_⟩, ?_, h.sound, i.writeVideo x, hinner, by rw [ctx2_writeVideo, hp]⟩
  · exact fun f hf => (h.closed f hf).append [x]
  · intro j hj
    rw [hinner] at hj
    have hpts : (s.writeVideo x).pts = some x.frame.pts := h.pts
    have hsound : (s.writeVideo x).checkFailed = false := h.sound
    rw [← Option.some.inj hj, hpts, hsound]
    exact fits_writeVideo hp hgood hempty hlast
  · obtain ⟨blocks, frames, hstates⟩ := h.pattern
    refine ⟨blocks, frames, ?_⟩
    rw [hi] at hstates
    rw [hinner, openStates, ctx2_writeVideo]
    exact hstates
  · intro f hf
    have hmem : f.ctx2.filename ∈ s.allFiles.map fun f => f.ctx2.filename := by
      rw [← hnames]
      exact List.mem_map_of_mem hf
    obtain ⟨g, hg, hgf⟩ := List.mem_map.mp hmem
    rw [← hgf]
    exact h.fresh g hg
  · rw [hnames]
    exact h.nodup
  · obtain ⟨hcontext, hcodec⟩ := h.context
    rw [Matches, hinner, Option.map_some, ctx2_writeVideo]
    rw [hi] at hcontext
    refine ⟨hcontext, fun j hj => ?_⟩
    rw [← Option.some.inj hj, ctx2_writeVideo]
    exact hcodec i hi

/-! ### Whole calls and runs -/

theorem writeFrames_spec {xs : List Passed} (h : s.Writes env passed p) (hxs : ∀ x ∈ xs, x.picture = p) :
    (∃ t e, s.writeFrames env xs = (t, some e) ∧ t.Rests env (passed ++ xs)) ∨
      ∃ t, s.writeFrames env xs = (t, none) ∧ t.Writes env (passed ++ xs) p := by
  induction xs generalizing s passed with
  | nil => exact .inr ⟨s, rfl, by rw [List.append_nil]; exact h⟩
  | cons x xs ih =>
    have hx : x.picture = p := hxs x List.mem_cons_self
    rw [← hx] at h
    rw [writeFrames]
    rcases checkPts_spec env h with ⟨t, e, ht, hrests, hidle⟩ | ⟨t, ht, hdue⟩
    · rw [ht]
      exact .inl ⟨t, e, rfl, inv_append hrests.inv hidle _, hrests.context⟩
    · rw [ht]
      have hwrites := writes_of_due env hdue
      rw [hx] at hwrites
      have hrest := ih hwrites fun y hy => hxs y (List.mem_cons_of_mem x hy)
      rw [List.append_assoc, List.singleton_append] at hrest
      exact hrest

theorem picture_of_passed {call : Call} {format : CodecFormat} {frames : List Frame}
    (h : call.union.formatFrames = some (format, frames)) :
    ∀ x ∈ call.passed, x.picture = ⟨call.width, call.height, format⟩ := by
  intro x hx
  rw [Call.passed, h] at hx
  obtain ⟨f, -, rfl⟩ := List.mem_map.mp hx
  rfl

theorem rests_fail (h : s.Inv passed) (hfailed : s.checkFailed = true) (more : List Passed) :
    s.Rests env (passed ++ more) := by
  refine ⟨inv_append h (fun _ _ _ => hfailed) more, fun hsound => ?_⟩
  rw [hfailed] at hsound
  exact absurd hsound.symm Bool.false_ne_true

theorem rests_writeFrame (h : s.Rests env passed) (call : Call) :
    (s.writeFrame env call).1.Rests env (passed ++ call.passed) := by
  rw [writeFrame]
  by_cases hfailed : s.checkFailed = true
  · rw [if_pos hfailed]
    exact rests_fail env h.inv hfailed _
  · rw [if_neg hfailed]
    rw [Bool.not_eq_true] at hfailed
    cases hformat : call.union.formatFrames with
    | none =>
      rw [Call.passed, hformat, List.append_nil]
      exact h
    | some r =>
      obtain ⟨format, frames⟩ := r
      rcases checked_spec env h.inv (h.context hfailed) hfailed ⟨call.width, call.height, format⟩ with
        ⟨t, e, ht, hinv, htfailed⟩ | ⟨t, ht, hwrites, -⟩
      · simp only [ht]
        exact rests_fail env hinv htfailed _
      · simp only [ht]
        by_cases hcodec : (isWebm format || env.hwcodec) = true
        · rw [if_pos hcodec]
          rcases writeFrames_spec env hwrites (picture_of_passed hformat) with ⟨t', e, ht', hrests⟩ | ⟨t', ht', hwrites'⟩
          · rw [ht']
            exact hrests
          · rw [ht']
            obtain ⟨i, hi, -⟩ := hwrites'.opened
            obtain ⟨blocks, n, hstates⟩ := hwrites'.inv.pattern
            refine ⟨⟨hwrites'.inv.closed, hwrites'.inv.opened, ⟨blocks, n + 1, ?_⟩, hwrites'.inv.fresh,
              hwrites'.inv.nodup⟩, fun _ => hwrites'.context⟩
            have hinner : (t'.sendState .newFrame).inner = some i := hi
            rw [hinner]
            rw [hi] at hstates
            simp [sendState, hstates, openStates, List.replicate_succ']
        · -- A file of this format would not be open.
          obtain ⟨i, hi, hp⟩ := hwrites.opened
          have hopen := hwrites.context.2 i hi
          rw [hp] at hopen
          exact absurd hopen hcodec

theorem rests_init : Recorder.Rests env [] {} where
  inv :=
    { closed := fun _ hf => absurd hf List.not_mem_nil
      opened := fun i hi => absurd hi (Option.not_mem_none i)
      pattern := ⟨[], 0, rfl⟩
      fresh := fun _ hf => absurd hf List.not_mem_nil
      nodup := List.nodup_nil }
  context _ := ⟨rfl, fun i hi => absurd hi (Option.not_mem_none i)⟩

theorem rests_foldl (h : s.Rests env passed) (calls : List Call) :
    (calls.foldl (fun s call => (s.writeFrame env call).1) s).Rests env (passed ++ calls.flatMap Call.passed) := by
  induction calls generalizing s passed with
  | nil =>
    rw [List.flatMap_nil, List.append_nil]
    exact h
  | cons call calls ih =>
    have hrest := ih (rests_writeFrame env h call)
    rw [List.append_assoc] at hrest
    exact hrest

theorem rests_run (calls : List Call) : (run env calls).Rests env (calls.flatMap Call.passed) :=
  rests_foldl env (rests_init env) calls

theorem good_of_mem_allFiles (h : s.Inv passed) {f : File} (hf : f ∈ s.allFiles) : f.Good passed := by
  rcases List.mem_append.mp hf with hf | hf
  · exact h.closed f hf
  · obtain ⟨i, hi, rfl⟩ := List.mem_map.mp hf
    exact (h.opened i (Option.mem_toList.mp hi)).good

theorem timestamp_eq {f : Frame} (h : 0 ≤ f.pts ∧ f.pts < 2 ^ 44) : f.timestamp = f.pts.toNat * 1000000 := by
  rw [Frame.timestamp, Int.emod_eq_of_lt h.1 (by omega), Nat.mod_eq_of_lt (by omega)]

/-- Every file of a recorder holds frames of one picture that were passed one after another, from a key frame
on and in the order of their times, and the uploader is told of each file from its beginning to its end. -/
theorem recorder_files (calls : List Call)
    (hpts : ∀ call ∈ calls, ∀ x ∈ call.passed, 0 ≤ x.frame.pts ∧ x.frame.pts < 2 ^ 44) :
    (∀ f ∈ (run env calls).allFiles, f.Good (calls.flatMap Call.passed) ∧
      f.content.Pairwise fun x y => x.frame.timestamp ≤ y.frame.timestamp) ∧
    ((run env calls).allFiles.map fun f => f.ctx2.filename).Nodup ∧
    (run env calls).Pattern ∧
    ∃ blocks : List Block, ((run env calls).drop env).states = blocks.flatMap Block.states := by
  have hinv := (rests_run env calls).inv
  refine ⟨fun f hf => ?_, hinv.nodup, hinv.pattern, ?_⟩
  · have hgood := good_of_mem_allFiles hinv hf
    refine ⟨hgood, hgood.sorted.imp_of_mem ?_⟩
    intro x y hx hy hle
    have hbound : ∀ z ∈ f.content, 0 ≤ z.frame.pts ∧ z.frame.pts < 2 ^ 44 := by
      intro z hz
      obtain ⟨call, hcall, hmem⟩ := List.mem_flatMap.mp (hgood.contiguous.subset hz)
      exact hpts call hcall z hmem
    rw [timestamp_eq (hbound x hx), timestamp_eq (hbound y hy)]
    exact Nat.mul_le_mul_right _ (Int.toNat_le_toNat hle)
  · obtain ⟨blocks, frames, hstates⟩ := pattern_dropInner hinv.pattern (env.isYoung (run env calls).clock)
    rw [inner_dropInner, openStates, List.append_nil] at hstates
    exact ⟨blocks, hstates⟩

/-- The time goes back within the second call, to a frame that is no key frame; then the format changes. -/
def threeFiles : List Call :=
  [⟨.vp9s [⟨[1], true, 0⟩, ⟨[2], false, 10⟩], 640, 480⟩,
    ⟨.vp9s [⟨[3], false, 20⟩, ⟨[4], false, 5⟩, ⟨[5], true, 6⟩], 640, 480⟩,
    ⟨.vp8s [⟨[6], true, 7⟩], 640, 480⟩]

theorem recorder_threeFiles :
    (run {} threeFiles).allFiles.map (fun f => f.content.map fun x => x.frame.data) = [[[1], [2], [3]], [[5]], [[6]]] ∧
      ((∀ f ∈ (run {} threeFiles).allFiles, f.Good (threeFiles.flatMap Call.passed) ∧
        f.content.Pairwise fun x y => x.frame.timestamp ≤ y.frame.timestamp) ∧
      ((run {} threeFiles).allFiles.map fun f => f.ctx2.filename).Nodup ∧
      (run {} threeFiles).Pattern ∧
      ∃ blocks : List Block, ((run {} threeFiles).drop {}).states = blocks.flatMap Block.states) :=
  ⟨by decide +kernel, recorder_files {} threeFiles (by decide +kernel)⟩

end Recorder

end RustDesk.Recording
