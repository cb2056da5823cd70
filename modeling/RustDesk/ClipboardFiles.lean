import RustDesk.Message
import RustDesk.BytesCodec
import RustDesk.History

/-!
# Files served from the clipboard

The side that copied the files keeps them in `ClipFiles` and answers the requests of the
side that pastes: the size of a file, or a range of its bytes. A file is opened when it is
first read and its reader stays open until its end was read; `offset` tells where the reader
stands, so that the next range is read on without a seek.
-/

namespace RustDesk.Clipboard

def blockSize : Nat := 4 * 1024 * 1024

inductive FileIoError
  | notFound (text : String)
  | unexpectedEof
  | os (code : Nat)
  deriving DecidableEq, Repr

inductive CliprdrError
  | conversionFailure
  | invalidRequest (description : String)
  | commonError (description : String)
  | fileError (path : String) (err : FileIoError)
  deriving DecidableEq, Repr

/-- The content of the files. A file has fewer than 2⁶³ bytes. -/
structure FileData where
  data : String → Bytes
  bounded : ∀ path, (data path).length < 2 ^ 63

/-- What the system answers to the calls that a request makes on one file, `none` where the
call succeeds. -/
structure FileIo where
  openFile : Option FileIoError := none
  fillBuf : Option FileIoError := none
  seek : Option FileIoError := none
  readExact : Option FileIoError := none
  deriving DecidableEq, Repr

/-- `handle` is where an open reader stands in the file. -/
structure LocalFile where
  path : String
  size : Nat
  isDir : Bool := false
  handle : Option Nat := none
  offset : Nat := 0
  deriving DecidableEq, Repr

namespace LocalFile

def loadHandle (io : FileIo) (f : LocalFile) : LocalFile × Except CliprdrError Unit :=
  if !f.isDir && f.handle.isNone then
    match io.openFile with
    | some e => (f, .error (.fileError f.path e))
    | none =>
      match io.fillBuf with
      | some e => (f, .error (.fileError f.path e))
      | none => ({ f with handle := some 0 }, .ok ())
  else (f, .ok ())

def invalidateHandle (e : FileIoError) (f : LocalFile) : LocalFile × CliprdrError :=
  ({ f with offset := 0, handle := none }, .fileError f.path e)

/-- `read_exact` of the reader: all of the bytes, or an error. -/
def readExact (data : Bytes) (io : FileIo) (pos n : Nat) : Except FileIoError Bytes :=
  match io.readExact with
  | some e => .error e
  | none =>
    if n = 0 ∨ pos + n ≤ data.length then .ok ((data.drop pos).take n) else .error .unexpectedEof

/-- Where the reader stands before it reads: `offset` after a seek. -/
def seekTo (io : FileIo) (offset pos : Nat) (f : LocalFile) : Except FileIoError Nat :=
  if offset ≠ f.offset then
    match io.seek with
    | some e => .error e
    | none => .ok offset
  else .ok pos

/-- `read_exact_at` with a buffer of `n` bytes. -/
def readExactAt (data : Bytes) (io : FileIo) (n offset : Nat) (f : LocalFile) :
    LocalFile × Except CliprdrError Bytes :=
  match f.loadHandle io with
  | (f, .error e) => (f, .error e)
  | (f, .ok ()) =>
    match f.handle with
    | none => (f, .error (.fileError f.path (.notFound "file handle not found")))
    | some pos =>
      match f.seekTo io offset pos with
      | .error e => ((f.invalidateHandle e).1, .error (f.invalidateHandle e).2)
      | .ok pos =>
        match readExact data io pos n with
        | .error e => ((f.invalidateHandle e).1, .error (f.invalidateHandle e).2)
        | .ok buf =>
          let newOffset := (offset + n) % 2 ^ 64
          if f.size ≤ newOffset then ({ f with offset := 0, handle := none }, .ok buf)
          else ({ f with offset := newOffset, handle := some (pos + n) }, .ok buf)

end LocalFile

/-- The indices are those of `usize`, offset and length of `u64`. -/
inductive FileContentsRequest
  | size (streamId : BitVec 32) (fileIdx : Nat)
  | range (streamId : BitVec 32) (fileIdx offset length : Nat)
  deriving DecidableEq, Repr

inductive ClipboardFile
  | fileContentsRequest (streamId listIndex dwFlags nPositionLow nPositionHigh cbRequested : BitVec 32)
      (haveClipDataId : Bool) (clipDataId : BitVec 32)
  | fileContentsResponse (msgFlags streamId : BitVec 32) (requestedData : Bytes)
  | files (files : List (String × Nat))
  deriving DecidableEq, Repr

/-- What `serve_file_contents` comes to: the buffer of a range that is too long for an
allocation panics. -/
inductive Reply
  | answer (r : Except CliprdrError ClipboardFile)
  | panic
  deriving DecidableEq

structure ClipFiles where
  fileList : List LocalFile
  firstFileIndex : Nat
  deriving DecidableEq, Repr

namespace ClipFiles

def invalidFileIndex (fileIdx : Nat) (connId : BitVec 32) : CliprdrError :=
  .invalidRequest ("invalid file index " ++ toString fileIdx ++ " requested from conn: " ++
    toString connId.toInt)

def invalidOffset (connId : BitVec 32) : CliprdrError :=
  .invalidRequest ("invalid reading offset requested from conn: " ++ toString connId.toInt)

/-- The loop over the files behind the requested one, which opens the first that is no
directory. -/
def reloadNext (io : FileIo) : List LocalFile → List LocalFile × Except CliprdrError Unit
  | [] => ([], .ok ())
  | f :: fs =>
    if f.isDir then
      let r := reloadNext io fs
      (f :: r.1, r.2)
    else ((f.loadHandle io).1 :: fs, (f.loadHandle io).2)

/-- The end of `serve_file_contents`. -/
def hotReload (io : FileIo) (fileIdx : Nat) (resp : ClipboardFile) (s : ClipFiles) :
    ClipFiles × Reply :=
  let r := reloadNext io (s.fileList.drop (fileIdx + 1))
  ({ s with fileList := s.fileList.take (fileIdx + 1) ++ r.1 },
    .answer (match r.2 with
      | .error e => .error e
      | .ok () => .ok resp))

/-- The largest allocation, `isize::MAX`. -/
def isizeMax : Nat := 2 ^ 63 - 1

def readSize (size offset length : Nat) : Nat :=
  if size < (offset + length) % 2 ^ 64 then size - offset else length

/-- `serve_file_contents`; `io` and `next` are for the requested file and for the one that
is opened after it. -/
def serveFileContents (disk : FileData) (io next : FileIo) (connId : BitVec 32)
    (request : FileContentsRequest) (s : ClipFiles) : ClipFiles × Reply :=
  match request with
  | .size streamId fileIdx =>
    match s.fileList[fileIdx]? with
    | none => (s, .answer (.error (invalidFileIndex fileIdx connId)))
    | some file =>
      s.hotReload next fileIdx (.fileContentsResponse 1 streamId (toLeBytes 8 file.size))
  | .range streamId fileIdx offset length =>
    match s.fileList[fileIdx]? with
    | none => (s, .answer (.error (invalidFileIndex fileIdx connId)))
    | some file =>
      if file.size < offset then (s, .answer (.error (invalidOffset connId)))
      else if isizeMax < readSize file.size offset length then (s, .panic)
      else
        let r := file.readExactAt (disk.data file.path) io (readSize file.size offset length) offset
        let s' := { s with fileList := s.fileList.set fileIdx r.1 }
        match r.2 with
        | .error e => (s', .answer (.error e))
        | .ok buf => s'.hotReload next fileIdx (.fileContentsResponse 1 streamId buf)

/-- `get_files_for_audit`, where `isFile` asks the file system. -/
def getFilesForAudit (isFile : String → Bool) (request : FileContentsRequest) (s : ClipFiles) :
    Option ClipboardFile :=
  match request with
  | .size .. => none
  | .range _ fileIdx offset _ =>
    if fileIdx = s.firstFileIndex ∧ offset = 0 then
      let files := (s.fileList.filter (isFile ·.path)).map fun f => (f.path, f.size)
      if files.isEmpty then none else some (.files files)
    else none

/-- `x as u64` and `x as usize` of an `i32`. -/
def asU64 (x : BitVec 32) : BitVec 64 := x.signExtend 64

/-- The request that `read_file_contents` makes of the fields of the message. -/
def contentsRequest (streamId listIndex dwFlags nPositionLow nPositionHigh cbRequested : BitVec 32) :
    Option FileContentsRequest :=
  if dwFlags = 0x1 then some (.size streamId (asU64 listIndex).toNat)
  else if dwFlags = 0x2 then
    let offset := (asU64 nPositionHigh <<< 32) ||| asU64 nPositionLow
    let length := asU64 cbRequested
    some (.range streamId (asU64 listIndex).toNat offset.toNat length.toNat)
  else none

/-- `read_file_contents`: the messages it answers with. -/
def readFileContents (disk : FileData) (isFile : String → Bool) (io next : FileIo)
    (connId streamId listIndex dwFlags nPositionLow nPositionHigh cbRequested : BitVec 32)
    (s : ClipFiles) : ClipFiles × List Reply :=
  match contentsRequest streamId listIndex dwFlags nPositionLow nPositionHigh cbRequested with
  | none =>
    (s, [.answer (.error (.invalidRequest ("got invalid FileContentsRequest, dw_flats: " ++
      toString dwFlags.toInt)))])
  | some request =>
    let r := s.serveFileContents disk io next connId request
    (r.1, ((s.getFilesForAudit isFile request).map fun c => Reply.answer (.ok c)).toList ++ [r.2])

end ClipFiles

/-! ### The place of the reader -/

namespace LocalFile

variable {f : LocalFile} {io : FileIo}

/-- An open reader stands at `offset`; without one it is zero. -/
def Positioned (f : LocalFile) : Prop := f.handle.getD 0 = f.offset

def identity (f : LocalFile) : String × Nat × Bool := (f.path, f.size, f.isDir)

structure Kept (f f' : LocalFile) : Prop where
  identity : f'.identity = f.identity
  positioned : f.Positioned → f'.Positioned

theorem Kept.refl (f : LocalFile) : Kept f f := ⟨rfl, id⟩

theorem Kept.trans {f g h : LocalFile} (hfg : Kept f g) (hgh : Kept g h) : Kept f h :=
  ⟨hgh.identity.trans hfg.identity, fun hf => hgh.positioned (hfg.positioned hf)⟩

theorem kept_closed (f : LocalFile) : Kept f { f with offset := 0, handle := none } :=
  ⟨rfl, fun _ => rfl⟩

theorem loadHandle_kept (io : FileIo) (f : LocalFile) : Kept f (f.loadHandle io).1 := by
  unfold loadHandle
  split_ifs with hopen
  · cases io.openFile with
    | some e => exact Kept.refl f
    | none =>
      cases io.fillBuf with
      | some e => exact Kept.refl f
      | none =>
        refine ⟨rfl, fun hpos => ?_⟩
        have hnone : f.handle = none := by simp_all
        unfold Positioned at hpos
        rw [hnone] at hpos
        exact hpos
  · exact Kept.refl f

theorem seekTo_eq {offset pos p : Nat} (hpos : pos = f.offset)
    (h : f.seekTo io offset pos = .ok p) : p = offset := by
  unfold seekTo at h
  split_ifs at h with hne
  · cases hs : io.seek with
    | some e =>
      rw [hs] at h
      cases h
    | none =>
      rw [hs] at h
      cases h
      rfl
  · cases h
    omega

theorem readExact_eq {data buf : Bytes} {pos n : Nat} (h : readExact data io pos n = .ok buf) :
    (n = 0 ∨ pos + n ≤ data.length) ∧ buf = (data.drop pos).take n := by
  unfold readExact at h
  cases hr : io.readExact with
  | some e =>
    rw [hr] at h
    cases h
  | none =>
    rw [hr] at h
    dsimp only at h
    split_ifs at h with hlen
    cases h
    exact ⟨hlen, rfl⟩

theorem readExactAt_kept {data : Bytes} (hdata : data.length < 2 ^ 63) (io : FileIo)
    (n : Nat) {offset : Nat} (hoff : offset < 2 ^ 64) (f : LocalFile) :
    Kept f (f.readExactAt data io n offset).1 := by
  have hload := loadHandle_kept io f
  unfold readExactAt
  generalize f.loadHandle io = r at hload
  obtain ⟨g, _ | _⟩ := r
  · exact hload
  · dsimp only at hload ⊢
    cases hh : g.handle with
    | none => exact hload
    | some pos =>
      dsimp only
      cases hs : g.seekTo io offset pos with
      | error e => exact hload.trans (kept_closed g)
      | ok p =>
        dsimp only
        cases hr : readExact data io p n with
        | error e => exact hload.trans (kept_closed g)
        | ok buf =>
          dsimp only
          split_ifs with hend
          · exact hload.trans (kept_closed g)
          · refine ⟨hload.identity, fun hf => ?_⟩
            have hpos := hload.positioned hf
            unfold Positioned at hpos
            rw [hh] at hpos
            have hp := seekTo_eq hpos hs
            have hlen := (readExact_eq hr).1
            change p + n = (offset + n) % 2 ^ 64
            omega

theorem readExactAt_ok {data : Bytes} {n offset : Nat} (hpos : f.Positioned)
    (hfile : f.isDir = false) (hlen : n = 0 ∨ offset + n ≤ data.length) :
    (f.readExactAt data {} n offset).2 = .ok ((data.drop offset).take n) := by
  obtain ⟨pos, g, hload, hg, hgpos⟩ : ∃ pos g, f.loadHandle {} = (g, .ok ()) ∧
      g.handle = some pos ∧ pos = g.offset := by
    unfold Positioned at hpos
    cases hh : f.handle with
    | none =>
      rw [hh] at hpos
      refine ⟨0, { f with handle := some 0 }, ?_, rfl, hpos⟩
      simp [loadHandle, hfile, hh]
    | some pos =>
      rw [hh] at hpos
      refine ⟨pos, f, ?_, hh, hpos⟩
      simp [loadHandle, hh]
  have hseek : g.seekTo {} offset pos = .ok offset := by
    unfold seekTo
    split_ifs with hne
    · rfl
    · congr 1
      omega
  have hread : readExact data {} offset n = .ok ((data.drop offset).take n) := if_pos hlen
  unfold readExactAt
  rw [hload]
  dsimp only
  rw [hg]
  dsimp only
  rw [hseek]
  dsimp only
  rw [hread]
  dsimp only
  split_ifs
  · rfl
  · rfl

end LocalFile

namespace ClipFiles

def AllKept (fs gs : List LocalFile) : Prop :=
  ∀ (i : Nat) (f : LocalFile), fs[i]? = some f → ∃ g, gs[i]? = some g ∧ LocalFile.Kept f g

theorem AllKept.refl (fs : List LocalFile) : AllKept fs fs := fun _ f hf =>
  ⟨f, hf, LocalFile.Kept.refl f⟩

theorem AllKept.trans {fs gs hs : List LocalFile} (hfg : AllKept fs gs) (hgh : AllKept gs hs) :
    AllKept fs hs := by
  intro i f hf
  obtain ⟨g, hg, hkept⟩ := hfg i f hf
  obtain ⟨h, hh, hkept'⟩ := hgh i g hg
  exact ⟨h, hh, hkept.trans hkept'⟩

theorem AllKept.cons {f g : LocalFile} {fs gs : List LocalFile} (h : LocalFile.Kept f g)
    (hs : AllKept fs gs) : AllKept (f :: fs) (g :: gs) := by
  intro i x hx
  cases i with
  | zero =>
    cases hx
    exact ⟨g, rfl, h⟩
  | succ i => exact hs i x hx

theorem allKept_set {fs : List LocalFile} {i : Nat} {f g : LocalFile} (hf : fs[i]? = some f)
    (h : LocalFile.Kept f g) : AllKept fs (fs.set i g) := by
  intro j x hx
  by_cases hj : i = j
  · subst hj
    rw [hf] at hx
    cases hx
    have hlt : i < fs.length := (List.getElem?_eq_some_iff.mp hf).1
    exact ⟨g, List.getElem?_set_self hlt, h⟩
  · exact ⟨x, by rw [List.getElem?_set_ne hj, hx], LocalFile.Kept.refl x⟩

theorem allKept_append (fs : List LocalFile) {gs hs : List LocalFile} (h : AllKept gs hs) :
    AllKept (fs ++ gs) (fs ++ hs) := by
  induction fs with
  | nil => exact h
  | cons f fs ih => exact ih.cons (LocalFile.Kept.refl f)

theorem reloadNext_kept (io : FileIo) (fs : List LocalFile) : AllKept fs (reloadNext io fs).1 := by
  induction fs with
  | nil => exact AllKept.refl []
  | cons f fs ih =>
    unfold reloadNext
    split_ifs
    · exact ih.cons (LocalFile.Kept.refl f)
    · exact (AllKept.refl fs).cons (LocalFile.loadHandle_kept io f)

theorem hotReload_kept (io : FileIo) (fileIdx : Nat) (resp : ClipboardFile) (s : ClipFiles) :
    AllKept s.fileList (s.hotReload io fileIdx resp).1.fileList := by
  have h := allKept_append (s.fileList.take (fileIdx + 1))
    (reloadNext_kept io (s.fileList.drop (fileIdx + 1)))
  rwa [List.take_append_drop] at h

theorem serveFileContents_kept (disk : FileData) (io next : FileIo) (connId : BitVec 32)
    {request : FileContentsRequest}
    (hreq : ∀ streamId fileIdx offset length, request = .range streamId fileIdx offset length →
      offset < 2 ^ 64) (s : ClipFiles) :
    AllKept s.fileList (s.serveFileContents disk io next connId request).1.fileList := by
  cases request with
  | size streamId fileIdx =>
    dsimp only [serveFileContents]
    cases s.fileList[fileIdx]? with
    | none => exact AllKept.refl _
    | some file => exact hotReload_kept next fileIdx _ s
  | range streamId fileIdx offset length =>
    dsimp only [serveFileContents]
    cases hfile : s.fileList[fileIdx]? with
    | none => exact AllKept.refl _
    | some file =>
      dsimp only
      split_ifs with hoff hbig
      · exact AllKept.refl _
      · exact AllKept.refl _
      · have hread := LocalFile.readExactAt_kept (disk.bounded file.path) io
          (readSize file.size offset length) (hreq _ _ _ _ rfl) file
        generalize file.readExactAt (disk.data file.path) io
          (readSize file.size offset length) offset = r at hread
        obtain ⟨g, e | buf⟩ := r
        · exact allKept_set hfile hread
        · exact (allKept_set hfile hread).trans (hotReload_kept next fileIdx _
            { s with fileList := s.fileList.set fileIdx g })

theorem contentsRequest_offset {streamId listIndex dwFlags low high cb : BitVec 32}
    {request : FileContentsRequest}
    (h : contentsRequest streamId listIndex dwFlags low high cb = some request) :
    ∀ streamId fileIdx offset length, request = .range streamId fileIdx offset length →
      offset < 2 ^ 64 := by
  rintro _ _ _ _ rfl
  unfold contentsRequest at h
  split_ifs at h
  · cases h
  · cases h
    exact BitVec.isLt _

theorem reloadNext_ok (fs : List LocalFile) : (reloadNext {} fs).2 = .ok () := by
  induction fs with
  | nil => rfl
  | cons f fs ih =>
    unfold reloadNext
    split_ifs
    · exact ih
    · unfold LocalFile.loadHandle
      split_ifs
      · rfl
      · rfl

/-- A range of a file whose reader is in its place is answered with the bytes at the
offset, as many as the file has. -/
theorem serveFileContents_range (disk : FileData) (connId streamId : BitVec 32)
    {fileIdx offset length : Nat} {s : ClipFiles} {f : LocalFile}
    (hf : s.fileList[fileIdx]? = some f) (hpos : f.Positioned) (hfile : f.isDir = false)
    (hsize : f.size = (disk.data f.path).length) (hoff : offset ≤ f.size)
    (hlength : offset + length < 2 ^ 64) :
    (s.serveFileContents disk {} {} connId (.range streamId fileIdx offset length)).2 =
      .answer (.ok (.fileContentsResponse 1 streamId
        (((disk.data f.path).drop offset).take length))) := by
  have hbound := disk.bounded f.path
  have hread : readSize f.size offset length = min length (f.size - offset) := by
    unfold readSize
    rw [Nat.mod_eq_of_lt hlength]
    split_ifs <;> omega
  have htake : ((disk.data f.path).drop offset).take (min length (f.size - offset)) =
      ((disk.data f.path).drop offset).take length := by
    rw [hsize, ← List.length_drop]
    exact List.take_eq_take_min.symm
  have hok : (f.readExactAt (disk.data f.path) {} (min length (f.size - offset)) offset).2 =
      .ok (((disk.data f.path).drop offset).take length) := by
    rw [LocalFile.readExactAt_ok hpos hfile (by omega), htake]
  have hsmall : ¬ isizeMax < min length (f.size - offset) := by
    unfold isizeMax
    omega
  dsimp only [serveFileContents]
  rw [hf]
  dsimp only
  rw [if_neg (by omega), hread, if_neg hsmall, hok]
  dsimp only [hotReload]
  rw [reloadNext_ok]

end ClipFiles

end RustDesk.Clipboard
