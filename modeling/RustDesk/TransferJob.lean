import RustDesk.Message

/-!
# Transfer jobs

The read side of `TransferJob` in `fs.rs`, and the confirmation both sides share. A job is
passed through its operations; an operation that can fail gives `Except String` beside the
job, since the job has often changed by the time the error is returned. `FileSystem` holds
what the operating system answers while one operation runs.
-/

namespace RustDesk

structure FileDigest where
  size : Nat := 0
  modified : Nat := 0
  deriving DecidableEq, Repr

inductive DataSource
  | filePath (p : String)
  | memoryCursor (data : Bytes)
  deriving DecidableEq, Repr

/-- An open file: the path it was opened at, its position, and whether it was opened for
writing. -/
structure OpenFile where
  path : String
  pos : Nat
  writing : Bool
  deriving DecidableEq, Repr

/-- A buffered cursor is its bytes and its position. -/
inductive DataStream
  | fileStream (file : OpenFile)
  | bufStream (data : Bytes) (pos : Nat)
  deriving DecidableEq, Repr

/-- An answer that can be an error is the error's text, if any. `metadata` gives the
modification time and the length. -/
structure FileSystem where
  windows : Bool := false
  push : String → String → String
  fileName : String → Option String
  noSymlinkComponents : String → String → Option String
  fileExists : String → Bool
  openRead : String → Option String
  openWrite : String → Option String
  seek : OpenFile → Bool
  metadata : OpenFile → Except String (Nat × Nat)
  read : OpenFile → Nat → Except String Bytes
  compress : Bytes → Bytes

structure TransferJob where
  id : Int
  type : JobType := .generic
  dataSource : DataSource := .filePath ""
  isLastJob : Bool := false
  isResume : Bool := false
  fileNum : Int := 0
  files : List FileEntry := []
  dataStream : Option DataStream := none
  finishedSize : Nat := 0
  transferred : Nat := 0
  enableOverwriteDetection : Bool := false
  fileConfirmed : Bool := false
  fileSkipped : Bool := false
  fileIsWaiting : Bool := false
  defaultOverwriteStrategy : Option Bool := none
  digest : FileDigest := {}
  deriving DecidableEq, Repr

/-- `get_ext`: what follows the last dot, if there is one. -/
def getExt (name : String) : String :=
  match name.toList.splitOn '.' with
  | _ :: rest => String.ofList (rest.getLastD [])
  | [] => ""

def isCompressedFile (name : String) : Bool :=
  ["xz", "gz", "zip", "7z", "rar", "bz2", "tgz", "png", "jpg"].contains (getExt name)

/-- The segments `validate_file_name_no_traversal` looks at. -/
def nameSegments (windows : Bool) (name : String) : List (List Char) :=
  name.toList.splitOnP fun c => c = '/' || (windows && c = '\\')

def validateFileNameNoTraversal (windows : Bool) (name : String) : Option String :=
  let cs := name.toList
  if cs.any (· = '\x00') then some "file name contains null bytes"
  else if (nameSegments windows name).any (· = ['.', '.']) then
    some "path traversal detected in file name"
  else if windows && (match cs with | c :: ':' :: _ => c.isAlpha | _ => false) then
    some "absolute path detected in file name"
  else if (match cs with | c :: _ => c = '/' || (windows && c = '\\') | [] => false) then
    some "absolute path detected in file name"
  else none

def bufSize : Nat := 128 * 1024

namespace DataStream

/-- One `read` call with room for `room` bytes. -/
def read (fs : FileSystem) (room : Nat) : DataStream → Except String (Bytes × DataStream)
  | .fileStream file =>
    match fs.read file room with
    | .error err => .error err
    | .ok data =>
      let data := data.take room
      .ok (data, .fileStream { file with pos := file.pos + data.length })
  | .bufStream data pos =>
    let read := (data.drop pos).take room
    .ok (read, .bufStream data (pos + read.length))

/-- The loop of `TransferJob::read`: until the buffer is full or a call reads nothing. A
call that reads something makes the room smaller, so `bufSize` calls are enough. -/
def readLoop (fs : FileSystem) : Nat → DataStream → Bytes → Except String (Bytes × DataStream)
  | 0, ds, buf => .ok (buf, ds)
  | fuel + 1, ds, buf =>
    match ds.read fs (bufSize - buf.length) with
    | .error err => .error err
    | .ok (data, ds) =>
      if data.isEmpty || (buf ++ data).length == bufSize then .ok (buf ++ data, ds)
      else readLoop fs fuel ds (buf ++ data)

end DataStream

namespace TransferJob

variable (fs : FileSystem) (job : TransferJob)

def join (p name : String) : String := if name = "" then p else fs.push p name

/-- The file the job is at, if its number is in range. -/
def entry : Option FileEntry := job.files[usizeOfI32 job.fileNum]?

/-- `validate_no_symlink_components`: an empty name has no component. -/
def validateNoSymlinkComponents (base name : String) : Option String :=
  if name = "" then none else fs.noSymlinkComponents base name

def joinValidatedPath (base name : String) : Except String String :=
  match validateFileNameNoTraversal fs.windows name with
  | some err => .error err
  | none =>
    match validateNoSymlinkComponents fs base name with
    | some err => .error err
    | none => .ok (join fs base name)

def resolveEntryPath (base name : String) : Option String :=
  if job.type = .generic then (joinValidatedPath fs base name).toOption
  else some (join fs base name)

/-- The end of work on the current file, whatever its outcome. -/
def nextFile : TransferJob :=
  { job with
    fileNum := asI32 (job.fileNum + 1)
    fileConfirmed := false
    fileIsWaiting := false }

/-- `open_data_stream`: `true` when no file is left. -/
def openDataStream : Except String Bool × TransferJob :=
  match job.dataSource with
  | .filePath p =>
    match job.entry with
    | none => (.ok true, { job with dataStream := none })
    | some e =>
      if job.dataStream.isSome then (.ok false, job)
      else
        let path := join fs p e.name
        match fs.openRead path with
        | none =>
          (.ok false, { job with
            dataStream := some (.fileStream { path, pos := 0, writing := false })
            fileConfirmed := false
            fileIsWaiting := false })
        | some err => (.error err, job.nextFile)
  | .memoryCursor data =>
    if job.dataStream.isSome then (.ok false, job)
    else (.ok false, { job with
      dataSource := .memoryCursor []
      dataStream := some (.bufStream data 0) })

/-- `get_current_digest`: the modification time and the length. -/
def getCurrentDigest : Except String (Nat × Nat) :=
  match job.dataStream with
  | none => .error "file is None"
  | some (.fileStream file) => fs.metadata file
  | some (.bufStream _ _) => .error "No digest for buf stream"

/-- Whether the peer is still to be told about the current file. -/
def wantsDigest : Bool :=
  job.type == .generic && job.enableOverwriteDetection && !job.fileConfirmed && !job.fileIsWaiting

/-- The check at the head of `read`. -/
def awaitsConfirmation : Bool :=
  job.type == .generic && job.enableOverwriteDetection && !job.fileConfirmed

/-- The digest as it goes to the peer. -/
def digestResponse (lastModified fileSize : Nat) : FileResponse :=
  .digest
    { id := job.id
      fileNum := job.fileNum
      lastModified
      fileSize
      isResume := job.isResume }

/-- `init_data_stream`, with the message it sends. -/
def initDataStream : Except String (Option FileResponse) × TransferJob :=
  match job.openDataStream fs with
  | (.error err, job) => (.error err, job)
  | (.ok true, job) => (.ok none, job)
  | (.ok false, job) =>
    if job.wantsDigest then
      match job.getCurrentDigest fs with
      | .error err => (.error err, job)
      | .ok (lastModified, fileSize) =>
        (.ok (some (job.digestResponse lastModified fileSize)), { job with fileIsWaiting := true })
    else (.ok none, job)

def initDataStreamForCm : Except String (Option (Nat × Nat)) × TransferJob :=
  match job.openDataStream fs with
  | (.error err, job) => (.error err, job)
  | (.ok true, job) => (.ok none, job)
  | (.ok false, job) =>
    if job.wantsDigest then
      match job.getCurrentDigest fs with
      | .error err => (.error err, job)
      | .ok digest => (.ok (some digest), { job with fileIsWaiting := true })
    else (.ok none, job)

/-- The name `read` goes by when it decides whether to compress. -/
def readName (p : String) (e : FileEntry) : String :=
  if job.files.length = 1 ∧ e.name = "" then (fs.fileName p).getD "" else e.name

/-- The block for the bytes read, compressed where that makes them fewer. `name` is absent
for a memory cursor. -/
def blockOf (name : Option String) (buf : Bytes) : FileTransferBlock :=
  let plain : FileTransferBlock :=
    { id := job.id
      fileNum := asI32 (usizeOfI32 job.fileNum)
      data := buf
      compressed := false }
  match name with
  | none => plain
  | some name =>
    if isCompressedFile name then plain
    else if (fs.compress buf).length < buf.length then
      { plain with data := fs.compress buf, compressed := true }
    else plain

/-- `read`, past the check of the confirmation and of the file number. -/
def readFrom (name : Option String) : Except String (Option FileTransferBlock) × TransferJob :=
  match job.dataStream with
  | none => (.error "data stream is None", job)
  | some ds =>
    match ds.readLoop fs bufSize [] with
    | .error err => (.error err, { job.nextFile with dataStream := none })
    | .ok (buf, ds) =>
      if buf.isEmpty then
        if name.isNone then (.ok none, { job with dataStream := none })
        else
          (.ok (some
            { id := job.id
              fileNum := asI32 (usizeOfI32 job.fileNum)
              data := []
              compressed := false }), { job.nextFile with dataStream := none })
      else
        let block := job.blockOf fs name buf
        (.ok (some block), { job with
          dataStream := some ds
          finishedSize := job.finishedSize + buf.length
          transferred := job.transferred + block.data.length })

def read : Except String (Option FileTransferBlock) × TransferJob :=
  if job.awaitsConfirmation then (.ok none, job)
  else
    match job.dataSource with
    | .filePath p =>
      match job.entry with
      | none => (.ok none, { job with dataStream := none })
      | some e => job.readFrom fs (some (job.readName fs p e))
    | .memoryCursor _ => job.readFrom fs none

def jobSkipped : Bool := job.fileSkipped && job.files.length == 1

def jobCompleted : Bool :=
  !job.enableOverwriteDetection || (!job.fileConfirmed && !job.fileIsWaiting)

def jobError : Option String := if job.jobSkipped then some "skipped" else none

def setFileConfirmed (fileConfirmed : Bool) : TransferJob :=
  { job with fileConfirmed, fileSkipped := false }

def setFileSkipped : TransferJob :=
  { job.nextFile with
    dataStream := none
    fileSkipped := true }

/-- `set_stream_offset`. The index of the file is not checked: `none` is the panic. -/
def setStreamOffset (fileNum : Nat) (offset : Nat) : Option TransferJob :=
  match job.dataSource with
  | .memoryCursor _ => some job
  | .filePath p =>
    match job.files[fileNum]? with
    | none => none
    | some e =>
      match job.resolveEntryPath fs p e.name with
      | none => some job
      | some path =>
        let seeked (path : String) (writing : Bool) : TransferJob :=
          if fs.seek { path, pos := offset, writing } then
            { job with
              dataStream := some (.fileStream { path, pos := offset, writing })
              transferred := job.transferred + offset
              finishedSize := job.finishedSize + offset }
          else job
        if fs.fileExists (path ++ ".download") && fs.fileExists (path ++ ".digest") then
          some (if (fs.openWrite (path ++ ".download")).isNone then seeked (path ++ ".download") true
            else job)
        else if fs.fileExists path then
          some (if (fs.openRead path).isNone then seeked path false else job)
        else some job

/-- `confirm`: a confirmation for another file than the current one is ignored. -/
def confirm (r : SendConfirm) : Option TransferJob :=
  if job.fileNum ≠ r.fileNum then some job
  else
    match r.union with
    | some (.skip true) => some job.setFileSkipped
    | some (.skip false) => some (job.setFileConfirmed true)
    | some (.offsetBlk offset) =>
      if 0 < offset then
        (job.setFileConfirmed true).setStreamOffset fs (usizeOfI32 r.fileNum) offset.toNat
      else some (job.setFileConfirmed true)
    | none => some job

/-! ### What they can do -/

/-- A job that reads from memory. -/
def ofMemory : Bool :=
  match job.dataSource with
  | .filePath _ => false
  | .memoryCursor _ => true

/-- All that `open_data_stream` can do. -/
inductive Opened : Except String Bool × TransferJob → Prop
  | atEnd (p : String) (source : job.dataSource = .filePath p) (entry : job.entry = none) :
    Opened (.ok true, { job with dataStream := none })
  | already (ds : DataStream) (stream : job.dataStream = some ds)
    (more : ofMemory job = true ∨ ∃ p e, job.dataSource = .filePath p ∧ job.entry = some e) :
    Opened (.ok false, job)
  | opens (p : String) (e : FileEntry) (source : job.dataSource = .filePath p)
    (entry : job.entry = some e) (stream : job.dataStream = none)
    (found : fs.openRead (join fs p e.name) = none) :
    Opened (.ok false, { job with
      dataStream := some (.fileStream
        { path := join fs p e.name, pos := 0, writing := false })
      fileConfirmed := false
      fileIsWaiting := false })
  | fails (p : String) (e : FileEntry) (err : String) (source : job.dataSource = .filePath p)
    (entry : job.entry = some e) (stream : job.dataStream = none)
    (failed : fs.openRead (join fs p e.name) = some err) :
    Opened (.error err, job.nextFile)
  | memory (data : Bytes) (source : job.dataSource = .memoryCursor data) :
    Opened (.ok false, { job with
      dataSource := .memoryCursor []
      dataStream := some (.bufStream data 0) })

theorem opened : Opened fs job (job.openDataStream fs) := by
  unfold openDataStream
  split
  · rename_i p hs
    split
    · rename_i he
      exact .atEnd p hs he
    · rename_i e he
      split
      · rename_i hd
        obtain ⟨ds, hds⟩ := Option.isSome_iff_exists.mp hd
        exact .already ds hds (.inr ⟨p, e, hs, he⟩)
      · rename_i hd
        have hnone : job.dataStream = none := by simpa using hd
        dsimp only
        split
        · rename_i ho
          exact .opens p e hs he hnone ho
        · rename_i err ho
          exact .fails p e err hs he hnone ho
  · rename_i data hs
    split
    · rename_i hd
      obtain ⟨ds, hds⟩ := Option.isSome_iff_exists.mp hd
      exact .already ds hds (.inl (by simp [ofMemory, hs]))
    · exact .memory data hs

section

variable {fs job} {job' : TransferJob}

theorem readFrom_nothing {name : Option String} (h : job.readFrom fs name = (.ok none, job')) :
    name = none ∧ job' = { job with dataStream := none } := by
  unfold readFrom at h
  split at h
  · cases h
  · split at h
    · cases h
    · split at h
      · cases name with
        | none =>
          cases h
          exact ⟨rfl, rfl⟩
        | some name => cases h
      · cases h

/-- `read` gives nothing for a job that waits, one without a file left, and one that has read
its memory. -/
theorem read_nothing (h : job.read fs = (.ok none, job')) :
    job.awaitsConfirmation = true ∧ job' = job ∨
      (job.entry = none ∨ ofMemory job = true) ∧ job' = { job with dataStream := none } := by
  unfold read at h
  split at h
  · rename_i hawait
    cases h
    exact .inl ⟨hawait, rfl⟩
  · right
    split at h
    · split at h
      · rename_i he
        cases h
        exact ⟨.inl he, rfl⟩
      · cases (readFrom_nothing h).1
    · rename_i data hs
      exact ⟨.inr (by simp [ofMemory, hs]), (readFrom_nothing h).2⟩

end

end TransferJob

end RustDesk
