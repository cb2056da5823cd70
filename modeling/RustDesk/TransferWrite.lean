import RustDesk.TransferJob
import RustDesk.PartialCopy

/-!
# The write side of transfer jobs

A `Disk` gives the regular files of a machine by path, and a `Host` what else a machine
contributes: its path rules, the compression, the clock, and the JSON of a digest. `Host.fs`
is the file system that a disk is to the operations of a job.

A file under transfer is written to `<name>.download`, with its digest in `<name>.digest`;
`modify_time` puts it in place when the next file begins or the job is done.
-/

namespace RustDesk

/-- The modification time is in seconds and a part of a second. -/
structure DiskFile where
  data : Bytes
  modified : Nat := 0
  subsec : Nat := 0
  deriving DecidableEq, Repr

abbrev Disk := String → Option DiskFile

structure Host where
  windows : Bool := false
  push : String → String → String
  fileName : String → Option String
  noSymlinkComponents : String → String → Option String
  compress : Bytes → Bytes
  decompress : Bytes → Bytes
  parseDigest : Bytes → Option FileDigest
  digestJson : FileDigest → Bytes
  now : Nat := 0

namespace Disk

def remove (path : String) (disk : Disk) : Disk := Function.update disk path none

def put (path : String) (file : DiskFile) (disk : Disk) : Disk :=
  Function.update disk path (some file)

def rename (old new : String) (disk : Disk) : Disk :=
  match disk old with
  | none => disk
  | some file => (disk.remove old).put new file

def setFileMtime (path : String) (modified : Nat) (disk : Disk) : Disk :=
  match disk path with
  | none => disk
  | some file => disk.put path { file with modified, subsec := 0 }

/-- `write_all` at a position of an open file. -/
def writeAt (path : String) (pos : Nat) (data : Bytes) (now : Nat) (disk : Disk) : Disk :=
  match disk path with
  | none => disk
  | some file =>
    disk.put path { data := PartialCopy.overwrite 0 file.data pos data, modified := now }

end Disk

/-- The file system of a host with the given disk. A file opened for writing cannot be read. -/
def Host.fs (host : Host) (disk : Disk) : FileSystem where
  windows := host.windows
  push := host.push
  fileName := host.fileName
  noSymlinkComponents := host.noSymlinkComponents
  fileExists path := (disk path).isSome
  openRead path := if (disk path).isSome then none else some "No such file or directory (os error 2)"
  openWrite _ := none
  seek _ := true
  metadata file :=
    match disk file.path with
    | some f => .ok (f.modified, f.data.length)
    | none => .error "No such file or directory (os error 2)"
  read file room :=
    if file.writing then .error "Bad file descriptor (os error 9)"
    else
      match disk file.path with
      | some f => .ok ((f.data.drop file.pos).take room)
      | none => .error "Input/output error (os error 5)"
  compress := host.compress

namespace Host

variable {host : Host} {disk : Disk}

@[simp] theorem fs_fileExists (path : String) :
    (host.fs disk).fileExists path = (disk path).isSome := rfl

@[simp] theorem fs_openWrite (path : String) : (host.fs disk).openWrite path = none := rfl

@[simp] theorem fs_seek (file : OpenFile) : (host.fs disk).seek file = true := rfl

@[simp] theorem fs_compress (data : Bytes) : (host.fs disk).compress data = host.compress data := rfl

theorem fs_openRead {path : String} {f : DiskFile} (h : disk path = some f) :
    (host.fs disk).openRead path = none := by
  simp [Host.fs, h]

theorem fs_metadata {file : OpenFile} {f : DiskFile} (h : disk file.path = some f) :
    (host.fs disk).metadata file = .ok (f.modified, f.data.length) := by
  simp [Host.fs, h]

end Host

namespace TransferJob

variable (host : Host) (job : TransferJob)

/-- The path of the current file of a generic job, where `modify_time` has one. -/
def currentPath (disk : Disk) : Option (FileEntry × String) :=
  match job.type, job.dataSource, job.entry with
  | .generic, .filePath p, some e => (job.resolveEntryPath (host.fs disk) p e.name).map (e, ·)
  | _, _, _ => none

/-- `modify_time`: the digest goes, the download takes its place, and the file the time of
its entry. -/
def modifyTime (disk : Disk) : Disk :=
  match job.currentPath host disk with
  | none => disk
  | some (e, path) =>
    ((disk.remove (path ++ ".digest")).rename (path ++ ".download") path).setFileMtime path
      e.modifiedTime

/-- The open file after `modify_time` has renamed it. -/
def renameStream (disk : Disk) : Option DataStream :=
  match job.dataStream, job.currentPath host disk with
  | some (.fileStream file), some (_, path) =>
    some (.fileStream
      (if file.path = path ++ ".download" then { file with path } else file))
  | ds, _ => ds

/-- The part of `write` that begins a file. The error is that of a name that no longer
passes validation. -/
def beginFile (p : String) (e : FileEntry) (fileNum : Int) (disk : Disk) :
    Option String × TransferJob × Disk :=
  let disk' := job.modifyTime host disk
  let job : TransferJob := { job with fileNum, dataStream := job.renameStream host disk }
  let opened (path : String) : TransferJob :=
    { job with dataStream := some (.fileStream { path, pos := 0, writing := true }) }
  match job.type with
  | .printer => (none, opened p, disk'.put p { data := [], modified := host.now })
  | .generic =>
    match joinValidatedPath (host.fs disk') p e.name with
    | .error err => (some err, job, disk')
    | .ok path =>
      (none, opened (path ++ ".download"),
        ((disk'.remove (path ++ ".digest")).put (path ++ ".download")
          { data := [], modified := host.now }).put (path ++ ".digest")
            { data := host.digestJson job.digest, modified := host.now })

/-- The end of `write`: the block goes to the open stream. -/
def writeStream (block : FileTransferBlock) (disk : Disk) : Option String × TransferJob × Disk :=
  let tmp := if block.compressed then host.decompress block.data else block.data
  let written (ds : DataStream) : TransferJob :=
    { job with
      dataStream := some ds
      finishedSize := job.finishedSize + tmp.length
      transferred := job.transferred + block.data.length }
  match job.dataStream with
  | none => (some (if block.compressed then "data stream is None" else "file is None"), job, disk)
  | some (.fileStream file) =>
    if file.writing then
      (none, written (.fileStream { file with pos := file.pos + tmp.length }),
        disk.writeAt file.path file.pos tmp host.now)
    else (some "Bad file descriptor (os error 9)", job, disk)
  | some (.bufStream data pos) =>
    (none, written (.bufStream (PartialCopy.overwrite 0 data pos tmp) (pos + tmp.length)), disk)

/-- Whether `write` begins the file of the block. -/
def beginsFile (block : FileTransferBlock) : Bool :=
  usizeOfI32 block.fileNum != usizeOfI32 job.fileNum || job.dataStream.isNone

def write (block : FileTransferBlock) (disk : Disk) : Option String × TransferJob × Disk :=
  if block.id ≠ job.id then (some "Wrong id", job, disk)
  else
    match job.dataSource with
    | .filePath p =>
      match job.files[usizeOfI32 block.fileNum]? with
      | none => (some "Wrong file number", job, disk)
      | some e =>
        if job.beginsFile block then
          match job.beginFile host p e block.fileNum disk with
          | (some err, job, disk) => (some err, job, disk)
          | (none, job, disk) => job.writeStream host block disk
        else job.writeStream host block disk
    | .memoryCursor c =>
      let ds := job.dataStream.getD (.bufStream c 0)
      { job with dataStream := some ds }.writeStream host block disk

def setDigest (size modified : Nat) : TransferJob := { job with digest := { size, modified } }

/-- The position of the open stream. -/
def streamPos : Nat :=
  match job.dataStream with
  | some (.fileStream file) => file.pos
  | some (.bufStream _ pos) => pos
  | none => 0

end TransferJob

inductive DigestCheckResult
  | isSame
  | needConfirm (digest : FileTransferDigest)
  | noSuchFile
  deriving DecidableEq, Repr

/-- How much of the file is in a download whose digest is the one given, when that is not
nothing. -/
def transferredSize (host : Host) (path : String) (digest : FileTransferDigest) (disk : Disk) :
    Option Nat :=
  match disk (path ++ ".digest"), disk (path ++ ".download") with
  | some digestFile, some download =>
    match host.parseDigest digestFile.data with
    | some localDigest =>
      if localDigest.modified = digest.lastModified ∧ localDigest.size = digest.fileSize ∧
          0 < download.data.length then some download.data.length
      else none
    | none => none
  | _, _ => none

def isWriteNeedConfirmation (host : Host) (isResume : Bool) (path : String)
    (digest : FileTransferDigest) (disk : Disk) : DigestCheckResult :=
  match if isResume then transferredSize host path digest disk else none with
  | some transferredSize =>
    .needConfirm
      { id := digest.id
        fileNum := digest.fileNum
        lastModified := digest.lastModified
        fileSize := digest.fileSize
        isIdentical := true
        transferredSize }
  | none =>
    match disk path with
    | some file =>
      .needConfirm
        { id := digest.id
          fileNum := digest.fileNum
          lastModified := file.modified
          fileSize := file.data.length
          isIdentical := digest.lastModified = file.modified && file.subsec = 0 &&
            digest.fileSize = file.data.length }
    | none => .noSuchFile

end RustDesk
