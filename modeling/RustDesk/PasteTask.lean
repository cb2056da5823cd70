import RustDesk.FileDescriptors
import RustDesk.ClipboardRanges
import RustDesk.UnixPath

/-!
# Pasting remote files

On macOS the files that a peer announces are pasted by a task that works through their list:
directories and empty files are made at once, any other file is fetched block by block into
a file beside its place and renamed when it is complete. The names are those of the peer.

`log` are the calls on the file system and the messages, in their order. What the file system
answers is part of each event.
-/

namespace RustDesk.Paste

open Clipboard (FileDescription FileType FileIoError CliprdrError ClipboardFile)

/-- What the file system answers while one file of the list is begun or completed. `taken` and
`used` are the answers to `exists` in `get_new_filename` and in `get_first_filename`; a flush
that fails leaves the file with the number of bytes given. -/
structure PasteFs where
  pathExists : String → Bool := fun _ => false
  taken : String → Bool := fun _ => false
  used : String → Bool := fun _ => false
  createDirAll : Option FileIoError := none
  createFile : Option FileIoError := none
  rename : Option FileIoError := none
  flush : Option Nat := none

inductive Effect
  | createDirAll (path : String)
  | createFile (path : String)
  | setAttr (path : String)
  | removeAttr (path : String)
  | write (path : String) (data : Bytes)
  | flush (path : String) (stored : Option Nat)
  | rename (src dst : String)
  | openWrite (path : String)
  | remove (path : String)
  | request (message : ClipboardFile)
  deriving DecidableEq, Repr

/-- `fileHandle` is the path at which the open file was created. -/
structure Progress where
  listIndex : Int := -1
  offset : Nat := 0
  totalSize : Nat
  currentSize : Nat := 0
  downloadFileIndex : Int := -1
  downloadFileSize : Nat := 0
  downloadFilePath : String := ""
  downloadFileCurrentSize : Nat := 0
  fileHandle : Option String := none
  error : Option CliprdrError := none
  isCanceled : Bool := false
  deriving DecidableEq, Repr

structure Handle where
  progress : Progress
  targetDir : String
  files : List FileDescription
  log : List Effect := []
  deriving DecidableEq, Repr

def join (p name : String) : String := String.ofList (UnixPath.push p.toList name.toList)

/-- The name that `get_first_filename` tries with a number. -/
def numbered (path : String) (kind : FileType) (i : Nat) : Option String :=
  match kind with
  | .file =>
    match UnixPath.extension path.toList with
    | some ext =>
      let stem := (UnixPath.fileStem path.toList).getD []
      some (String.ofList (UnixPath.withFileName path.toList
        (stem ++ '-' :: (Nat.toDigits 10 i ++ '.' :: ext))))
    | none => some (path ++ String.ofList (' ' :: '(' :: (Nat.toDigits 10 i ++ [')'])))
  | .directory => some (path ++ String.ofList (' ' :: '(' :: (Nat.toDigits 10 i ++ [')'])))
  | .symlink => none

/-- The loop of `get_first_filename`. -/
def firstFree (used : String → Bool) (path : String) (kind : FileType) : Nat → Nat → Option String
  | 0, _ => none
  | n + 1, i =>
    match numbered path kind i with
    | none => none
    | some path' => if used path' then firstFree used path kind n (i + 1) else some path'

def getFirstFilename (used : String → Bool) (path : String) (kind : FileType) : Option String :=
  if used path then firstFree used path kind 9999998 1 else some path

def getNewFilename (fs : PasteFs) (targetDir : String) (desc : FileDescription) : Option String :=
  let path := join targetDir desc.name
  if fs.taken path then getFirstFilename fs.used path desc.kind else some path

namespace Handle

variable (h : Handle)

def emit (e : Effect) : Handle := { h with log := h.log ++ [e] }

def setProgress (p : Progress) : Handle := { h with progress := p }

def isFinished : Bool :=
  h.progress.isCanceled || h.progress.error.isSome ||
    decide (asI32 h.files.length ≤ h.progress.listIndex)

/-- An attribute of a file; without a path there is nothing to set. -/
def updateProgressCompleted : Handle :=
  if h.progress.downloadFilePath = "" then h else h.emit (.setAttr h.progress.downloadFilePath)

def removeProgressCompleted : Handle :=
  if h.progress.downloadFilePath = "" then h else h.emit (.removeAttr h.progress.downloadFilePath)

def onCancelled : Handle :=
  let h := h.setProgress { h.progress with fileHandle := none }
  if h.progress.downloadFilePath = "" then h else h.emit (.remove h.progress.downloadFilePath)

def onError (e : CliprdrError) : Handle :=
  (h.setProgress { h.progress with error := some e }).onCancelled

/-- The end of `on_done`, for a file that has been closed. -/
def renameDownload (fs : PasteFs) : Handle :=
  match h.files[usizeOfI32 h.progress.downloadFileIndex]? with
  | none => h
  | some desc =>
    match getNewFilename fs h.targetDir desc with
    | none => h
    | some path =>
      let h := h.emit (.rename h.progress.downloadFilePath path)
      let h := if fs.rename.isNone then h.emit (.openWrite path) else h
      h.setProgress { h.progress with downloadFilePath := "", downloadFileIndex := -1 }

def onDone (fs : PasteFs) : Handle :=
  let h := h.updateProgressCompleted.removeProgressCompleted
  match h.progress.fileHandle with
  | none => h
  | some path =>
    if h.progress.downloadFileIndex = -1 then h
    else
      -- an error of the flush is only logged
      let h := h.emit (.flush path fs.flush)
      (h.setProgress { h.progress with fileHandle := none }).renameDownload fs

def onFinished (fs : PasteFs) : Handle :=
  let h := if h.progress.error.isSome then h.onCancelled else h.onDone fs
  if h.progress.currentSize ≠ h.progress.totalSize then
    h.setProgress { h.progress with error := some (.invalidRequest "Failed to download all files") }
  else h

/-- The end of `open_new_writer`, for a file whose directory is there. -/
def createDownload (fs : PasteFs) (download : String) (size : Nat) : Handle :=
  let h := h.emit (.createFile download)
  match fs.createFile with
  | some e => h.setProgress { h.progress with error := some (.fileError download e) }
  | none =>
    let h := h.setProgress { h.progress with
      downloadFileIndex := h.progress.listIndex
      downloadFileSize := size
      downloadFilePath := download
      downloadFileCurrentSize := 0
      fileHandle := some download }
    h.emit (.setAttr download)

def openNewWriter (fs : PasteFs) : Except CliprdrError Unit × Handle :=
  match h.files[usizeOfI32 h.progress.listIndex]? with
  | none =>
    (.error (.invalidRequest ("Invalid file index: " ++ toString h.progress.listIndex ++
      ", file count: " ++ toString h.files.length)), h)
  | some file =>
    let original := join h.targetDir file.name
    match getFirstFilename fs.used (original ++ ".rddownload") file.kind with
    | none => (.error (.commonError ("Failed to get download file path: " ++ original)), h)
    | some download =>
      match UnixPath.parent download.toList with
      | none =>
        (.error (.commonError ("Failed to get parent of the download file path: " ++ original)), h)
      | some parent =>
        let parent := String.ofList parent
        if fs.pathExists parent then (.ok (), h.createDownload fs download file.size)
        else
          let h := h.emit (.createDirAll parent)
          match fs.createDirAll with
          | some e => (.error (.fileError parent e), h)
          | none => (.ok (), h.createDownload fs download file.size)

/-- The loop of `update_next` over the next files, until one is to be fetched. -/
def advance (fs : Nat → PasteFs) : Nat → Int → Handle → Except CliprdrError Unit × Handle
  | 0, _, h => (.ok (), h)
  | n + 1, i, h =>
    match h.files[usizeOfI32 i]? with
    | none => (.error (.invalidRequest ("Invalid file index: " ++ toString i)), h)
    | some desc =>
      match desc.kind with
      | .file =>
        if desc.size = 0 then
          match getNewFilename (fs n) h.targetDir desc with
          | some path => advance fs n (i + 1) (h.emit (.createFile path))
          | none => advance fs n (i + 1) h
        else
          (h.setProgress { h.progress with listIndex := i, offset := 0 }).openNewWriter (fs n)
      | .directory =>
        let path := join h.targetDir desc.name
        if (fs n).pathExists path then advance fs n (i + 1) h
        else advance fs n (i + 1) (h.emit (.createDirAll path))
      | .symlink => advance fs n (i + 1) h

/-- The end of `update_next`. -/
def settle : Handle :=
  if h.progress.fileHandle.isNone then
    h.setProgress { h.progress with
      listIndex := asI32 h.files.length
      offset := 0
      downloadFileSize := 0
      downloadFileCurrentSize := 0 }
  else h

/-- An error of the loop is returned at once. -/
def settled : Except CliprdrError Unit × Handle → Except CliprdrError Unit × Handle
  | (.error e, h) => (.error e, h)
  | (.ok (), h) => (.ok (), h.settle)

/-- `update_next` at the start of the list or at the end of a file. -/
def nextFile (fs : Nat → PasteFs) (done : PasteFs) (isStart : Bool) : Except CliprdrError Unit × Handle :=
  let h := if isStart then h else h.onDone done
  let first := h.progress.listIndex + 1
  settled (advance fs (asI32 h.files.length - first).toNat first h)

/-- `update_next` in the middle of a file. -/
def continueFile (size : Nat) : Handle :=
  let h := h.setProgress { h.progress with
    offset := (h.progress.offset + size) % 2 ^ 64
    downloadFileCurrentSize := (h.progress.downloadFileCurrentSize + size) % 2 ^ 64 }
  h.updateProgressCompleted.settle

/-- `update_next`; `done` answers for the file that is complete, `fs` for those that follow. -/
def updateNext (fs : Nat → PasteFs) (done : PasteFs) (size : Nat) : Except CliprdrError Unit × Handle :=
  if h.isFinished then (.ok (), h)
  else
    let h := h.setProgress { h.progress with currentSize := (h.progress.currentSize + size) % 2 ^ 64 }
    let isStart := h.progress.listIndex == -1
    if isStart || decide (h.progress.downloadFileSize ≤ (h.progress.offset + size) % 2 ^ 64) then
      h.nextFile fs done isStart
    else (.ok (), h.continueFile size)

def sendFileContentsRequest : Except CliprdrError Unit × Handle :=
  if h.isFinished then (.ok (), h)
  else
    match h.files[usizeOfI32 h.progress.listIndex]? with
    | none =>
      (.error (.invalidRequest ("Invalid file index: " ++ toString h.progress.listIndex)), h)
    | some file =>
      (.ok (), h.emit (.request (Clipboard.sendFileContentsRequest
        (BitVec.ofInt 32 h.progress.listIndex) (BitVec.ofNat 64 file.size)
        (BitVec.ofNat 64 h.progress.offset))))

/-- `handle_file_contents_response`; a write that fails has written some of the data. -/
def handleFileContentsResponse (fs : Nat → PasteFs) (done : PasteFs)
    (failed : Option (Nat × FileIoError)) (data : Bytes) : Except CliprdrError Unit × Handle :=
  match h.progress.fileHandle with
  | none =>
    (.error (.fileError h.progress.downloadFilePath (.notFound "file handle is not opened")), h)
  | some path =>
    match failed with
    | some (written, e) =>
      (.error (.fileError h.progress.downloadFilePath e), h.emit (.write path (data.take written)))
    | none => (h.emit (.write path data)).updateNext fs done data.length

/-- The next request, or the error it ends in. -/
def sendNext : Handle :=
  match h.sendFileContentsRequest with
  | (.error e, h) => h.onError e
  | (.ok (), h) => h

end Handle

/-- `handle` is the task of the last list, `past` are those it has replaced. -/
structure PasteTask where
  handle : Option Handle := none
  retryCount : Nat := 0
  past : List Handle := []
  deriving DecidableEq, Repr

def recvRetryTimes : Nat := 3

/-- A list of files arrives for a directory, a block arrives, the wait of the worker is over,
or the user gives up. -/
inductive Event
  | formatData (targetDir : String) (pdu : Bytes) (connId : BitVec 32) (fs : Nat → PasteFs)
      (done : PasteFs)
  | contents (connId msgFlags streamId : BitVec 32) (data : Bytes) (fs : Nat → PasteFs)
      (done finished : PasteFs) (failed : Option (Nat × FileIoError))
  | timeout (late : Bool) (finished : PasteFs)
  | cancel

namespace PasteTask

variable (s : PasteTask)

/-- The task of a new list. -/
def newHandle (targetDir : String) (files : List FileDescription) : Handle where
  progress := { totalSize := (files.map (·.size)).sum % 2 ^ 64 }
  targetDir
  files

def start (fs : Nat → PasteFs) (done : PasteFs) (targetDir : String) (files : List FileDescription) :
    PasteTask :=
  if (s.handle.map fun h => !h.isFinished).getD false then s
  else
    let h := ((newHandle targetDir files).updateNext fs done 0).2
    let h := if h.isFinished then h.onFinished done else h.sendNext
    { s with handle := some h, past := s.past ++ s.handle.toList }

/-- The end of the worker's turn on a block. -/
def proceed (finished : PasteFs) (retryCount : Nat) (h : Handle) : PasteTask :=
  if h.isFinished then { s with handle := some (h.onFinished finished), retryCount := 0 }
  else { s with handle := some h.sendNext, retryCount }

def onContents (connId msgFlags streamId : BitVec 32) (data : Bytes) (fs : Nat → PasteFs)
    (done finished : PasteFs) (failed : Option (Nat × FileIoError)) : PasteTask :=
  match s.handle with
  | none => s
  | some h =>
    if h.isFinished then s
    else if streamId.toInt ≠ h.progress.listIndex then s
    else if msgFlags ≠ 1 then
      let retryCount := s.retryCount + 1
      let h :=
        if recvRetryTimes < retryCount then
          h.setProgress { h.progress with
            error := some (.invalidRequest ("Failed to read file contents, stream id: " ++
              toString streamId.toInt ++ ", msg_flags: " ++ toString msgFlags.toInt)) }
        else h
      s.proceed finished retryCount h
    else
      match h.files[usizeOfI32 streamId.toInt]? with
      | none => s
      | some file =>
        if file.connId ≠ connId then s
        else
          match h.handleFileContentsResponse fs done failed data with
          | (.error e, h) => s.proceed finished s.retryCount (h.onError e)
          | (.ok (), h) => s.proceed finished s.retryCount h

def onTimeout (late : Bool) (finished : PasteFs) : PasteTask :=
  match s.handle with
  | none => s
  | some h =>
    if !h.isFinished && late then
      let h := h.setProgress { h.progress with
        error := some (.invalidRequest "Failed to read file contents") }
      { s with handle := some (h.onFinished finished), retryCount := 0 }
    else s

def cancel : PasteTask :=
  { s with handle := s.handle.map fun h =>
      (h.setProgress { h.progress with isCanceled := true }).onCancelled }

def step : Event → PasteTask
  | .formatData targetDir pdu connId fs done =>
    match Clipboard.parseFileDescriptors pdu connId with
    | .error _ => s
    | .ok files => s.start fs done targetDir files
  | .contents connId msgFlags streamId data fs done finished failed =>
    s.onContents connId msgFlags streamId data fs done finished failed
  | .timeout late finished => s.onTimeout late finished
  | .cancel => s.cancel

end PasteTask

end RustDesk.Paste
