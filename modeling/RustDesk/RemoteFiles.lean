import RustDesk.Message
import RustDesk.History

/-!
# The file commands of the client

`Remote` is the part of the client loop that keeps the file jobs. The commands of the user
interface and those the loop sends to itself go through one channel, so a command is first
queued and later taken; a message of the peer is handled as it comes. `RemoteEnv` holds
what the file system answers.

A queued command carries the local remove job it was sent for, if any, and a remove job the
files it was created with. The code keeps neither; they are what a statement about the
origin of a deletion refers to.
-/

namespace RustDesk

/-- `RemoveJob`, with the files it was created with. -/
structure RemoveJob where
  files : List FileEntry
  path : String
  sep : String
  isRemote : Bool
  noConfirm : Bool := false
  listed : List FileEntry
  deriving DecidableEq, Repr

def RemoveJob.new (files : List FileEntry) (path sep : String) (isRemote : Bool) : RemoveJob :=
  { files, path, sep, isRemote, listed := files }

/-- The `Data` commands of the file part; the others leave it alone. -/
inductive Data
  | sendFiles (id : Int) (type : JobType) (path target : String) (fileNum : Int)
      (includeHidden isRemote : Bool)
  | addJob (id : Int) (type : JobType) (path target : String) (fileNum : Int)
      (includeHidden isRemote : Bool)
  | setNoConfirm (id : Int)
  | confirmDeleteFiles (id fileNum : Int)
  | removeDirAll (id : Int) (path : String) (isRemote includeHidden : Bool)
  | cancelJob (id : Int)
  | removeDir (id : Int) (path : String)
  | removeFile (id : Int) (path : String) (fileNum : Int) (isRemote : Bool)
  | createDir (id : Int) (path : String) (isRemote : Bool)
  | renameFile (id : Int) (path newName : String) (isRemote : Bool)
  | other
  deriving DecidableEq, Repr

/-- A command on its way through the channel, and the local remove job that sent it. -/
structure Queued where
  data : Data
  job : Option RemoveJob := none
  deriving DecidableEq, Repr

inductive RemoteEffect
  | send (fa : FileAction)
  | listFiles (path : String) (entries : List FileEntry)
  | removeFile (path : String) (job : Option RemoveJob)
  | createDir (path : String)
  | renameFile (path newName : String)
  | updateFolderFiles (id : Int) (entries : List FileEntry) (path : String) (isLocal onlyCount : Bool)
  | confirmDeleteFiles (id fileNum : Int) (name : String)
  | jobDone (id fileNum : Int)
  | jobError (id : Int) (err : String) (fileNum : Int)
  deriving DecidableEq, Repr

/-- What the file system and the clock answer during one turn. -/
structure RemoteEnv where
  windows : Bool := false
  peerWindows : Bool := false
  getRecursiveFiles : String → Bool → Except String (List FileEntry) := fun _ _ => .ok []
  newRead : String → Bool → Except String (List FileEntry) := fun _ _ => .ok []
  removeFile : String → Option String := fun _ => none
  createDir : String → Option String := fun _ => none
  renameFile : String → String → Option String := fun _ _ => none
  setFiles : List FileEntry → Option String := fun _ => none
  jobError : Int → Option String := fun _ => none
  statusDue : Bool := false

structure Remote where
  removeJobs : Int → Option RemoveJob := fun _ => none
  writeJobs : List (Int × JobType) := []
  readJobs : List (Int × JobType) := []
  queue : List Queued := []
  log : List RemoteEffect := []

def getPathSep (env : RemoteEnv) (isRemote : Bool) : String :=
  if (if isRemote then env.peerWindows else env.windows) then "\\" else "/"

def transformWindowsPath (entries : List FileEntry) : List FileEntry :=
  entries.map fun entry =>
    { entry with name := String.ofList (entry.name.toList.map fun c => if c = '\\' then '/' else c) }

/-- `fs::remove_job`: the first job of the id. -/
def removeJob (id : Int) (jobs : List (Int × JobType)) : List (Int × JobType) :=
  jobs.eraseP (·.1 = id)

namespace Remote

def emit (e : RemoteEffect) (s : Remote) : Remote := { s with log := e :: s.log }

def send (fa : FileAction) (s : Remote) : Remote := s.emit (.send fa)

def enqueue (q : Queued) (s : Remote) : Remote := { s with queue := s.queue ++ [q] }

def setRemoveJob (id : Int) (job : Option RemoveJob) (s : Remote) : Remote :=
  { s with removeJobs := Function.update s.removeJobs id job }

/-- The end of `handle_job_status`: the user interface is told. -/
def notify (id fileNum : Int) (err : Option String) (s : Remote) : Remote :=
  match err with
  | some err => s.emit (.jobError id err fileNum)
  | none => s.emit (.jobDone id fileNum)

/-- The next file of a remove job is deleted without asking. The user interface is told of
the status once a second. -/
def removeNext (env : RemoteEnv) (id fileNum : Int) (err : Option String) (job : RemoveJob)
    (s : Remote) : Remote :=
  let next := usizeOfI32 (asI32 (fileNum + 1))
  match job.files[next]? with
  | some file =>
    let s := s.enqueue
      { data := .removeFile id (job.path ++ job.sep ++ file.name) (asI32 next) job.isRemote
        job := if job.isRemote then none else some job }
    if env.statusDue then s.notify id fileNum err else s
  | none => (s.setRemoveJob id none).notify id fileNum err

def handleJobStatus (env : RemoteEnv) (id fileNum : Int) (err : Option String) (s : Remote) :
    Remote :=
  match s.removeJobs id with
  | some job =>
    if job.noConfirm then s.removeNext env id fileNum err job else s.notify id fileNum err
  | none => s.notify id fileNum err

def cancelTransferJob (id : Int) (s : Remote) : Remote :=
  let s := s.send (.cancel id)
  { s with writeJobs := removeJob id s.writeJobs, readJobs := removeJob id s.readJobs }
    |>.setRemoveJob id none

def sendFiles (env : RemoteEnv) (id : Int) (type : JobType) (path target : String) (fileNum : Int)
    (includeHidden isRemote : Bool) (s : Remote) : Remote :=
  if isRemote then
    { s with writeJobs := s.writeJobs ++ [(id, type)] }.send
      (.send id path includeHidden fileNum type.proto)
  else match env.newRead path includeHidden with
    | .error err => s.handleJobStatus env id (-1) (some err)
    | .ok files =>
      let s := s.emit (.updateFolderFiles id files path true true)
      let sent := if env.windows && !env.peerWindows then transformWindowsPath files else files
      { s with readJobs := s.readJobs ++ [(id, type)] }.send
        (.receive id target sent fileNum (files.map FileEntry.size).sum)

def addJob (env : RemoteEnv) (id : Int) (type : JobType) (path : String)
    (includeHidden isRemote : Bool) (s : Remote) : Remote :=
  if isRemote then { s with writeJobs := s.writeJobs ++ [(id, type)] }
  else match env.newRead path includeHidden with
    | .error err => s.handleJobStatus env id (-1) (some err)
    | .ok files =>
      let s := s.emit (.updateFolderFiles id files path true true)
      { s with readJobs := s.readJobs ++ [(id, type)] }

def removeDirAll (env : RemoteEnv) (id : Int) (path : String) (isRemote includeHidden : Bool)
    (s : Remote) : Remote :=
  let sep := getPathSep env isRemote
  if isRemote then
    (s.send (.allFiles id path includeHidden)).setRemoveJob id (some (.new [] path sep true))
  else match env.getRecursiveFiles path includeHidden with
    | .ok entries =>
      let s := (s.emit (.listFiles path entries)).emit (.updateFolderFiles id entries path true false)
      s.setRemoveJob id (some (.new entries path sep false))
    | .error err => s.handleJobStatus env id (-1) (some err)

/-- The `RemoveFile` command: a local file is removed at once. -/
def removeFile (env : RemoteEnv) (id : Int) (path : String) (fileNum : Int) (isRemote : Bool)
    (job : Option RemoveJob) (s : Remote) : Remote :=
  if isRemote then s.send (.removeFile id path fileNum)
  else (s.emit (.removeFile path job)).handleJobStatus env id fileNum (env.removeFile path)

/-- The commands of `handle_msg_from_ui` that the file part handles. -/
def handleMsgFromUi (env : RemoteEnv) (q : Queued) (s : Remote) : Remote :=
  match q.data with
  | .sendFiles id type path target fileNum includeHidden isRemote =>
    s.sendFiles env id type path target fileNum includeHidden isRemote
  | .addJob id type path _ _ includeHidden isRemote => s.addJob env id type path includeHidden isRemote
  | .setNoConfirm id =>
    match s.removeJobs id with
    | some job => s.setRemoveJob id (some { job with noConfirm := true })
    | none => s
  | .confirmDeleteFiles id fileNum =>
    match (s.removeJobs id).bind fun job => job.files[usizeOfI32 fileNum]? with
    | some file => s.emit (.confirmDeleteFiles id fileNum file.name)
    | none => s
  | .removeDirAll id path isRemote includeHidden => s.removeDirAll env id path isRemote includeHidden
  | .cancelJob id => s.cancelTransferJob id
  | .removeDir id path => s.send (.removeDir id path true)
  | .removeFile id path fileNum isRemote => s.removeFile env id path fileNum isRemote q.job
  | .createDir id path isRemote =>
    if isRemote then s.send (.create id path)
    else (s.emit (.createDir path)).handleJobStatus env id (-1) (env.createDir path)
  | .renameFile id path newName isRemote =>
    if isRemote then s.send (.rename id path newName)
    else (s.emit (.renameFile path newName)).handleJobStatus env id (-1)
      (env.renameFile path newName)
  | .other => s

/-- The `Dir` response: the list goes to the write job of the id, or else to the remove job
of the id, whichever side that one is on. -/
def onDir (env : RemoteEnv) (id : Int) (path : String) (entries : List FileEntry) (s : Remote) :
    Remote :=
  let entries := if !env.windows && env.peerWindows then transformWindowsPath entries else entries
  if s.writeJobs.any (·.1 = id) then
    match env.setFiles entries with
    | none => s.emit (.updateFolderFiles id entries path false false)
    | some err => (s.cancelTransferJob id).handleJobStatus env id (-1) (some err)
  else match s.removeJobs id with
    | some job =>
      (s.setRemoveJob id (some { job with files := entries })).emit
        (.updateFolderFiles id entries path false false)
    | none => s.emit (.updateFolderFiles id entries path false false)

def onDone (env : RemoteEnv) (id fileNum : Int) (s : Remote) : Remote :=
  match s.writeJobs.find? (·.1 = id) with
  | some (_, .printer) => { s with writeJobs := removeJob id s.writeJobs }
  | some (_, .generic) =>
    { s with writeJobs := removeJob id s.writeJobs }.handleJobStatus env id fileNum (env.jobError id)
  | none => s.handleJobStatus env id fileNum none

def onError (env : RemoteEnv) (id : Int) (err : String) (fileNum : Int) (s : Remote) : Remote :=
  let write := s.writeJobs.find? (·.1 = id)
  let job := write.or (s.readJobs.find? (·.1 = id))
  let s := if write.isSome then { s with writeJobs := removeJob id s.writeJobs }
    else { s with readJobs := removeJob id s.readJobs }
  if (job.map (·.2)).getD .generic = .printer then s
  else s.handleJobStatus env id fileNum (some err)

/-- The `FileResponse` messages of `handle_msg_from_peer`. Blocks and digests belong to the
transfer of a job and change no list of jobs. -/
def handleMsgFromPeer (env : RemoteEnv) (fr : FileResponse) (s : Remote) : Remote :=
  match fr with
  | .dir id path entries => s.onDir env id path entries
  | .done id fileNum => s.onDone env id fileNum
  | .error id err fileNum => s.onError env id err fileNum
  | _ => s

inductive Event
  | ui (d : Data)
  | deliver
  | peer (fr : FileResponse)
  | readJobs (left : List (Int × JobType))

/-- One turn of the client: the user interface sends a command, the loop takes one, a
message of the peer is handled, or the read jobs are moved on. -/
def step (s : Remote) (i : RemoteEnv × Event) : Remote :=
  match i.2 with
  | .ui d => s.enqueue { data := d }
  | .deliver =>
    match s.queue with
    | [] => s
    | q :: queue => { s with queue }.handleMsgFromUi i.1 q
  | .peer fr => s.handleMsgFromPeer i.1 fr
  | .readJobs left => { s with readJobs := left }

end Remote

end RustDesk
