import RustDesk.TransferWrite
import RustDesk.ReadDrivers

/-!
# A resumed transfer

The two ends of one resumed job. In a download the client writes and the server reads; in an
upload the client reads and the connection manager of the server writes. The end that writes
answers the digest of each file; it is the client, on either end, that decides between
writing over a file and skipping it, by a strategy or by asking the user.

The messages of a job go through one ordered stream in each direction and each end looks at
its own state only, so a message is handled when it is sent. `Placed` records for each block
where the sender read it and where the receiver wrote it.
-/

namespace RustDesk

inductive Direction
  | download
  | upload
  deriving DecidableEq, Repr

/-- A resumed job: its two ends, the files as each end lists them, the number of the file it
resumes at, and the disk at the receiver. `supportResume` is what a client that writes knows
of the version of its peer. -/
structure Resumption where
  direction : Direction
  supportResume : Bool := true
  id : Int
  start : Int
  sender : Host
  receiver : Host
  source : Disk
  target : Disk
  sourceBase : String
  targetBase : String
  sourceFiles : List FileEntry
  targetFiles : List FileEntry
  strategy : Option Bool := none

/-- What the sender sends: a response, with the position its data was read at, or a
confirmation. -/
inductive Packet
  | response (r : FileResponse) (readAt : Nat)
  | sendConfirm (r : SendConfirm)
  deriving DecidableEq, Repr

inductive Reply
  | response (r : FileResponse)
  | sendConfirm (r : SendConfirm)
  deriving DecidableEq, Repr

structure Placed where
  fileNum : Int
  readAt : Nat
  writtenAt : Nat
  deriving DecidableEq, Repr

/-- The number of a file that the user of this end has been asked about is the `prompt`. -/
structure Sender where
  jobs : List TransferJob
  prompt : Option Int := none
  deriving DecidableEq, Repr

structure Receiver where
  job : Option TransferJob
  disk : Disk
  prompt : Option Int := none
  log : List Placed := []

structure Transfer where
  sender : Sender
  receiver : Receiver

namespace Resumption

variable (c : Resumption)

/-- The read job that `ResumeJob` wakes, or that the server creates for the client. -/
def readJob : TransferJob :=
  { id := c.id
    dataSource := .filePath c.sourceBase
    isResume := c.direction = .upload
    fileNum := c.start
    files := c.sourceFiles
    enableOverwriteDetection := true
    defaultOverwriteStrategy := if c.direction = .upload then c.strategy else none }

def writeJob : TransferJob :=
  { id := c.id
    dataSource := .filePath c.targetBase
    isResume := c.direction = .download
    fileNum := c.start
    files := c.targetFiles
    enableOverwriteDetection := true
    defaultOverwriteStrategy := if c.direction = .download then c.strategy else none }

def begin : Transfer :=
  { sender := { jobs := [c.readJob] }
    receiver := { job := some c.writeJob, disk := c.target } }

/-- What the client makes of a digest that needs a confirmation: nothing when it is to ask
the user. -/
def overwriteUnion (job : TransferJob) (digest : FileTransferDigest) : Option ConfirmUnion :=
  let resumed := digest.isIdentical && job.isResume && decide (0 < digest.transferredSize)
  let overwriteStrategy := if resumed then some true else job.defaultOverwriteStrategy
  let offset := if resumed then UInt32.ofNat digest.transferredSize else 0
  overwriteStrategy.map fun overwrite => if overwrite then .offsetBlk offset else .skip true

/-! ## The receiver -/

/-- `confirm` on the write job; a panic takes the job with it. -/
def confirmWrite (r : Receiver) (req : SendConfirm) : Receiver :=
  match r.job with
  | some job =>
    if job.id = req.id then { r with job := job.confirm (c.receiver.fs r.disk) req } else r
  | none => r

/-- The client that writes confirms on its own job, then tells the sender. -/
def confirmHere (r : Receiver) (req : SendConfirm) : Receiver × List Reply :=
  (c.confirmWrite r req, [.sendConfirm req])

/-- A digest at the client that writes. -/
def onDigest (r : Receiver) (job : TransferJob) (digest : FileTransferDigest) :
    Receiver × List Reply :=
  match job.files[usizeOfI32 digest.fileNum]?, job.dataSource with
  | some file, .filePath p =>
    let path := TransferJob.join (c.receiver.fs r.disk) p file.name
    let job := job.setDigest digest.fileSize digest.lastModified
    let r := { r with job := some job }
    let req (union : ConfirmUnion) : SendConfirm :=
      { id := digest.id, fileNum := digest.fileNum, union := some union }
    match isWriteNeedConfirmation c.receiver (c.supportResume && job.isResume) path digest r.disk with
    | .isSame => c.confirmHere r (req (.skip true))
    | .needConfirm found =>
      match overwriteUnion job found with
      | some union => c.confirmHere r (req union)
      | none => ({ r with prompt := some found.fileNum }, [])
    | .noSuchFile => c.confirmHere r (req (.offsetBlk 0))
  | _, _ => (r, [])

/-- `CheckDigest`: a digest at the connection manager that writes. -/
def checkDigest (r : Receiver) (job : TransferJob) (d : FileTransferDigest) :
    Receiver × List Reply :=
  match job.files[usizeOfI32 d.fileNum]?, job.dataSource with
  | some file, .filePath p =>
    let path := TransferJob.join (c.receiver.fs r.disk) p file.name
    let digest : FileTransferDigest :=
      { id := d.id, fileNum := d.fileNum, lastModified := d.lastModified, fileSize := d.fileSize }
    let r := { r with job := some (job.setDigest d.fileSize d.lastModified) }
    let req (union : ConfirmUnion) : Reply :=
      .sendConfirm { id := d.id, fileNum := d.fileNum, union := some union }
    match isWriteNeedConfirmation c.receiver d.isResume path digest r.disk with
    | .isSame => (r, [req (.skip true)])
    | .needConfirm found => (r, [.response (.digest { found with isUpload := true })])
    | .noSuchFile => (r, [req (.offsetBlk 0)])
  | _, _ => (r, [])

/-- Only the connection manager reports back to the sender. -/
def report (fr : FileResponse) : List Reply :=
  match c.direction with
  | .download => []
  | .upload => [.response fr]

def onBlock (r : Receiver) (job : TransferJob) (block : FileTransferBlock) (readAt : Nat) :
    Receiver × List Reply :=
  let writtenAt := if job.beginsFile block then 0 else job.streamPos
  let w := job.write c.receiver block r.disk
  ({ r with
      job := some w.2.1
      disk := w.2.2
      log := { fileNum := block.fileNum, readAt, writtenAt } :: r.log },
    match w.1 with
    | some err => c.report (.error block.id err block.fileNum)
    | none => [])

def onResponse (r : Receiver) (job : TransferJob) (readAt : Nat) :
    FileResponse → Receiver × List Reply
  | .digest d =>
    match c.direction with
    | .download => if d.isUpload then (r, []) else c.onDigest r job d
    | .upload => c.checkDigest r job d
  | .block block => c.onBlock r job block readAt
  | .done id fileNum =>
    ({ r with job := none, disk := job.modifyTime c.receiver r.disk }, c.report (.done id fileNum))
  | .error id err fileNum => ({ r with job := none }, c.report (.error id err fileNum))
  | _ => (r, [])

/-- The job a response is for. -/
def responseId : FileResponse → Option Int
  | .digest d => some d.id
  | .block block => some block.id
  | .done id _ => some id
  | .error id _ _ => some id
  | _ => none

/-- Only a server passes a confirmation on to its connection manager. -/
def receive (r : Receiver) : Packet → Receiver × List Reply
  | .response fr readAt =>
    match r.job with
    | some job => if responseId fr = some job.id then c.onResponse r job readAt fr else (r, [])
    | none => (r, [])
  | .sendConfirm req =>
    match c.direction with
    | .download => (r, [])
    | .upload => (c.confirmWrite r req, [])

/-! ## The sender -/

def confirmRead (s : Sender) (req : SendConfirm) : Sender :=
  { s with
    jobs := (ReadDrivers.updateJob req.id
      (TransferJob.confirm (c.sender.fs c.source) · req) s.jobs).getD [] }

/-- The client that reads, about a digest of the other end. -/
def onUploadDigest (s : Sender) (digest : FileTransferDigest) : Sender × List Packet :=
  match s.jobs.find? (·.id = digest.id) with
  | none => (s, [])
  | some job =>
    match job.files[usizeOfI32 digest.fileNum]?, job.dataSource with
    | some _, .filePath _ =>
      match overwriteUnion job digest with
      | some union =>
        let req : SendConfirm := { id := digest.id, fileNum := digest.fileNum, union := some union }
        (c.confirmRead s req, [.sendConfirm req])
      | none => ({ s with prompt := some digest.fileNum }, [])
    | _, _ => (s, [])

def reply (s : Sender) : Reply → Sender × List Packet
  | .sendConfirm req => (c.confirmRead s req, [])
  | .response fr =>
    match c.direction, fr with
    | .upload, .digest d => if d.isUpload then c.onUploadDigest s d else (s, [])
    | .upload, .error id _ _ => ({ s with jobs := s.jobs.eraseP (·.id = id) }, [])
    | _, _ => (s, [])

/-! ## Steps -/

def receiveAll (r : Receiver) : List Packet → Receiver × List Reply
  | [] => (r, [])
  | p :: packets =>
    let r₁ := c.receive r p
    let r₂ := receiveAll r₁.1 packets
    (r₂.1, r₁.2 ++ r₂.2)

def replyAll (s : Sender) : List Reply → Sender × List Packet
  | [] => (s, [])
  | p :: replies =>
    let s₁ := c.reply s p
    let s₂ := replyAll s₁.1 replies
    (s₂.1, s₁.2 ++ s₂.2)

/-- The packets go to the receiver, its replies to the sender, and the confirmations these
bring about to the receiver, which does not reply to them. -/
def exchange (t : Transfer) (packets : List Packet) : Transfer :=
  let r := c.receiveAll t.receiver packets
  let s := c.replyAll t.sender r.2
  { sender := s.1, receiver := (c.receiveAll r.1 s.2).1 }

/-- `SetConfirmOverrideFile`: the answer of the user. In an upload the receiver is not told. -/
def setConfirmOverrideFile (t : Transfer) (needOverride remember : Bool) : Transfer :=
  let req (fileNum : Int) : SendConfirm :=
    { id := c.id
      fileNum
      union := some (if needOverride then .offsetBlk 0 else .skip true) }
  let remembered (job : TransferJob) : TransferJob :=
    if remember then { job with defaultOverwriteStrategy := some needOverride } else job
  match c.direction with
  | .upload =>
    match t.sender.prompt with
    | none => t
    | some fileNum =>
      let s : Sender := { jobs := t.sender.jobs.map remembered, prompt := none }
      { t with sender := c.confirmRead s (req fileNum) }
  | .download =>
    match t.receiver.prompt with
    | none => t
    | some fileNum =>
      let r := { t.receiver with job := t.receiver.job.map remembered, prompt := none }
      { sender := c.confirmRead t.sender (req fileNum)
        receiver := c.confirmWrite r (req fileNum) }

inductive Event
  | tick
  | setConfirmOverrideFile (needOverride remember : Bool)
  deriving DecidableEq, Repr

/-- The position a tick reads from. -/
def readPos (s : Sender) : Nat := (s.jobs.head?.map TransferJob.streamPos).getD 0

def step (t : Transfer) : Event → Transfer
  | .tick =>
    let r := ReadDrivers.handleReadJobs (c.sender.fs c.source) t.sender.jobs
    c.exchange { t with sender := { t.sender with jobs := r.2 } }
      (r.1.map (.response · (readPos t.sender)))
  | .setConfirmOverrideFile needOverride remember =>
    c.setConfirmOverrideFile t needOverride remember

end Resumption

end RustDesk
