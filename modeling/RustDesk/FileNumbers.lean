import RustDesk.PartialDownloads
import RustDesk.ReadDrivers
import RustDesk.ConnectionState

/-!
# The numbers of files

The peer chooses the number a transfer job starts at and sends a number with every block,
digest and confirmation, while the list of files of the job has a length of its own. A job
also counts itself past the end of its list. The operations of a job index the list by these
numbers; each of them notes here where it does, and what a number that the peer sent did to the
job it was for.

The connection keeps the read jobs, or leaves them to the connection manager, which has the
write jobs; commands reach the manager in the order they were sent.
-/

namespace RustDesk

namespace TransferJob

variable (job : TransferJob)

/-- A number that no file of the job has. A job in memory has no files. -/
def OutOfRange (fileNum : Int) : Prop :=
  job.ofMemory = false ∧ job.files.length ≤ usizeOfI32 fileNum

instance decidableOutOfRange (fileNum : Int) : Decidable (job.OutOfRange fileNum) :=
  inferInstanceAs (Decidable (_ ∧ _))

/-! ### Where the operations index the list -/

def modifyTimeAt : List Nat :=
  if job.type = .printer then []
  else match job.dataSource with
    | .filePath _ =>
      let fileNum := usizeOfI32 job.fileNum
      if fileNum < job.files.length then [fileNum] else []
    | .memoryCursor _ => []

def removeDownloadFileAt : List Nat := job.modifyTimeAt

def writeAt (block : FileTransferBlock) : List Nat :=
  if block.id ≠ job.id then []
  else match job.dataSource with
    | .filePath _ =>
      let fileNum := usizeOfI32 block.fileNum
      if job.files.length ≤ fileNum then []
      else if job.beginsFile block then job.modifyTimeAt ++ [fileNum] else []
    | .memoryCursor _ => []

def openDataStreamAt : List Nat :=
  match job.dataSource with
  | .filePath _ =>
    let fileNum := usizeOfI32 job.fileNum
    if job.files.length ≤ fileNum then []
    else if job.dataStream.isNone then [fileNum] else []
  | .memoryCursor _ => []

def readAt : List Nat :=
  if job.awaitsConfirmation then []
  else match job.dataSource with
    | .filePath _ =>
      let fileNum := usizeOfI32 job.fileNum
      if job.files.length ≤ fileNum then [] else [fileNum]
    | .memoryCursor _ => []

/-- There is no check here. -/
def setStreamOffsetAt (fileNum : Nat) : List Nat :=
  match job.dataSource with
  | .filePath _ => [fileNum]
  | .memoryCursor _ => []

def confirmAt (r : SendConfirm) : List Nat :=
  if job.fileNum ≠ r.fileNum then []
  else match r.union with
    | some (.offsetBlk offset) =>
      if 0 < offset then job.setStreamOffsetAt (usizeOfI32 r.fileNum) else []
    | _ => []

end TransferJob

inductive JobNote
  | index (i length : Nat)
  | number (fileNum : Int) (before : TransferJob) (after : Option TransferJob)

/-- The list was indexed where it has an element; and a number out of range left the job as it
was. -/
def JobNote.Ok : JobNote → Prop
  | .index i length => i < length
  | .number fileNum before after => before.OutOfRange fileNum → after = some before

namespace TransferJob

def noted (job : TransferJob) (positions : List Nat) : List JobNote :=
  positions.map (.index · job.files.length)

end TransferJob

/-! ### The machine -/

/-- `sent` are the commands on their way to the connection manager; `aborted` says that an
index was out of range. -/
structure FileHost where
  needFsCmSendFiles : Bool := false
  readJobs : List TransferJob := []
  cmReadJobIds : List Int := []
  sent : List Fs := []
  writeJobs : List TransferJob := []
  cmReadJobs : List TransferJob := []
  disk : Disk := fun _ => none
  notes : List JobNote := []
  aborted : Bool := false

/-- What the machine answers in one event: the files that were listed, if the listing succeeds
and is not too long; the data of a print job; whether the peer detects overwrites; whether the
names of a list are accepted; and whether the digest of a file could be compared. -/
structure FileAnswers where
  fs : FileSystem
  host : Host
  listing : Option (List FileEntry) := none
  printerData : Option Bytes := none
  overwriteDetection : Bool := true
  filesAccepted : Bool := true
  digestChecked : Bool := true
  io : WriteIo := {}

/-- `JobType::from_proto` -/
def jobTypeOfProto (fileType : Int) : JobType := if fileType = 1 then .printer else .generic

namespace FileHost

def getJob (id : Int) (jobs : List TransferJob) : Option TransferJob := jobs.find? (·.id = id)

def removeJob (id : Int) (jobs : List TransferJob) : List TransferJob := jobs.eraseP (·.id = id)

def send (fs : Fs) (s : FileHost) : FileHost := { s with sent := s.sent ++ [fs] }

def note (notes : List JobNote) (s : FileHost) : FileHost := { s with notes := s.notes ++ notes }

/-- `job.confirm(&r)` on the first job of the id; `fileNum` is the number that the peer sent. -/
def confirmNotes (fs : FileSystem) (fileNum : Int) (r : SendConfirm) (job : TransferJob) :
    List JobNote :=
  job.noted (job.confirmAt r) ++ [.number fileNum job (job.confirm fs r)]

def onSend (a : FileAnswers) (id : Int) (path : String) (includeHidden : Bool) (fileNum : Int)
    (fileType : Int) (s : FileHost) : FileHost :=
  match jobTypeOfProto fileType with
  | .generic =>
    if s.needFsCmSendFiles then
      { s with cmReadJobIds := id :: s.cmReadJobIds }.send
        (.readFile id path fileNum includeHidden a.overwriteDetection)
    else match a.listing with
      | none => s
      | some files =>
        { s with readJobs := s.readJobs ++
          [{ id
             dataSource := .filePath path
             fileNum
             files
             enableOverwriteDetection := a.overwriteDetection }] }
  | .printer =>
    match a.printerData with
    | none => s
    | some data =>
      { s with readJobs := s.readJobs ++
        [{ id
           type := .printer
           dataSource := .memoryCursor data
           fileNum
           enableOverwriteDetection := true }] }

def onSendConfirm (a : FileAnswers) (r : SendConfirm) (s : FileHost) : FileHost :=
  match getJob r.id s.readJobs with
  | some job =>
    let s := s.note (confirmNotes a.fs r.fileNum r job)
    match ReadDrivers.updateJob r.id (·.confirm a.fs r) s.readJobs with
    | some readJobs => { s with readJobs }
    | none => { s with aborted := true }
  | none =>
    if s.cmReadJobIds.contains r.id then
      s.send (.sendConfirmForRead r.id r.fileNum r.skip r.offsetBlk)
    else s.send (.sendConfirm r)

/-- The file actions of the peer, in the connection. The others do not reach a job. -/
def onAction (a : FileAnswers) (s : FileHost) : FileAction → FileHost
  | .send id path includeHidden fileNum fileType =>
    s.onSend a id path includeHidden fileNum fileType
  | .receive id path files fileNum totalSize =>
    s.send (.newWrite id path fileNum (files.map fun f => (f.name, f.modifiedTime))
      a.overwriteDetection totalSize)
  | .cancel id =>
    { (s.send (.cancelWrite id)).send (.cancelRead id) with
      cmReadJobIds := s.cmReadJobIds.filter (· ≠ id)
      readJobs := removeJob id s.readJobs }
  | .sendConfirm r => s.onSendConfirm a r
  | _ => s

/-- The file responses of the peer, in the connection. -/
def onResponse (s : FileHost) : FileResponse → FileHost
  | .block b => s.send (.writeBlock b)
  | .done id fileNum => s.send (.writeDone id fileNum)
  | .digest d => s.send (.checkDigest { d with isUpload := true })
  | .error id err fileNum => s.send (.writeError id fileNum err)
  | _ => s

/-- The first job of the id is replaced by `f` of it. -/
def setJob (id : Int) (f : TransferJob → TransferJob) (jobs : List TransferJob) :
    List TransferJob :=
  (ReadDrivers.updateJob id (fun job => some (f job)) jobs).getD jobs

/-- `handle_fs` in the connection manager, as far as it has to do with jobs. -/
def handleFs (a : FileAnswers) (s : FileHost) : Fs → FileHost
  | .newWrite id path fileNum files overwriteDetection _ =>
    if a.filesAccepted then
      { s with writeJobs := s.writeJobs ++
        [{ id
           dataSource := .filePath path
           fileNum
           files := files.map fun f => { name := f.1, modifiedTime := f.2 }
           enableOverwriteDetection := overwriteDetection }] }
    else s
  | .cancelWrite id =>
    match getJob id s.writeJobs with
    | none => s
    | some job =>
      { s.note (job.noted job.removeDownloadFileAt) with
        writeJobs := removeJob id s.writeJobs
        disk := job.removeDownloadFile a.host s.disk }
  | .writeDone id _ =>
    match getJob id s.writeJobs with
    | none => s
    | some job =>
      { s.note (job.noted job.modifyTimeAt) with
        writeJobs := removeJob id s.writeJobs
        disk := job.modifyTimeIo a.host a.io.renameFails s.disk }
  | .writeError id _ _ => { s with writeJobs := removeJob id s.writeJobs }
  | .writeBlock b =>
    match getJob b.id s.writeJobs with
    | none => s
    | some job =>
      let r := job.writeIo a.host a.io b s.disk
      { s.note (job.noted (job.writeAt b) ++ [.number b.fileNum job (some r.2.1)]) with
        writeJobs := setJob b.id (fun _ => r.2.1) s.writeJobs
        disk := r.2.2 }
  | .checkDigest d =>
    match getJob d.id s.writeJobs with
    | none => s
    | some job =>
      let job' := match job.dataSource, job.files[usizeOfI32 d.fileNum]? with
        | .filePath _, some _ =>
          if a.digestChecked then job.setDigest d.fileSize d.lastModified else job
        | _, _ => job
      { s.note [.number d.fileNum job (some job')] with
        writeJobs := setJob d.id (fun _ => job') s.writeJobs }
  | .sendConfirm r =>
    match getJob r.id s.writeJobs with
    | none => s
    | some job =>
      let s := s.note (confirmNotes a.fs r.fileNum r job)
      match ReadDrivers.updateJob r.id (·.confirm a.fs r) s.writeJobs with
      | some writeJobs => { s with writeJobs }
      | none => { s with aborted := true }
  | .readFile id path fileNum _ overwriteDetection =>
    match a.listing with
    | none => s
    | some files =>
      { s with cmReadJobs := s.cmReadJobs ++
        [{ id
           dataSource := .filePath path
           fileNum
           files
           enableOverwriteDetection := overwriteDetection }] }
  | .cancelRead id => { s with cmReadJobs := removeJob id s.cmReadJobs }
  | .sendConfirmForRead id fileNum skip offsetBlk =>
    match getJob id s.cmReadJobs with
    | none => s
    | some job =>
      let r : SendConfirm :=
        { id
          fileNum := job.fileNum
          union := some (if skip then .skip true else .offsetBlk offsetBlk) }
      let s := s.note (confirmNotes a.fs fileNum r job)
      match ReadDrivers.updateJob id (·.confirm a.fs r) s.cmReadJobs with
      | some cmReadJobs => { s with cmReadJobs }
      | none => { s with aborted := true }
  | _ => s

/-! ### Ticks -/

/-- The job that the second loop of `handle_read_jobs` reads. -/
def readNotes : List TransferJob → List JobNote
  | [] => []
  | job :: jobs => if job.isLastJob then readNotes jobs else job.noted job.readAt

def initNotes (jobs : List TransferJob) : List JobNote :=
  jobs.flatMap fun job => if job.isLastJob then [] else job.noted job.openDataStreamAt

def tick (fs : FileSystem) (s : FileHost) : FileHost :=
  { s.note (initNotes s.readJobs ++ readNotes (ReadDrivers.initJobs fs s.readJobs).2) with
    readJobs := (ReadDrivers.handleReadJobs fs s.readJobs).2 }

def cmTickNotes (fs : FileSystem) : List TransferJob → List JobNote
  | [] => []
  | job :: jobs =>
    if job.isLastJob then cmTickNotes fs jobs
    else job.noted job.openDataStreamAt ++
      match ReadDrivers.initReadJobForCm fs job with
      | (.error _, _) => cmTickNotes fs jobs
      | (.ok _, job) => job.noted job.readAt

def cmTick (fs : FileSystem) (s : FileHost) : FileHost :=
  { s.note (cmTickNotes fs s.cmReadJobs) with
    cmReadJobs := (ReadDrivers.handleReadJobsTick fs s.cmReadJobs).2 }

/-! ### Runs -/

/-- A message of the peer arrives, the manager takes the next command, a timer fires, the
connection hears that the manager has done with a read job, or the disk changes otherwise. -/
inductive Event
  | action (fa : FileAction) (a : FileAnswers)
  | response (fr : FileResponse)
  | deliver (a : FileAnswers)
  | tick (fs : FileSystem)
  | cmTick (fs : FileSystem)
  | cmFinished (id : Int)
  | disk (disk : Disk)

def step (s : FileHost) (ev : Event) : FileHost :=
  if s.aborted then s
  else match ev with
    | .action fa a => s.onAction a fa
    | .response fr => s.onResponse fr
    | .deliver a =>
      match s.sent with
      | [] => s
      | fs :: sent => { s with sent }.handleFs a fs
    | .tick fs => s.tick fs
    | .cmTick fs => s.cmTick fs
    | .cmFinished id => { s with cmReadJobIds := s.cmReadJobIds.filter (· ≠ id) }
    | .disk disk => { s with disk }

/-- No index was out of range, and every number that was had no effect. -/
def Sound (s : FileHost) : Prop := (∀ note ∈ s.notes, note.Ok) ∧ s.aborted = false

/-- The job is not asked to confirm a file that it does not have. -/
def Confirmable (jobs : List TransferJob) (r : SendConfirm) : Prop :=
  ∀ job, getJob r.id jobs = some job → r.fileNum = job.fileNum → job.OutOfRange r.fileNum →
    r.union = none

/-- The manager confirms whatever file a read job is at: the number it was sent is in range,
and so is the job when it is to seek. -/
def ConfirmableForRead (jobs : List TransferJob) (id fileNum : Int) (skip : Bool)
    (offsetBlk : UInt32) : Prop :=
  ∀ job, getJob id jobs = some job → ¬ job.OutOfRange fileNum ∧
    (job.OutOfRange job.fileNum → skip = true ∨ ¬ 0 < offsetBlk)

/-- The condition on one event. -/
def Confirms (s : FileHost) : Event → Prop
  | .action (.sendConfirm r) _ => Confirmable s.readJobs r
  | .deliver _ =>
    match s.sent.head? with
    | some (.sendConfirm r) => Confirmable s.writeJobs r
    | some (.sendConfirmForRead id fileNum skip offsetBlk) =>
      ConfirmableForRead s.cmReadJobs id fileNum skip offsetBlk
    | _ => True
  | _ => True

/-! ### The checked operations -/

section Checked

variable {job : TransferJob}

theorem ok_noted {positions : List Nat} (h : ∀ i ∈ positions, i < job.files.length) :
    ∀ note ∈ job.noted positions, note.Ok := by
  intro note hnote
  obtain ⟨i, hi, rfl⟩ := List.mem_map.mp hnote
  exact h i hi

theorem modifyTimeAt_lt : ∀ i ∈ job.modifyTimeAt, i < job.files.length := by
  intro i hi
  unfold TransferJob.modifyTimeAt at hi
  split at hi
  · cases hi
  · split at hi
    · dsimp only at hi
      split at hi
      · rename_i hlt
        rwa [List.mem_singleton.mp hi]
      · cases hi
    · cases hi

theorem writeAt_lt {block : FileTransferBlock} :
    ∀ i ∈ job.writeAt block, i < job.files.length := by
  intro i hi
  unfold TransferJob.writeAt at hi
  split at hi
  · cases hi
  · split at hi
    · dsimp only at hi
      split at hi
      · cases hi
      · rename_i hlt
        split at hi
        · rcases List.mem_append.mp hi with hi | hi
          · exact modifyTimeAt_lt i hi
          · rw [List.mem_singleton.mp hi]
            exact Nat.not_le.mp hlt
        · cases hi
    · cases hi

theorem openDataStreamAt_lt : ∀ i ∈ job.openDataStreamAt, i < job.files.length := by
  intro i hi
  unfold TransferJob.openDataStreamAt at hi
  split at hi
  · dsimp only at hi
    split at hi
    · cases hi
    · rename_i hlt
      split at hi
      · rw [List.mem_singleton.mp hi]
        exact Nat.not_le.mp hlt
      · cases hi
  · cases hi

theorem readAt_lt : ∀ i ∈ job.readAt, i < job.files.length := by
  intro i hi
  unfold TransferJob.readAt at hi
  split at hi
  · cases hi
  · split at hi
    · dsimp only at hi
      split at hi
      · cases hi
      · rename_i hlt
        rw [List.mem_singleton.mp hi]
        exact Nat.not_le.mp hlt
    · cases hi

theorem writeIo_of_outOfRange {host : Host} {io : WriteIo} {block : FileTransferBlock}
    {disk : Disk} (h : job.OutOfRange block.fileNum) : (job.writeIo host io block disk).2.1 = job := by
  obtain ⟨hfile, hlen⟩ := h
  unfold TransferJob.writeIo
  split
  · rfl
  · split
    · rw [List.getElem?_eq_none hlen]
    · rename_i hsource
      unfold TransferJob.ofMemory at hfile
      rw [hsource] at hfile
      cases hfile

theorem setStreamOffset_isSome {fs : FileSystem} {fileNum offset : Nat}
    (h : ∀ i ∈ job.setStreamOffsetAt fileNum, i < job.files.length) :
    (job.setStreamOffset fs fileNum offset).isSome = true := by
  unfold TransferJob.setStreamOffsetAt at h
  unfold TransferJob.setStreamOffset
  cases hsource : job.dataSource with
  | memoryCursor data => rfl
  | filePath p =>
    rw [hsource] at h
    dsimp only
    rw [List.getElem?_eq_getElem (h fileNum List.mem_cons_self)]
    dsimp only
    split
    · rfl
    · split
      · rfl
      · split <;> rfl

/-- A confirmation returns unless it indexes the list out of range. -/
theorem confirm_isSome {fs : FileSystem} {r : SendConfirm}
    (h : ∀ i ∈ job.confirmAt r, i < job.files.length) : (job.confirm fs r).isSome = true := by
  unfold TransferJob.confirmAt at h
  unfold TransferJob.confirm
  split
  · rfl
  · rename_i heq
    rw [if_neg heq] at h
    split
    · rfl
    · rfl
    · rename_i offset hunion
      rw [hunion] at h
      dsimp only at h
      split
      · rename_i hpos
        rw [if_pos hpos] at h
        exact setStreamOffset_isSome h
      · rfl
    · rfl

theorem setStreamOffsetAt_lt {fileNum : Int} (h : ¬ job.OutOfRange fileNum) :
    ∀ i ∈ job.setStreamOffsetAt (usizeOfI32 fileNum), i < job.files.length := by
  intro i hi
  unfold TransferJob.setStreamOffsetAt at hi
  split at hi
  · rename_i hsource
    rw [List.mem_singleton.mp hi]
    by_contra hlt
    refine h ⟨?_, Nat.not_lt.mp hlt⟩
    unfold TransferJob.ofMemory
    rw [hsource]
  · cases hi

theorem confirmAt_lt {r : SendConfirm}
    (h : r.fileNum = job.fileNum → job.OutOfRange r.fileNum →
      ∀ offset, r.union = some (.offsetBlk offset) → ¬ 0 < offset) :
    ∀ i ∈ job.confirmAt r, i < job.files.length := by
  intro i hi
  unfold TransferJob.confirmAt at hi
  split at hi
  · cases hi
  · rename_i heq
    rw [not_not] at heq
    split at hi
    · rename_i offset hunion
      split at hi
      · rename_i hpos
        refine setStreamOffsetAt_lt (fun hout => ?_) i hi
        exact h heq.symm hout offset hunion hpos
      · cases hi
    · cases hi

end Checked

/-! ### One event -/

section Step

variable {s : FileHost}

theorem sound_note {notes : List JobNote} (hs : s.Sound) (h : ∀ note ∈ notes, note.Ok) :
    (s.note notes).Sound := by
  refine ⟨fun note hnote => ?_, hs.2⟩
  rcases List.mem_append.mp hnote with hnote | hnote
  · exact hs.1 note hnote
  · exact h note hnote

/-- The notes and the flag are all that `Sound` reads. -/
theorem sound_congr {s' : FileHost} (hs : s.Sound) (hnotes : s'.notes = s.notes)
    (haborted : s'.aborted = s.aborted) : s'.Sound := by
  refine ⟨?_, haborted.trans hs.2⟩
  rw [hnotes]
  exact hs.1

theorem ok_confirmNotes {fs : FileSystem} {job : TransferJob} {r : SendConfirm} {fileNum : Int}
    (hindex : ∀ i ∈ job.confirmAt r, i < job.files.length)
    (hnumber : job.OutOfRange fileNum → job.confirm fs r = some job) :
    ∀ note ∈ confirmNotes fs fileNum r job, note.Ok := by
  intro note hnote
  rcases List.mem_append.mp hnote with hnote | hnote
  · exact ok_noted hindex note hnote
  · rw [List.mem_singleton.mp hnote]
    exact hnumber

theorem updateJob_isSome {id : Int} {f : TransferJob → Option TransferJob}
    {jobs : List TransferJob} (h : ∀ job, getJob id jobs = some job → (f job).isSome = true) :
    (ReadDrivers.updateJob id f jobs).isSome = true := by
  induction jobs with
  | nil => rfl
  | cons job jobs ih =>
    unfold ReadDrivers.updateJob
    unfold getJob at h
    by_cases hid : job.id = id
    · rw [if_pos hid, Option.isSome_map]
      exact h job (by rw [List.find?_cons_of_pos (by simpa using hid)])
    · rw [if_neg hid, Option.isSome_map]
      refine ih fun j hj => h j ?_
      rw [List.find?_cons_of_neg (by simpa using hid)]
      exact hj

theorem updateJob_confirm (fs : FileSystem) {id : Int} {r : SendConfirm} {job : TransferJob}
    {jobs : List TransferJob} (hjob : getJob id jobs = some job)
    (hindex : ∀ i ∈ job.confirmAt r, i < job.files.length) :
    ∃ jobs', ReadDrivers.updateJob id (·.confirm fs r) jobs = some jobs' := by
  apply Option.isSome_iff_exists.mp
  refine updateJob_isSome fun j hj => ?_
  rw [hjob] at hj
  cases hj
  exact confirm_isSome hindex

theorem confirmable_spec (fs : FileSystem) {jobs : List TransferJob} {r : SendConfirm}
    {job : TransferJob} (h : Confirmable jobs r) (hjob : getJob r.id jobs = some job) :
    (∀ i ∈ job.confirmAt r, i < job.files.length) ∧
      (job.OutOfRange r.fileNum → job.confirm fs r = some job) := by
  constructor
  · refine confirmAt_lt fun heq hout offset hunion => ?_
    rw [h job hjob heq hout] at hunion
    cases hunion
  · intro hout
    unfold TransferJob.confirm
    by_cases heq : job.fileNum = r.fileNum
    · rw [if_neg (by simpa using heq), h job hjob heq.symm hout]
    · rw [if_pos heq]

theorem sound_onSendConfirm {a : FileAnswers} {r : SendConfirm} (hs : s.Sound)
    (h : Confirmable s.readJobs r) : (s.onSendConfirm a r).Sound := by
  unfold onSendConfirm
  split
  · rename_i job hjob
    obtain ⟨hindex, hnumber⟩ := confirmable_spec a.fs h hjob
    obtain ⟨readJobs, hread⟩ := updateJob_confirm a.fs hjob hindex
    dsimp only [note]
    rw [hread]
    exact sound_note hs (ok_confirmNotes hindex hnumber)
  · split
    · exact hs
    · exact hs

theorem sound_onAction {a : FileAnswers} {fa : FileAction} (hs : s.Sound)
    (h : s.Confirms (.action fa a)) : (s.onAction a fa).Sound := by
  cases fa with
  | sendConfirm r => exact sound_onSendConfirm hs h
  | send id path includeHidden fileNum fileType =>
    unfold onAction onSend
    dsimp only
    split
    · split
      · exact hs
      · split <;> exact hs
    · split <;> exact hs
  | _ => exact hs

theorem sound_onResponse {fr : FileResponse} (hs : s.Sound) : (s.onResponse fr).Sound := by
  cases fr <;> exact hs

/-- The manager confirms the file that the job is at, and the job seeks only within its files. -/
theorem confirmAt_lt_forRead {job : TransferJob} {id : Int} {skip : Bool} {offsetBlk : UInt32}
    (hseek : job.OutOfRange job.fileNum → skip = true ∨ ¬ 0 < offsetBlk) :
    ∀ i ∈ job.confirmAt (SendConfirm.mk id job.fileNum
      (some (if skip then .skip true else .offsetBlk offsetBlk))), i < job.files.length := by
  refine confirmAt_lt fun _ hout offset hunion => ?_
  rcases hseek hout with hskip | hzero
  · rw [hskip] at hunion
    cases hunion
  · split at hunion
    · cases hunion
    · cases hunion
      exact hzero

theorem sound_handleFs {a : FileAnswers} {fs : Fs} (hs : s.Sound)
    (hconfirm : ∀ r, fs = .sendConfirm r → Confirmable s.writeJobs r)
    (hread : ∀ id fileNum skip offsetBlk, fs = .sendConfirmForRead id fileNum skip offsetBlk →
      ConfirmableForRead s.cmReadJobs id fileNum skip offsetBlk) : (s.handleFs a fs).Sound := by
  cases fs with
  | newWrite id path fileNum files overwriteDetection total =>
    dsimp only [handleFs]
    split <;> exact hs
  | cancelWrite id =>
    dsimp only [handleFs]
    split
    · exact hs
    · exact sound_congr (sound_note hs (ok_noted modifyTimeAt_lt)) rfl rfl
  | writeDone id fileNum =>
    dsimp only [handleFs]
    split
    · exact hs
    · exact sound_congr (sound_note hs (ok_noted modifyTimeAt_lt)) rfl rfl
  | writeError id fileNum err => exact hs
  | writeBlock b =>
    dsimp only [handleFs]
    split
    · exact hs
    · rename_i job hjob
      refine sound_congr (sound_note hs ?_) rfl rfl
      intro note hnote
      rcases List.mem_append.mp hnote with hnote | hnote
      · exact ok_noted writeAt_lt note hnote
      · rw [List.mem_singleton.mp hnote]
        exact fun hout => congrArg some (writeIo_of_outOfRange hout)
  | checkDigest d =>
    dsimp only [handleFs]
    split
    · exact hs
    · rename_i job hjob
      refine sound_congr (sound_note hs ?_) rfl rfl
      intro note hnote
      rw [List.mem_singleton.mp hnote]
      intro hout
      rw [List.getElem?_eq_none hout.2]
      cases job.dataSource <;> rfl
  | sendConfirm r =>
    dsimp only [handleFs]
    split
    · exact hs
    · rename_i job hjob
      obtain ⟨hindex, hnumber⟩ := confirmable_spec a.fs (hconfirm r rfl) hjob
      obtain ⟨writeJobs, hwrite⟩ := updateJob_confirm a.fs hjob hindex
      dsimp only [note]
      rw [hwrite]
      exact sound_note hs (ok_confirmNotes hindex hnumber)
  | readFile id path fileNum includeHidden overwriteDetection =>
    dsimp only [handleFs]
    split <;> exact hs
  | cancelRead id => exact hs
  | sendConfirmForRead id fileNum skip offsetBlk =>
    dsimp only [handleFs]
    split
    · exact hs
    · rename_i job hjob
      obtain ⟨hin, hseek⟩ := hread id fileNum skip offsetBlk rfl job hjob
      generalize hr : (SendConfirm.mk id job.fileNum
        (some (if skip then .skip true else .offsetBlk offsetBlk))) = r
      have hindex : ∀ i ∈ job.confirmAt r, i < job.files.length := hr ▸ confirmAt_lt_forRead hseek
      obtain ⟨cmReadJobs, hcm⟩ := updateJob_confirm a.fs hjob hindex
      dsimp only [note]
      rw [hcm]
      exact sound_note hs (ok_confirmNotes hindex fun hout => absurd hout hin)
  | _ => exact hs

theorem ok_readNotes (jobs : List TransferJob) : ∀ note ∈ readNotes jobs, note.Ok := by
  induction jobs with
  | nil =>
    intro note hnote
    cases hnote
  | cons job jobs ih =>
    unfold readNotes
    split
    · exact ih
    · exact ok_noted readAt_lt

theorem ok_initNotes (jobs : List TransferJob) : ∀ note ∈ initNotes jobs, note.Ok := by
  intro note hnote
  obtain ⟨job, -, hjob⟩ := List.mem_flatMap.mp hnote
  split at hjob
  · cases hjob
  · exact ok_noted openDataStreamAt_lt note hjob

theorem ok_cmTickNotes (fs : FileSystem) (jobs : List TransferJob) :
    ∀ note ∈ cmTickNotes fs jobs, note.Ok := by
  induction jobs with
  | nil =>
    intro note hnote
    cases hnote
  | cons job jobs ih =>
    intro note hnote
    unfold cmTickNotes at hnote
    split at hnote
    · exact ih note hnote
    · rcases List.mem_append.mp hnote with hnote | hnote
      · exact ok_noted openDataStreamAt_lt note hnote
      · split at hnote
        · exact ih note hnote
        · exact ok_noted readAt_lt note hnote

theorem sound_step {ev : Event} (hs : s.Sound) (h : s.Confirms ev) : (s.step ev).Sound := by
  unfold step
  rw [if_neg (by rw [hs.2]; exact Bool.false_ne_true)]
  cases ev with
  | action fa a => exact sound_onAction hs h
  | response fr => exact sound_onResponse hs
  | deliver a =>
    dsimp only
    cases hsent : s.sent with
    | nil => exact hs
    | cons fs sent =>
      unfold Confirms at h
      dsimp only at h
      rw [hsent, List.head?_cons] at h
      refine sound_handleFs (sound_congr hs rfl rfl) ?_ ?_
      · rintro r rfl
        exact h
      · rintro id fileNum skip offsetBlk rfl
        exact h
  | tick fs =>
    refine sound_congr (sound_note hs ?_) rfl rfl
    intro note hnote
    rcases List.mem_append.mp hnote with hnote | hnote
    · exact ok_initNotes _ note hnote
    · exact ok_readNotes _ note hnote
  | cmTick fs => exact sound_congr (sound_note hs (ok_cmTickNotes fs _)) rfl rfl
  | cmFinished id => exact sound_congr hs rfl rfl
  | disk disk => exact sound_congr hs rfl rfl

end Step

/-- In every run in which no job is asked to confirm a file that it does not have, the list of
files is indexed in range only, and a number out of range leaves the job as it was. -/
theorem file_numbers_in_range (needFsCmSendFiles : Bool) (events : List Event)
    (h : History.Guarded step Confirms { needFsCmSendFiles } events) :
    History.Throughout step Sound { needFsCmSendFiles } events := by
  refine History.throughout_of_guarded (fun _ _ hs hok => sound_step hs hok) ⟨?_, rfl⟩ h
  intro note hnote
  cases hnote

/-- A machine on which every call succeeds and finds nothing. -/
def emptyHost : Host where
  push p name := p ++ "/" ++ name
  fileName _ := none
  noSymlinkComponents _ _ := none
  compress data := data
  decompress data := data
  parseDigest _ := none
  digestJson _ := []

def emptyAnswers : FileAnswers where
  fs := emptyHost.fs fun _ => none
  host := emptyHost

/-- One file is to be received, from the given number on; a confirmation and a block follow. -/
def receiveEvents (start confirmed : Int) (offset : UInt32) : List Event :=
  [.action (.receive 1 "/d" [{ name := "a" }] start 0) emptyAnswers,
    .deliver emptyAnswers,
    .action (.sendConfirm ⟨1, confirmed, some (.offsetBlk offset)⟩) emptyAnswers,
    .deliver emptyAnswers,
    .response (.block ⟨1, 7, [], false⟩),
    .deliver emptyAnswers]

/-- The job starts at a file that it does not have. What it is sent is for files in range or
for files it is not at. -/
theorem file_numbers_in_range_receive :
    History.Throughout step Sound {} (receiveEvents 5 0 1) := by
  refine file_numbers_in_range false (receiveEvents 5 0 1) ?_
  refine ⟨trivial, trivial, ?_, ?_, trivial, trivial, trivial⟩
  · intro job hjob
    cases hjob
  · intro job hjob heq hout
    cases hjob
    exact absurd heq (by decide)

/-- The job starts at the sixth of one file, and the confirmation is for that one. -/
theorem file_number_indexed_out_of_range :
    ¬ ∀ (needFsCmSendFiles : Bool) (events : List Event),
      History.Throughout step Sound { needFsCmSendFiles } events := by
  intro h
  have hlast := History.throughout_last (h false ((receiveEvents 5 5 1).take 4))
  exact absurd hlast.2 (by decide +kernel)

end FileHost

end RustDesk
