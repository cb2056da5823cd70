import RustDesk.ResumedTransfer

/-!
# The two ends of a resumed transfer

What one tick of the sender sends and where it leaves the read job, and what the receiver
does with a block, with a confirmation and with the end of the job. The files of the
receiver are kept apart by their slots, so each operation is about the slots of one file.
-/

namespace RustDesk

namespace DataStream

variable {host : Host} {disk : Disk} {path : String} {pos : Nat} {f : DiskFile}

theorem read_disk (hf : disk path = some f) (room : Nat) :
    (DataStream.fileStream { path, pos, writing := false }).read (host.fs disk) room =
      .ok ((f.data.drop pos).take room, .fileStream
        { path
          pos := pos + ((f.data.drop pos).take room).length
          writing := false }) := by
  simp [DataStream.read, Host.fs, hf, List.take_take]

/-- Reading a file of a disk gives what is left of it, up to the size of the buffer. -/
theorem readLoop_disk (hf : disk path = some f) (fuel : Nat) :
    (DataStream.fileStream { path, pos, writing := false }).readLoop (host.fs disk) (fuel + 2) [] =
      .ok ((f.data.drop pos).take bufSize, .fileStream
        { path
          pos := pos + ((f.data.drop pos).take bufSize).length
          writing := false }) := by
  set data := (f.data.drop pos).take bufSize with hdata
  simp only [readLoop, List.length_nil, Nat.sub_zero, read_disk hf]
  rw [← hdata]
  by_cases hstop : (data.isEmpty || ([] ++ data).length == bufSize) = true
  · rw [if_pos hstop, List.nil_append]
  · -- The buffer has room left, so the file is at its end and the second call reads nothing.
    have hshort : (f.data.drop pos).length < bufSize := by
      by_contra hlong
      apply hstop
      have hfull : data.length = bufSize := by
        rw [hdata, List.length_take]
        omega
      simp [hfull]
    have hend : f.data.drop (pos + data.length) = [] := by
      rw [← List.drop_drop, List.drop_eq_nil_iff, hdata, List.length_take]
      omega
    rw [if_neg hstop]
    simp [hend]

end DataStream

namespace Resumption

variable {c : Resumption} {job : TransferJob} {k : Nat}

/-- The read job, at file `k`. -/
structure Reading (c : Resumption) (job : TransferJob) (k : Nat) : Prop where
  id : job.id = c.id
  type : job.type = .generic
  dataSource : job.dataSource = .filePath c.sourceBase
  isLastJob : job.isLastJob = false
  isResume : job.isResume = decide (c.direction = .upload)
  fileNum : job.fileNum = k
  files : job.files = c.sourceFiles
  detection : job.enableOverwriteDetection = true

/-- The job with the source of file `k` open. -/
def opened (c : Resumption) (k pos : Nat) : Option DataStream :=
  some (.fileStream { path := c.sourcePath k, pos, writing := false })

theorem getElem?_getD {α : Type*} {l : List α} {k : Nat} (a : α) (h : k < l.length) :
    l[k]? = some (l.getD k a) := by
  simp [h]

theorem Reading.entry (hr : Reading c job k) (hc : c.Sound) (hk : k < c.sourceFiles.length) :
    job.entry = some (c.sourceFiles.getD k {}) := by
  have hlt := hc.length_lt
  rw [TransferJob.entry, hr.fileNum, hr.files, usizeOfI32_natCast (by omega), getElem?_getD {} hk]

theorem Reading.entry_end (hr : Reading c job k) (hc : c.Sound) (hk : k = c.sourceFiles.length) :
    job.entry = none := by
  have hlt := hc.length_lt
  rw [TransferJob.entry, hr.fileNum, hr.files, usizeOfI32_natCast (by omega)]
  simp [hk]

/-- The job has no file open. -/
structure Opening (c : Resumption) (job : TransferJob) (k : Nat) : Prop extends Reading c job k where
  stream : job.dataStream = none
  confirmed : job.fileConfirmed = false
  waiting : job.fileIsWaiting = false

/-- The job has told the receiver about the file and waits for the confirmation. -/
structure Waiting (c : Resumption) (job : TransferJob) (k : Nat) : Prop extends Reading c job k where
  stream : job.dataStream = c.opened k 0
  confirmed : job.fileConfirmed = false
  waiting : job.fileIsWaiting = true

/-- The job sends the file and has come to position `pos`. -/
structure Sending (c : Resumption) (job : TransferJob) (k pos : Nat) : Prop
    extends Reading c job k where
  stream : job.dataStream = c.opened k pos
  confirmed : job.fileConfirmed = true
  skipped : job.fileSkipped = false

/-! ## A tick of the sender -/

theorem Opening.init (ho : Opening c job k) (hc : c.Sound) (hk : k < c.sourceFiles.length) :
    ∃ job', job.initDataStream (c.sender.fs c.source) =
        (.ok (some (.digest (c.sourceDigest k))), job') ∧ Waiting c job' k ∧
      job'.defaultOverwriteStrategy = job.defaultOverwriteStrategy := by
  have hfile := hc.sourceExists k hk
  set o : TransferJob :=
    { job with dataStream := c.opened k 0, fileConfirmed := false, fileIsWaiting := false } with hset
  have hopen : job.openDataStream (c.sender.fs c.source) = (.ok false, o) := by
    have hname : (c.sender.fs c.source).openRead (TransferJob.join (c.sender.fs c.source) c.sourceBase
        (c.sourceFiles.getD k {}).name) = none := Host.fs_openRead hfile
    simp only [TransferJob.openDataStream, hset, ho.dataSource, ho.entry hc hk, ho.stream, hname]
    rfl
  have hwants : o.wantsDigest = true := by
    simp [TransferJob.wantsDigest, hset, ho.type, ho.detection]
  have hdigest : o.getCurrentDigest (c.sender.fs c.source) =
      .ok ((c.sourceFile k).modified, (c.sourceFile k).data.length) := Host.fs_metadata hfile
  have hresp : o.digestResponse (c.sourceFile k).modified (c.sourceFile k).data.length =
      .digest (c.sourceDigest k) := by
    simp [TransferJob.digestResponse, sourceDigest, hset, ho.id, ho.fileNum, ho.isResume]
  refine ⟨{ o with fileIsWaiting := true }, ?_, ⟨⟨ho.id, ho.type, ho.dataSource, ho.isLastJob,
    ho.isResume, ho.fileNum, ho.files, ho.detection⟩, rfl, rfl, rfl⟩, rfl⟩
  simp only [TransferJob.initDataStream, hopen, hwants, hdigest, hresp, if_true]

theorem Waiting.init (hw : Waiting c job k) (hc : c.Sound) (hk : k < c.sourceFiles.length) :
    job.initDataStream (c.sender.fs c.source) = (.ok none, job) := by
  have hopen : job.openDataStream (c.sender.fs c.source) = (.ok false, job) := by
    simp [TransferJob.openDataStream, hw.dataSource, hw.entry hc hk, hw.stream, opened]
  have hwants : job.wantsDigest = false := by simp [TransferJob.wantsDigest, hw.waiting]
  simp [TransferJob.initDataStream, hopen, hwants]

theorem Waiting.read (hw : Waiting c job k) :
    job.read (c.sender.fs c.source) = (.ok none, job) ∧ job.jobCompleted = false := by
  simp [TransferJob.read, TransferJob.awaitsConfirmation, TransferJob.jobCompleted, hw.type,
    hw.detection, hw.confirmed, hw.waiting]

theorem Opening.tick (ho : Opening c job k) (hc : c.Sound) (hk : k < c.sourceFiles.length) :
    ∃ job', ReadDrivers.handleReadJobs (c.sender.fs c.source) [job] =
        ([.digest (c.sourceDigest k)], [job']) ∧ Waiting c job' k ∧
      job'.defaultOverwriteStrategy = job.defaultOverwriteStrategy := by
  obtain ⟨job', hinit, hw, hstrategy⟩ := ho.init hc hk
  refine ⟨job', ?_, hw, hstrategy⟩
  simp [ReadDrivers.handleReadJobs, ReadDrivers.initJobs, ReadDrivers.readJobs, hinit,
    ReadDrivers.initResponses, ho.isLastJob, hw.isLastJob, hw.read, ReadDrivers.removeFinished]

theorem Waiting.tick (hw : Waiting c job k) (hc : c.Sound) (hk : k < c.sourceFiles.length) :
    ReadDrivers.handleReadJobs (c.sender.fs c.source) [job] = ([], [job]) := by
  simp [ReadDrivers.handleReadJobs, ReadDrivers.initJobs, ReadDrivers.readJobs, hw.init hc hk,
    ReadDrivers.initResponses, hw.isLastJob, hw.read, ReadDrivers.removeFinished]

theorem Opening.tick_end (ho : Opening c job k) (hc : c.Sound) (hk : k = c.sourceFiles.length) :
    ReadDrivers.handleReadJobs (c.sender.fs c.source) [job] =
      ([if job.fileSkipped && c.sourceFiles.length == 1 then .error c.id "skipped" k
        else .done c.id k], []) := by
  have hopen : job.openDataStream (c.sender.fs c.source) = (.ok true, job) := by
    simp only [TransferJob.openDataStream, ho.dataSource, ho.entry_end hc hk]
    rw [← ho.stream, ← ho.dataSource]
  have hread : job.read (c.sender.fs c.source) = (.ok none, job) := by
    simp [TransferJob.read, TransferJob.awaitsConfirmation, ho.type, ho.detection, ho.confirmed]
  have hcompleted : job.jobCompleted = true := by
    simp [TransferJob.jobCompleted, ho.confirmed, ho.waiting]
  have hfinish : ReadDrivers.finishResponse job =
      if job.fileSkipped && c.sourceFiles.length == 1 then .error c.id "skipped" k
        else .done c.id k := by
    unfold ReadDrivers.finishResponse TransferJob.jobError TransferJob.jobSkipped
    rw [ho.id, ho.fileNum, ho.files]
    cases job.fileSkipped && c.sourceFiles.length == 1 <;> rfl
  simp [ReadDrivers.handleReadJobs, ReadDrivers.initJobs, ReadDrivers.readJobs,
    TransferJob.initDataStream, hopen, ReadDrivers.initResponses, ho.isLastJob, hread, hcompleted,
    hfinish, ReadDrivers.removeFinished]

/-- The block carries `data` of file `k`. -/
structure Carries (c : Resumption) (block : FileTransferBlock) (k : Nat) (data : Bytes) : Prop where
  id : block.id = c.id
  fileNum : block.fileNum = k
  data : (if block.compressed then c.receiver.decompress block.data else block.data) = data

/-- What is left of the source of file `k` from `pos` on, as far as one block holds it. -/
def nextData (c : Resumption) (k pos : Nat) : Bytes :=
  ((c.sourceFile k).data.drop pos).take bufSize

theorem fileNum_asI32 (hc : c.Sound) (hk : k < c.sourceFiles.length) :
    asI32 (usizeOfI32 (k : Int)) = k := by
  have hlt := hc.length_lt
  rw [usizeOfI32_natCast (by omega), asI32_natCast (by omega)]

theorem Reading.carries_blockOf (hr : Reading c job k) (hc : c.Sound) (hk : k < c.sourceFiles.length)
    (name : Option String) (data : Bytes) :
    Carries c (job.blockOf (c.sender.fs c.source) name data) k data := by
  have hnum := fileNum_asI32 hc hk
  unfold TransferJob.blockOf
  split
  · exact ⟨hr.id, by simp only [hr.fileNum, hnum], by simp⟩
  · split
    · exact ⟨hr.id, by simp only [hr.fileNum, hnum], by simp⟩
    · split
      · exact ⟨hr.id, by simp only [hr.fileNum, hnum], by simp [hc.decompress_compress]⟩
      · exact ⟨hr.id, by simp only [hr.fileNum, hnum], by simp⟩

theorem Reading.nextFile (hr : Reading c job k) (hc : c.Sound) (hk : k < c.sourceFiles.length) :
    job.nextFile.fileNum = (k + 1 : Nat) := by
  have hlt := hc.length_lt
  have hnum := asI32_natCast (n := k + 1) (by omega)
  simpa [TransferJob.nextFile, hr.fileNum] using hnum

theorem Sending.init {pos : Nat} (hs : Sending c job k pos) (hc : c.Sound)
    (hk : k < c.sourceFiles.length) :
    job.initDataStream (c.sender.fs c.source) = (.ok none, job) := by
  have hopen : job.openDataStream (c.sender.fs c.source) = (.ok false, job) := by
    simp [TransferJob.openDataStream, hs.dataSource, hs.entry hc hk, hs.stream, opened]
  have hwants : job.wantsDigest = false := by simp [TransferJob.wantsDigest, hs.confirmed]
  simp [TransferJob.initDataStream, hopen, hwants]

theorem Sending.read {pos : Nat} (hs : Sending c job k pos) (hc : c.Sound)
    (hk : k < c.sourceFiles.length) :
    ∃ job' block, job.read (c.sender.fs c.source) = (.ok (some block), job') ∧
      Carries c block k (c.nextData k pos) ∧
      (c.nextData k pos ≠ [] → Sending c job' k (pos + (c.nextData k pos).length)) ∧
      (c.nextData k pos = [] → Opening c job' (k + 1) ∧ job'.fileSkipped = false) ∧
      job'.defaultOverwriteStrategy = job.defaultOverwriteStrategy := by
  have hawait : job.awaitsConfirmation = false := by
    simp [TransferJob.awaitsConfirmation, hs.confirmed]
  have hloop : (DataStream.fileStream { path := c.sourcePath k, pos, writing := false }).readLoop
      (c.sender.fs c.source) bufSize [] = .ok (c.nextData k pos, .fileStream
        { path := c.sourcePath k
          pos := pos + (c.nextData k pos).length
          writing := false }) := DataStream.readLoop_disk (hc.sourceExists k hk) (bufSize - 2)
  have hnum := fileNum_asI32 hc hk
  simp only [TransferJob.read, hawait, hs.dataSource, hs.entry hc hk, TransferJob.readFrom, hs.stream,
    opened, hloop]
  cases hdata : c.nextData k pos with
  | nil =>
    refine ⟨_, _, rfl, ⟨hs.id, by simp only [hs.fileNum, hnum], by simp⟩, fun h => absurd rfl h,
      fun _ => ⟨⟨⟨hs.id, hs.type, hs.dataSource, hs.isLastJob, hs.isResume, hs.nextFile hc hk,
        hs.files, hs.detection⟩, rfl, rfl, rfl⟩, hs.skipped⟩, rfl⟩
  | cons a rest =>
    refine ⟨_, _, rfl, hs.carries_blockOf hc hk _ _, fun _ => ⟨⟨hs.id, hs.type, rfl,
      hs.isLastJob, hs.isResume, hs.fileNum, hs.files, hs.detection⟩, rfl, hs.confirmed, hs.skipped⟩,
      fun h => absurd h (List.cons_ne_nil a rest), rfl⟩

theorem Sending.tick {pos : Nat} (hs : Sending c job k pos) (hc : c.Sound)
    (hk : k < c.sourceFiles.length) :
    ∃ job' block, ReadDrivers.handleReadJobs (c.sender.fs c.source) [job] =
        ([.block block], [job']) ∧ Carries c block k (c.nextData k pos) ∧
      (c.nextData k pos ≠ [] → Sending c job' k (pos + (c.nextData k pos).length)) ∧
      (c.nextData k pos = [] → Opening c job' (k + 1) ∧ job'.fileSkipped = false) := by
  obtain ⟨job', block, hread, hcarries, hmore, hend, -⟩ := hs.read hc hk
  refine ⟨job', block, ?_, hcarries, hmore, hend⟩
  simp [ReadDrivers.handleReadJobs, ReadDrivers.initJobs, ReadDrivers.readJobs, hs.init hc hk,
    ReadDrivers.initResponses, hs.isLastJob, hread, ReadDrivers.removeFinished]

/-! ## A confirmation at the sender -/

/-- The request about file `k`. -/
def request (c : Resumption) (k : Nat) (union : ConfirmUnion) : SendConfirm :=
  { id := c.id, fileNum := k, union := some union }

theorem Waiting.confirm_zero (hw : Waiting c job k) :
    ∃ job', job.confirm (c.sender.fs c.source) (c.request k (.offsetBlk 0)) = some job' ∧
      Sending c job' k 0 :=
  ⟨job.setFileConfirmed true, by simp [TransferJob.confirm, request, hw.fileNum],
    ⟨⟨hw.id, hw.type, hw.dataSource, hw.isLastJob, hw.isResume, hw.fileNum, hw.files, hw.detection⟩,
      hw.stream, rfl, rfl⟩⟩

theorem Waiting.confirm_skip (hw : Waiting c job k) (hc : c.Sound) (hk : k < c.sourceFiles.length) :
    ∃ job', job.confirm (c.sender.fs c.source) (c.request k (.skip true)) = some job' ∧
      Opening c job' (k + 1) :=
  ⟨job.setFileSkipped, by simp [TransferJob.confirm, request, hw.fileNum],
    ⟨⟨hw.id, hw.type, hw.dataSource, hw.isLastJob, hw.isResume, hw.nextFile hc hk, hw.files,
      hw.detection⟩, rfl, rfl, rfl⟩⟩

theorem Reading.setStreamOffset (hr : Reading c job k) (hc : c.Sound) (hk : k < c.sourceFiles.length)
    (hclear : c.SourceClear k) (pos : Nat) :
    job.setStreamOffset (c.sender.fs c.source) (usizeOfI32 k) pos = some
      { job with
        dataStream := c.opened k pos
        transferred := job.transferred + pos
        finishedSize := job.finishedSize + pos } := by
  have hlt := hc.length_lt
  have hentry : job.files[usizeOfI32 (k : Int)]? = some (c.sourceFiles.getD k {}) := by
    rw [hr.files, usizeOfI32_natCast (by omega), getElem?_getD {} hk]
  have hpath : job.resolveEntryPath (c.sender.fs c.source) c.sourceBase
      (c.sourceFiles.getD k {}).name = some (c.sourcePath k) := by
    simp only [TransferJob.resolveEntryPath, hr.type, if_true, hc.sourceValid k hk]
    rfl
  have hexists : (c.source (c.sourcePath k)).isSome = true := by rw [hc.sourceExists k hk]; rfl
  have hopen : (c.sender.fs c.source).openRead (c.sourcePath k) = none :=
    Host.fs_openRead (hc.sourceExists k hk)
  have hpair : ((c.source (c.sourcePath k ++ ".download")).isSome &&
      (c.source (c.sourcePath k ++ ".digest")).isSome) = false := hclear
  simp only [TransferJob.setStreamOffset, hr.dataSource, hentry, hpath, Host.fs_fileExists, hpair,
    hexists, hopen, Host.fs_seek]
  rfl

theorem Waiting.confirm_offset (hw : Waiting c job k) (hc : c.Sound) (hk : k < c.sourceFiles.length)
    (hclear : c.SourceClear k) {offset : UInt32} (ho : offset ≠ 0) :
    ∃ job', job.confirm (c.sender.fs c.source) (c.request k (.offsetBlk offset)) = some job' ∧
      Sending c job' k offset.toNat := by
  have hpos : 0 < offset := UInt32.pos_iff_ne_zero.mpr ho
  have hr : Reading c (job.setFileConfirmed true) k :=
    ⟨hw.id, hw.type, hw.dataSource, hw.isLastJob, hw.isResume, hw.fileNum, hw.files, hw.detection⟩
  have hconfirm : job.confirm (c.sender.fs c.source) (c.request k (.offsetBlk offset)) =
      (job.setFileConfirmed true).setStreamOffset (c.sender.fs c.source) (usizeOfI32 k)
        offset.toNat := by
    simp [TransferJob.confirm, request, hw.fileNum, hpos]
  exact ⟨_, hconfirm.trans (hr.setStreamOffset hc hk hclear offset.toNat),
    ⟨⟨hr.id, hr.type, hr.dataSource, hr.isLastJob, hr.isResume, hr.fileNum, hr.files, hr.detection⟩,
      rfl, rfl, rfl⟩⟩

/-! ## The disk of the receiver -/

theorem slot_kind {a b : Slot} (h : c.slot k a = c.slot k b) : a = b := by
  have hlen := congrArg String.length h
  have hdownload : ".download".length = 9 := by decide
  have hdigest : ".digest".length = 7 := by decide
  cases a <;> cases b <;> simp [slot, String.length_append, hdownload, hdigest] at hlen ⊢

theorem Sound.slot_ne (hc : c.Sound) {i : Nat} (hi : i < c.sourceFiles.length)
    (hk : k < c.sourceFiles.length) (hne : i ≠ k) (a b : Slot) : c.slot i a ≠ c.slot k b :=
  fun h => hne (hc.noClash i hi k hk a b h)

end Resumption

namespace Disk

variable {disk : Disk} {path other : String}

theorem put_self (file : DiskFile) : disk.put path file path = some file := by simp [put]

theorem put_of_ne (file : DiskFile) (h : other ≠ path) : disk.put path file other = disk other := by
  simp [put, h]

theorem remove_of_ne (h : other ≠ path) : disk.remove path other = disk other := by
  simp [remove, h]

theorem rename_of_ne {old new : String} (ho : other ≠ old) (hn : other ≠ new) :
    disk.rename old new other = disk other := by
  cases h : disk old with
  | none => simp only [rename, h]
  | some file =>
    simp only [rename, h]
    rw [put_of_ne _ hn, remove_of_ne ho]

theorem rename_new {old new : String} {file : DiskFile} (h : disk old = some file) :
    disk.rename old new new = some file := by
  unfold rename
  rw [h]
  exact put_self file

theorem rename_none {old new : String} (h : disk old = none) : disk.rename old new = disk := by
  unfold rename
  rw [h]

theorem setFileMtime_of_ne (m : Nat) (h : other ≠ path) :
    disk.setFileMtime path m other = disk other := by
  cases hp : disk path with
  | none => simp only [setFileMtime, hp]
  | some file =>
    simp only [setFileMtime, hp]
    exact put_of_ne _ h

theorem setFileMtime_data (m : Nat) :
    (disk.setFileMtime path m path).map DiskFile.data = (disk path).map DiskFile.data := by
  cases hp : disk path with
  | none => simp only [setFileMtime, hp]
  | some file =>
    simp only [setFileMtime, hp]
    rw [put_self]
    rfl

theorem writeAt_of_ne {pos now : Nat} {data : Bytes} (h : other ≠ path) :
    disk.writeAt path pos data now other = disk other := by
  cases hp : disk path with
  | none => simp only [writeAt, hp]
  | some file =>
    simp only [writeAt, hp]
    exact put_of_ne _ h

theorem writeAt_self {pos now : Nat} {data : Bytes} {file : DiskFile} (h : disk path = some file) :
    disk.writeAt path pos data now path =
      some { data := PartialCopy.overwrite 0 file.data pos data, modified := now } := by
  unfold writeAt
  rw [h]
  exact put_self _

end Disk

namespace Resumption

variable {c : Resumption} {w : TransferJob} {disk : Disk} {j k : Nat}

/-- The write job, at file `j`. -/
structure Writing (c : Resumption) (w : TransferJob) (j : Nat) : Prop where
  id : w.id = c.id
  type : w.type = .generic
  dataSource : w.dataSource = .filePath c.targetBase
  isResume : w.isResume = decide (c.direction = .download)
  fileNum : w.fileNum = j
  files : w.files = c.targetFiles

theorem Writing.currentPath (hw : Writing c w j) (hc : c.Sound) (hj : j < c.sourceFiles.length) :
    w.currentPath c.receiver disk = some (c.targetFiles.getD j {}, c.targetPath j) := by
  have hlt := hc.length_lt
  have hentry : w.entry = some (c.targetFiles.getD j {}) := by
    rw [TransferJob.entry, hw.fileNum, hw.files, usizeOfI32_natCast (by omega),
      getElem?_getD {} (by rw [hc.length_eq]; exact hj)]
  have hpath : TransferJob.joinValidatedPath (c.receiver.fs disk) c.targetBase
      (c.targetFiles.getD j {}).name = .ok (c.targetPath j) := hc.targetValid j hj
  simp only [TransferJob.currentPath, hw.type, hw.dataSource, hentry, TransferJob.resolveEntryPath,
    if_true, hpath]
  rfl

theorem Writing.currentPath_end (hw : Writing c w j) (hc : c.Sound) (hj : j = c.sourceFiles.length) :
    w.currentPath c.receiver disk = none := by
  have hlt := hc.length_lt
  have hentry : w.entry = none := by
    rw [TransferJob.entry, hw.fileNum, hw.files, usizeOfI32_natCast (by omega)]
    simp [hj, hc.length_eq]
  simp only [TransferJob.currentPath, hw.type, hw.dataSource, hentry]

theorem Writing.modifyTime_eq (hw : Writing c w j) (hc : c.Sound) (hj : j < c.sourceFiles.length) :
    w.modifyTime c.receiver disk =
      ((disk.remove (c.slot j .digest)).rename (c.slot j .download) (c.slot j .final)).setFileMtime
        (c.slot j .final) (c.targetFiles.getD j {}).modifiedTime := by
  simp only [TransferJob.modifyTime, hw.currentPath hc hj]
  rfl

theorem Writing.modifyTime_other (hw : Writing c w j) (hc : c.Sound) {i : Nat}
    (hj : j ≤ c.sourceFiles.length) (hi : i < c.sourceFiles.length) (hne : i ≠ j) (a : Slot) :
    w.modifyTime c.receiver disk (c.slot i a) = disk (c.slot i a) := by
  rcases Nat.lt_or_ge j c.sourceFiles.length with hlt | hge
  · have hslot := fun b => hc.slot_ne hi hlt hne a b
    rw [hw.modifyTime_eq hc hlt, Disk.setFileMtime_of_ne _ (hslot .final),
      Disk.rename_of_ne (hslot .download) (hslot .final), Disk.remove_of_ne (hslot .digest)]
  · simp only [TransferJob.modifyTime, hw.currentPath_end hc (by omega)]

theorem Writing.modifyTime_download (hw : Writing c w j) (hc : c.Sound)
    (hj : j < c.sourceFiles.length) {file : DiskFile} (hd : disk (c.slot j .download) = some file) :
    (w.modifyTime c.receiver disk (c.slot j .final)).map DiskFile.data = some file.data := by
  have hne : c.slot j .download ≠ c.slot j .digest := fun h => by cases slot_kind h
  have hd' : disk.remove (c.slot j .digest) (c.slot j .download) = some file := by
    rw [Disk.remove_of_ne hne, hd]
  rw [hw.modifyTime_eq hc hj, Disk.setFileMtime_data, Disk.rename_new hd']
  rfl

theorem Writing.modifyTime_none (hw : Writing c w j) (hc : c.Sound)
    (hj : j < c.sourceFiles.length) (hd : disk (c.slot j .download) = none) :
    (w.modifyTime c.receiver disk (c.slot j .final)).map DiskFile.data =
      (disk (c.slot j .final)).map DiskFile.data := by
  have hne : c.slot j .download ≠ c.slot j .digest := fun h => by cases slot_kind h
  have hfinal : c.slot j .final ≠ c.slot j .digest := fun h => by cases slot_kind h
  have hd' : disk.remove (c.slot j .digest) (c.slot j .download) = none := by
    rw [Disk.remove_of_ne hne, hd]
  rw [hw.modifyTime_eq hc hj, Disk.setFileMtime_data, Disk.rename_none hd', Disk.remove_of_ne hfinal]

/-! ## A block at the receiver -/

/-- The stream of the receiver on the download of file `k`. -/
def written (c : Resumption) (k pos : Nat) : Option DataStream :=
  some (.fileStream { path := c.slot k .download, pos, writing := true })

/-- What a block leaves of the disk: the files other than `k` as they were, and the download
of file `k` with the block at `pos`. -/
structure Wrote (c : Resumption) (w : TransferJob) (k pos : Nat) (data : Bytes) (file : DiskFile)
    (before after : Disk) : Prop where
  job : Writing c w k
  stream : w.dataStream = c.written k (pos + data.length)
  download : (after (c.slot k .download)).map DiskFile.data =
    some (PartialCopy.overwrite 0 file.data pos data)
  others : ∀ i < c.sourceFiles.length, i ≠ k → ∀ a, after (c.slot i a) = before (c.slot i a)

theorem Writing.writeStream {pos : Nat} {block : FileTransferBlock} {data : Bytes} {file : DiskFile}
    (hw : Writing c w k) (hc : c.Sound) (hk : k < c.sourceFiles.length)
    (hs : w.dataStream = c.written k pos) (hfile : disk (c.slot k .download) = some file)
    (hb : Carries c block k data) :
    ∃ w' disk', w.writeStream c.receiver block disk = (none, w', disk') ∧
      Wrote c w' k pos data file disk disk' ∧
      w'.defaultOverwriteStrategy = w.defaultOverwriteStrategy := by
  simp only [TransferJob.writeStream, hs, written, hb.data, if_true]
  refine ⟨_, _, rfl, ⟨⟨hw.id, hw.type, hw.dataSource, hw.isResume, hw.fileNum, hw.files⟩, rfl, ?_, ?_⟩,
    rfl⟩
  · rw [Disk.writeAt_self hfile]
    rfl
  · intro i hi hne a
    exact Disk.writeAt_of_ne (hc.slot_ne hi hk hne a .download)

theorem Writing.beginsFile {block : FileTransferBlock} {data : Bytes} (hw : Writing c w j)
    (hc : c.Sound) (hj : j ≤ c.sourceFiles.length) (hk : k < c.sourceFiles.length)
    (hb : Carries c block k data) : w.beginsFile block = (k != j || w.dataStream.isNone) := by
  have hlt := hc.length_lt
  rw [TransferJob.beginsFile, hb.fileNum, hw.fileNum, usizeOfI32_natCast (by omega),
    usizeOfI32_natCast (by omega)]

theorem Writing.beginsFile_first {block : FileTransferBlock} {data : Bytes} (hw : Writing c w j)
    (hc : c.Sound) (hj : j ≤ c.sourceFiles.length) (hk : k < c.sourceFiles.length)
    (hs : w.dataStream = none ∨ j ≠ k) (hb : Carries c block k data) : w.beginsFile block = true := by
  rw [hw.beginsFile hc hj hk hb]
  rcases hs with hs | hs
  · simp [hs]
  · simp [Ne.symm hs]

theorem Writing.beginsFile_next {pos : Nat} {block : FileTransferBlock} {data : Bytes}
    (hw : Writing c w k) (hc : c.Sound) (hk : k < c.sourceFiles.length)
    (hs : w.dataStream = c.written k pos) (hb : Carries c block k data) :
    w.beginsFile block = false := by
  rw [hw.beginsFile hc (Nat.le_of_lt hk) hk hb, hs]
  simp [written]

theorem Writing.target_entry (hw : Writing c w j) (hc : c.Sound) (hk : k < c.sourceFiles.length) :
    w.files[usizeOfI32 (k : Int)]? = some (c.targetFiles.getD k {}) := by
  have hlt := hc.length_lt
  rw [hw.files, usizeOfI32_natCast (by omega), getElem?_getD {} (by rw [hc.length_eq]; exact hk)]

/-- A block of the file under way is written at the position of the stream. -/
theorem Writing.write_next {pos : Nat} {block : FileTransferBlock} {data : Bytes} {file : DiskFile}
    (hw : Writing c w k) (hc : c.Sound) (hk : k < c.sourceFiles.length)
    (hs : w.dataStream = c.written k pos) (hfile : disk (c.slot k .download) = some file)
    (hb : Carries c block k data) :
    ∃ w' disk', w.write c.receiver block disk = (none, w', disk') ∧
      Wrote c w' k pos data file disk disk' := by
  have hbegins := hw.beginsFile_next hc hk hs hb
  obtain ⟨w', disk', hwrite, hwrote, -⟩ := hw.writeStream hc hk hs hfile hb
  refine ⟨w', disk', ?_, hwrote⟩
  have hid : block.id = w.id := hb.id.trans hw.id.symm
  simp only [TransferJob.write, hid, ne_eq, not_true_eq_false, if_false, hw.dataSource, hb.fileNum,
    hw.target_entry hc hk, hbegins]
  exact hwrite

/-- The first block of a file puts the file before it in place and begins the download. -/
theorem Writing.write_first {block : FileTransferBlock} {data : Bytes}
    (hw : Writing c w j) (hc : c.Sound) (hj : j ≤ c.sourceFiles.length)
    (hk : k < c.sourceFiles.length) (hs : w.dataStream = none ∨ j ≠ k) (hb : Carries c block k data)
    (disk : Disk) :
    ∃ w' disk', w.write c.receiver block disk = (none, w', disk') ∧
      Wrote c w' k 0 data { data := [] } (w.modifyTime c.receiver disk) disk' := by
  have hbegins := hw.beginsFile_first hc hj hk hs hb
  have hpath : ∀ d : Disk, TransferJob.joinValidatedPath (c.receiver.fs d) c.targetBase
      (c.targetFiles.getD k {}).name = .ok (c.targetPath k) := fun _ => hc.targetValid k hk
  set begun : TransferJob := { w with fileNum := k, dataStream := c.written k 0 } with hbegun
  set empty : Disk := (((w.modifyTime c.receiver disk).remove (c.slot k .digest)).put
    (c.slot k .download) { data := [], modified := c.receiver.now }).put (c.slot k .digest)
      { data := c.receiver.digestJson w.digest, modified := c.receiver.now } with hempty
  have hbeginFile : w.beginFile c.receiver c.targetBase (c.targetFiles.getD k {}) k disk =
      (none, begun, empty) := by
    simp only [TransferJob.beginFile, hw.type, hpath]
    rw [hbegun, hw.type]
    rfl
  have hne : c.slot k .download ≠ c.slot k .digest := fun h => by cases slot_kind h
  have hfile : empty (c.slot k .download) = some { data := [], modified := c.receiver.now } := by
    rw [hempty, Disk.put_of_ne _ hne, Disk.put_self]
  have hwriting : Writing c begun k :=
    ⟨hw.id, hw.type, hw.dataSource, hw.isResume, rfl, hw.files⟩
  obtain ⟨w', disk', hwrite, hwrote, -⟩ := hwriting.writeStream hc hk rfl hfile hb
  refine ⟨w', disk', ?_, ⟨hwrote.job, hwrote.stream, hwrote.download, ?_⟩⟩
  · have hid : block.id = w.id := hb.id.trans hw.id.symm
    simp only [TransferJob.write, hid, ne_eq, not_true_eq_false, if_false, hw.dataSource, hb.fileNum,
      hw.target_entry hc hk, hbegins, if_true, hbeginFile]
    exact hwrite
  · intro i hi hik a
    have hslot := fun b => hc.slot_ne hi hk hik a b
    rw [hwrote.others i hi hik a, hempty, Disk.put_of_ne _ (hslot .digest),
      Disk.put_of_ne _ (hslot .download), Disk.remove_of_ne (hslot .digest)]

/-! ## A confirmation at the receiver -/

theorem Writing.confirm_other (hw : Writing c w j) (hne : j ≠ k) (union : ConfirmUnion) :
    w.confirm (c.receiver.fs disk) (c.request k union) = some w := by
  have hnum : w.fileNum ≠ (c.request k union).fileNum := by
    rw [hw.fileNum]
    change (j : Int) ≠ (k : Int)
    omega
  simp [TransferJob.confirm, hnum]

/-- Beginning a file anew changes nothing at the receiver, whichever file it is at. -/
theorem Writing.confirm_zero (hw : Writing c w j) (disk : Disk) (k : Nat) :
    ∃ w', w.confirm (c.receiver.fs disk) (c.request k (.offsetBlk 0)) = some w' ∧
      Writing c w' j ∧ w'.dataStream = w.dataStream := by
  by_cases hjk : j = k
  · subst hjk
    exact ⟨w.setFileConfirmed true, by simp [TransferJob.confirm, request, hw.fileNum],
      ⟨hw.id, hw.type, hw.dataSource, hw.isResume, hw.fileNum, hw.files⟩, rfl⟩
  · exact ⟨w, hw.confirm_other hjk _, hw, rfl⟩

theorem Writing.confirm_skip (hw : Writing c w k) (hc : c.Sound) (hk : k < c.sourceFiles.length)
    (disk : Disk) :
    ∃ w', w.confirm (c.receiver.fs disk) (c.request k (.skip true)) = some w' ∧
      Writing c w' (k + 1) ∧ w'.dataStream = none := by
  have hlt := hc.length_lt
  have hnum : asI32 (w.fileNum + 1) = (k + 1 : Nat) := by
    rw [hw.fileNum]
    exact asI32_natCast (n := k + 1) (by omega)
  exact ⟨w.setFileSkipped, by simp [TransferJob.confirm, request, hw.fileNum],
    ⟨hw.id, hw.type, hw.dataSource, hw.isResume, hnum, hw.files⟩, rfl⟩

/-- At the file it is at, the receiver goes to the offset in the download. -/
theorem Writing.confirm_offset (hw : Writing c w k) (hc : c.Sound) (hk : k < c.sourceFiles.length)
    (hdownload : (disk (c.slot k .download)).isSome = true)
    (hdigest : (disk (c.slot k .digest)).isSome = true) {offset : UInt32} (ho : offset ≠ 0) :
    ∃ w', w.confirm (c.receiver.fs disk) (c.request k (.offsetBlk offset)) = some w' ∧
      Writing c w' k ∧ w'.dataStream = c.written k offset.toNat := by
  have hpos : 0 < offset := UInt32.pos_iff_ne_zero.mpr ho
  have hpath : (w.setFileConfirmed true).resolveEntryPath (c.receiver.fs disk) c.targetBase
      (c.targetFiles.getD k {}).name = some (c.targetPath k) := by
    have hvalid : TransferJob.joinValidatedPath (c.receiver.fs disk) c.targetBase
      (c.targetFiles.getD k {}).name = .ok (c.targetPath k) := hc.targetValid k hk
    have htype : (w.setFileConfirmed true).type = .generic := hw.type
    simp only [TransferJob.resolveEntryPath, htype, if_true, hvalid]
    rfl
  have hconfirm : w.confirm (c.receiver.fs disk) (c.request k (.offsetBlk offset)) =
      (w.setFileConfirmed true).setStreamOffset (c.receiver.fs disk) (usizeOfI32 k)
        offset.toNat := by
    simp [TransferJob.confirm, request, hw.fileNum, hpos]
  have hsource : (w.setFileConfirmed true).dataSource = .filePath c.targetBase := hw.dataSource
  have hentry : (w.setFileConfirmed true).files[usizeOfI32 (k : Int)]? =
      some (c.targetFiles.getD k {}) := hw.target_entry hc hk
  have hpair : ((c.receiver.fs disk).fileExists (c.targetPath k ++ ".download") &&
      (c.receiver.fs disk).fileExists (c.targetPath k ++ ".digest")) = true := by
    rw [Bool.and_eq_true]
    exact ⟨hdownload, hdigest⟩
  rw [hconfirm]
  simp only [TransferJob.setStreamOffset, hsource, hentry, hpath, hpair, if_true, Host.fs_openWrite,
    Host.fs_seek, Option.isNone_none]
  exact ⟨_, rfl, ⟨hw.id, hw.type, rfl, hw.isResume, hw.fileNum, hw.files⟩, rfl⟩

/-! ## The answer to a digest -/

/-- What is confirmed for file `k`; nothing when the user is to be asked. -/
def answer (c : Resumption) (disk : Disk) (k : Nat) (strategy : Option Bool) : Option ConfirmUnion :=
  match c.found disk k with
  | some n => some (.offsetBlk (UInt32.ofNat n))
  | none =>
    if (disk (c.targetPath k)).isSome then
      strategy.map fun overwrite => if overwrite then .offsetBlk 0 else .skip true
    else some (.offsetBlk 0)

theorem transferredSize_spec {host : Host} {path : String} {d : FileTransferDigest} {n : Nat}
    (h : transferredSize host path d disk = some n) :
    0 < n ∧ (disk (path ++ ".digest")).isSome = true ∧
      ∃ file, disk (path ++ ".download") = some file ∧ file.data.length = n := by
  unfold transferredSize at h
  split at h
  · rename_i digestFile download hdigest hdownload
    split at h
    · split at h
      · rename_i hmatch
        cases h
        exact ⟨hmatch.2.2, by rw [hdigest]; rfl, download, hdownload, rfl⟩
      · cases h
    · cases h
  · cases h

theorem found_spec {n : Nat} (h : c.found disk k = some n) :
    0 < n ∧ (disk (c.slot k .digest)).isSome = true ∧
      ∃ file, disk (c.slot k .download) = some file ∧ file.data.length = n := by
  unfold found at h
  split at h
  · exact transferredSize_spec h
  · cases h

/-- The client decides by what the other end found, or by its strategy. -/
theorem overwriteUnion_found {job : TransferJob} {d : FileTransferDigest} (hr : job.isResume = true)
    (hi : d.isIdentical = true) (hn : 0 < d.transferredSize) :
    overwriteUnion job d = some (.offsetBlk (UInt32.ofNat d.transferredSize)) := by
  simp [overwriteUnion, hr, hi, hn]

theorem overwriteUnion_strategy {job : TransferJob} {d : FileTransferDigest}
    (hn : d.transferredSize = 0) :
    overwriteUnion job d = job.defaultOverwriteStrategy.map fun overwrite =>
      if overwrite then .offsetBlk 0 else .skip true := by
  simp [overwriteUnion, hn]

end Resumption

end RustDesk
