import RustDesk.TransferJob
import RustDesk.History

/-!
# The two drivers of the read jobs

A read job is driven by `handle_read_jobs` in the process of the connection, or by
`handle_read_jobs_tick` in the connection manager, which speaks to the connection over IPC.
Both drivers are modelled over the list of jobs, and a run of either is a sequence of ticks
and of confirmations of the peer. The file system answers anew at each of them.

The comments in the source ask that the two stay in sync. They do on the runs in which no
call of a tick fails and no confirmation is for another file than the current one.
-/

namespace RustDesk

/-- The `Data` with which the connection manager reports on a read job. -/
inductive CmRead
  | fileDigestFromCm (id fileNum : Int) (lastModified fileSize : Nat) (isResume : Bool)
  | fileBlockFromCm (id fileNum : Int) (data : Bytes) (compressed : Bool)
  | fileReadError (id fileNum : Int) (err : String)
  | fileReadDone (id fileNum : Int)
  deriving DecidableEq, Repr

/-- What the connection sends to the peer for it, the job being known. -/
def CmRead.forward : CmRead → FileResponse
  | .fileDigestFromCm id fileNum lastModified fileSize isResume =>
    .digest { id, fileNum, lastModified, fileSize, isUpload := false, isResume }
  | .fileBlockFromCm id fileNum data compressed => .block { id, fileNum, data, compressed }
  | .fileReadError id fileNum err => .error id err fileNum
  | .fileReadDone id fileNum => .done id fileNum

namespace ReadDrivers

open TransferJob (confirm)

variable (fs : FileSystem)

def removeFinished (finished : List Int) (jobs : List TransferJob) : List TransferJob :=
  finished.foldl (fun jobs id => jobs.eraseP (·.id = id)) jobs

/-- The first job of the id, changed in place; `none` is a panic. -/
def updateJob (id : Int) (f : TransferJob → Option TransferJob) :
    List TransferJob → Option (List TransferJob)
  | [] => some []
  | job :: jobs =>
    if job.id = id then (f job).map (· :: jobs)
    else (updateJob id f jobs).map (job :: ·)

/-! ## In the process of the connection -/

/-- What `init_jobs` sends for one job. -/
def initResponses (r : Except String (Option FileResponse)) (job : TransferJob) :
    List FileResponse :=
  match r with
  | .ok digest => digest.toList
  | .error err => [.error job.id err job.fileNum]

def initJobs : List TransferJob → List FileResponse × List TransferJob
  | [] => ([], [])
  | job :: jobs =>
    let rest := initJobs jobs
    if job.isLastJob then (rest.1, job :: rest.2)
    else
      let init := job.initDataStream fs
      (initResponses init.1 init.2 ++ rest.1, init.2 :: rest.2)

/-- The message for a completed job. -/
def finishResponse (job : TransferJob) : FileResponse :=
  match job.jobError with
  | some err => .error job.id err job.fileNum
  | none => .done job.id job.fileNum

/-- The second loop of `handle_read_jobs`, with the ids of the finished jobs. It stops at
the first job that is not a last job. -/
def readJobs : List TransferJob → List FileResponse × List Int × List TransferJob
  | [] => ([], [], [])
  | job :: jobs =>
    if job.isLastJob then
      let rest := readJobs jobs
      (rest.1, rest.2.1, job :: rest.2.2)
    else
      match job.read fs with
      | (.error err, job) => ([.error job.id err job.fileNum], [], job :: jobs)
      | (.ok (some block), job) => ([.block block], [], job :: jobs)
      | (.ok none, job) =>
        if job.jobCompleted then ([finishResponse job], [job.id], job :: jobs)
        else ([], [], job :: jobs)

def handleReadJobs (jobs : List TransferJob) : List FileResponse × List TransferJob :=
  let init := initJobs fs jobs
  let r := readJobs fs init.2
  (init.1 ++ r.1, removeFinished r.2.1 r.2.2)

/-! ## In the connection manager -/

def initReadJobForCm (job : TransferJob) : Except String (List CmRead) × TransferJob :=
  match job.initDataStreamForCm fs with
  | (.error err, job) => (.error err, job)
  | (.ok (some (lastModified, fileSize)), job) =>
    (.ok [.fileDigestFromCm job.id job.fileNum lastModified fileSize job.isResume], job)
  | (.ok none, job) => (.ok [], job)

def finishData (job : TransferJob) : CmRead :=
  match job.jobError with
  | some err => .fileReadError job.id job.fileNum err
  | none => .fileReadDone job.id job.fileNum

/-- The loop of `handle_read_jobs_tick`. A job whose initialisation fails is finished, and
the loop goes on to the next. -/
def readJobsTick : List TransferJob → List CmRead × List Int × List TransferJob
  | [] => ([], [], [])
  | job :: jobs =>
    if job.isLastJob then
      let rest := readJobsTick jobs
      (rest.1, rest.2.1, job :: rest.2.2)
    else
      match initReadJobForCm fs job with
      | (.error err, job) =>
        let rest := readJobsTick jobs
        (.fileReadError job.id job.fileNum err :: rest.1, job.id :: rest.2.1, job :: rest.2.2)
      | (.ok digest, job) =>
        match job.read fs with
        | (.error err, job) =>
          (digest ++ [.fileReadError job.id job.fileNum err], [job.id], job :: jobs)
        | (.ok (some block), job) =>
          (digest ++ [.fileBlockFromCm block.id block.fileNum block.data block.compressed], [],
            job :: jobs)
        | (.ok none, job) =>
          if job.jobCompleted then (digest ++ [finishData job], [job.id], job :: jobs)
          else (digest, [], job :: jobs)

def handleReadJobsTick (jobs : List TransferJob) : List FileResponse × List TransferJob :=
  let r := readJobsTick fs jobs
  (r.1.map CmRead.forward, removeFinished r.2.1 r.2.2)

/-- The request that the connection manager makes of a `SendConfirmForRead`. The file
number of the command is not used. -/
def sendConfirmForRead (job : TransferJob) (r : SendConfirm) : SendConfirm :=
  { id := r.id
    fileNum := job.fileNum
    union := some (if r.skip then .skip true else .offsetBlk r.offsetBlk) }

/-! ## Runs -/

inductive Event
  | tick
  | confirm (r : SendConfirm)
  deriving DecidableEq, Repr

/-- The jobs, absent after a panic, and all that was sent to the peer. -/
structure Driver where
  jobs : Option (List TransferJob)
  sent : List FileResponse := []
  deriving DecidableEq, Repr

/-- The driver with one job, before its first tick. -/
def Driver.start (job : TransferJob) : Driver := { jobs := some [job] }

def inProcess (d : Driver) (i : FileSystem × Event) : Driver :=
  match d.jobs, i.2 with
  | none, _ => d
  | some jobs, .tick =>
    let r := handleReadJobs i.1 jobs
    { jobs := some r.2, sent := d.sent ++ r.1 }
  | some jobs, .confirm r => { d with jobs := updateJob r.id (confirm i.1 · r) jobs }

def inCm (d : Driver) (i : FileSystem × Event) : Driver :=
  match d.jobs, i.2 with
  | none, _ => d
  | some jobs, .tick =>
    let r := handleReadJobsTick i.1 jobs
    { jobs := some r.2, sent := d.sent ++ r.1 }
  | some jobs, .confirm r =>
    { d with jobs := updateJob r.id (fun job => confirm i.1 job (sendConfirmForRead job r)) jobs }

/-- Both drivers on the same events and the same answers of the file system. -/
def both (d : Driver × Driver) (i : FileSystem × Event) : Driver × Driver :=
  (inProcess d.1 i, inCm d.2 i)

/-! ## When they agree -/

/-- Every call that a tick makes for the job succeeds: the file opens, the stat for a digest
that is due gives one, and the data of a file that is not waiting can be read. -/
def callsSucceed (job : TransferJob) : Bool :=
  match job.openDataStream fs with
  | (.error _, _) => false
  | (.ok true, _) => true
  | (.ok false, job) =>
    (!job.wantsDigest || (job.getCurrentDigest fs).isOk) &&
      (job.awaitsConfirmation || (job.dataStream.map (·.readLoop fs bufSize [])).all (·.isOk))

/-- The confirmation says something about the current file, or what the connection manager
makes of it repeats what the job knows. -/
def Current (job : TransferJob) (r : SendConfirm) : Prop :=
  (r.fileNum = job.fileNum ∧ r.union ≠ none) ∨
    (r.skip = false ∧ r.offsetBlk = 0 ∧ job.fileConfirmed = true ∧ job.fileSkipped = false)

instance (job : TransferJob) (r : SendConfirm) : Decidable (Current job r) :=
  inferInstanceAs (Decidable (_ ∨ _))

/-- The condition on an event, for one job of the driver. -/
def Orderly (job : TransferJob) : FileSystem × Event → Prop
  | (fs, .tick) => job.isLastJob = false → callsSucceed fs job = true
  | (_, .confirm r) => r.id = job.id → Current job r

instance (job : TransferJob) : ∀ i, Decidable (Orderly job i)
  | (fs, .tick) => inferInstanceAs (Decidable (job.isLastJob = false → callsSucceed fs job = true))
  | (_, .confirm r) => inferInstanceAs (Decidable (r.id = job.id → Current job r))

def InSync (d : Driver × Driver) (i : FileSystem × Event) : Prop :=
  ∀ job ∈ d.1.jobs.getD [], Orderly job i

instance (d : Driver × Driver) (i : FileSystem × Event) : Decidable (InSync d i) :=
  inferInstanceAs (Decidable (∀ job ∈ d.1.jobs.getD [], Orderly job i))

/-- What the two drivers owe each other at an event: the same messages; nothing for a
confirmation of another file; and no job dropped that has a file left. -/
structure Agree (d : Driver × Driver) (i : FileSystem × Event) : Prop where
  sent : (both d i).1.sent = (both d i).2.sent
  other : ∀ r, i.2 = .confirm r →
    (∀ job ∈ d.1.jobs.getD [], r.id = job.id → r.fileNum ≠ job.fileNum) →
    (both d i).1 = d.1 ∧ (both d i).2 = d.2
  dropped : ∀ job p e, i.2 = .tick → job.dataSource = .filePath p → job.entry = some e →
    (d.1.jobs = some [job] → (both d i).1.jobs ≠ some []) ∧
      (d.2.jobs = some [job] → (both d i).2.jobs ≠ some [])

variable {fs} {job : TransferJob}

/-! ## One tick -/

theorem openDataStream_end {job' : TransferJob} (h : job.openDataStream fs = (.ok true, job')) :
    ∃ p, job.dataSource = .filePath p ∧ job.entry = none := by
  have hopen := job.opened fs
  rw [h] at hopen
  cases hopen with
  | atEnd p hs he => exact ⟨p, hs, he⟩

theorem openDataStream_stream {job' : TransferJob} (h : job.openDataStream fs = (.ok false, job')) :
    ∃ ds, job'.dataStream = some ds := by
  have hopen := job.opened fs
  rw [h] at hopen
  cases hopen with
  | already ds hds => exact ⟨ds, hds⟩
  | opens => exact ⟨_, rfl⟩
  | memory => exact ⟨_, rfl⟩

theorem readFrom_ok {name : Option String} {ds : DataStream} (hds : job.dataStream = some ds)
    (h : (ds.readLoop fs bufSize []).isOk = true) (err : String) :
    (job.readFrom fs name).1 ≠ .error err := by
  unfold TransferJob.readFrom
  simp only [hds]
  cases hr : ds.readLoop fs bufSize [] with
  | error e => simp [hr, Except.isOk, Except.toBool] at h
  | ok r =>
    dsimp only
    split
    · split <;> simp
    · simp

theorem read_ok {ds : DataStream} (hds : job.dataStream = some ds)
    (h : job.awaitsConfirmation = false → (ds.readLoop fs bufSize []).isOk = true) (err : String) :
    (job.read fs).1 ≠ .error err := by
  unfold TransferJob.read
  split
  · simp
  · rename_i hawait
    have hr := h (by simpa using hawait)
    split
    · split
      · simp
      · exact readFrom_ok hds hr err
    · exact readFrom_ok hds hr err

theorem openDataStream_place {job' : TransferJob} {b : Bool}
    (h : job.openDataStream fs = (.ok b, job')) :
    job'.isLastJob = job.isLastJob ∧ job'.entry = job.entry ∧
      ∀ p, job.dataSource = .filePath p → job'.dataSource = .filePath p := by
  have hopen := job.opened fs
  rw [h] at hopen
  cases hopen with
  | atEnd => exact ⟨rfl, rfl, fun _ hp => hp⟩
  | already => exact ⟨rfl, rfl, fun _ hp => hp⟩
  | opens => exact ⟨rfl, rfl, fun _ hp => hp⟩
  | memory data hs =>
    refine ⟨rfl, rfl, fun p hp => ?_⟩
    rw [hs] at hp
    cases hp

/-- While a file is open, `read` gives nothing only to a job that waits for the peer. -/
theorem read_none {job' : TransferJob} {p : String} {e : FileEntry}
    (hp : job.dataSource = .filePath p) (he : job.entry = some e)
    (h : job.read fs = (.ok none, job')) : job.awaitsConfirmation = true ∧ job' = job := by
  rcases TransferJob.read_nothing h with hwaits | ⟨hnone | hmem, -⟩
  · exact hwaits
  · rw [he] at hnone
    cases hnone
  · simp [TransferJob.ofMemory, hp] at hmem

/-- The job both drivers read from after a tick has initialised its stream. -/
structure Initialised (fs : FileSystem) (job job' : TransferJob) (digest : Option FileResponse) :
    Prop where
  here : job.initDataStream fs = (.ok digest, job')
  cm : ∃ data, initReadJobForCm fs job = (.ok data, job') ∧
    data.map CmRead.forward = digest.toList
  last : job'.isLastJob = job.isLastJob
  reads : ∀ err, (job'.read fs).1 ≠ .error err
  waits : ∀ p e job'', job.dataSource = .filePath p → job.entry = some e →
    job'.read fs = (.ok none, job'') → job''.jobCompleted = false

theorem initialised (h : callsSucceed fs job = true) : ∃ job' digest, Initialised fs job job' digest := by
  unfold callsSucceed at h
  generalize hopen : job.openDataStream fs = r at h
  obtain ⟨b, opened⟩ := r
  cases b with
  | error err => simp at h
  | ok b =>
    obtain ⟨hlast, hentry, hsource⟩ := openDataStream_place hopen
    cases b with
    | true =>
      -- No file is left, so there is neither a digest nor a block.
      obtain ⟨p, hp, hnone⟩ := openDataStream_end hopen
      refine ⟨opened, none, ?_, ?_, hlast, ?_, ?_⟩
      · simp [TransferJob.initDataStream, hopen]
      · simp [initReadJobForCm, TransferJob.initDataStreamForCm, hopen]
      · intro err
        unfold TransferJob.read
        split
        · simp
        · simp [hsource p hp, hentry, hnone]
      · intro _ e _ _ he
        rw [hnone] at he
        cases he
    | false =>
      obtain ⟨ds, hds⟩ := openDataStream_stream hopen
      simp only [Bool.and_eq_true, Bool.or_eq_true, Bool.not_eq_true', hds, Option.map_some,
        Option.all_some] at h
      obtain ⟨hstat, hread⟩ := h
      have hreads : opened.awaitsConfirmation = false → (ds.readLoop fs bufSize []).isOk = true := by
        intro hawait
        simpa [hawait] using hread
      cases hw : opened.wantsDigest with
      | true =>
        obtain ⟨⟨lastModified, fileSize⟩, hd⟩ : ∃ d, opened.getCurrentDigest fs = .ok d := by
          cases hd : opened.getCurrentDigest fs with
          | error err => simp [hw, hd, Except.isOk, Except.toBool] at hstat
          | ok d => exact ⟨d, rfl⟩
        refine ⟨{ opened with fileIsWaiting := true },
          some (opened.digestResponse lastModified fileSize), ?_, ?_, hlast, ?_, ?_⟩
        · simp [TransferJob.initDataStream, hopen, hw, hd]
        · simp [initReadJobForCm, TransferJob.initDataStreamForCm, hopen, hw, hd, CmRead.forward,
            TransferJob.digestResponse]
        · exact read_ok hds hreads
        · intro p e job'' hp he hnone
          have hsource' : { opened with fileIsWaiting := true }.dataSource = .filePath p := hsource p hp
          obtain ⟨hawait, rfl⟩ := read_none hsource' (hentry.trans he) hnone
          simp only [TransferJob.awaitsConfirmation, Bool.and_eq_true] at hawait
          simp [TransferJob.jobCompleted, hawait.1.2]
      | false =>
        refine ⟨opened, none, ?_, ?_, hlast, ?_, ?_⟩
        · simp [TransferJob.initDataStream, hopen, hw]
        · simp [initReadJobForCm, TransferJob.initDataStreamForCm, hopen, hw]
        · exact read_ok hds hreads
        · intro p e job'' hp he hnone
          obtain ⟨hawait, rfl⟩ := read_none (hsource p hp) (hentry.trans he) hnone
          simp only [TransferJob.awaitsConfirmation, Bool.and_eq_true] at hawait
          simp_all [TransferJob.wantsDigest, TransferJob.jobCompleted]

theorem forward_finishData (job : TransferJob) :
    (finishData job).forward = finishResponse job := by
  unfold finishData finishResponse
  cases job.jobError with
  | none => rfl
  | some err => rfl

theorem tick_eq (h : job.isLastJob = false → callsSucceed fs job = true) :
    handleReadJobsTick fs [job] = handleReadJobs fs [job] := by
  cases hl : job.isLastJob with
  | true => simp [handleReadJobsTick, handleReadJobs, readJobsTick, readJobs, initJobs, hl]
  | false =>
    obtain ⟨job', digest, hi⟩ := initialised (h hl)
    obtain ⟨data, hdata, hforward⟩ := hi.cm
    have hlast : job'.isLastJob = false := hi.last.trans hl
    simp only [handleReadJobsTick, handleReadJobs, readJobsTick, readJobs, initJobs, hl, hlast,
      hdata, hi.here, initResponses, Bool.false_eq_true, if_false, List.append_nil]
    have hreads := hi.reads
    generalize job'.read fs = r at hreads ⊢
    obtain ⟨res, job''⟩ := r
    cases res with
    | error err => exact absurd rfl (hreads err)
    | ok block =>
      cases block with
      | some block => simp [hforward, CmRead.forward]
      | none =>
        cases hc : job''.jobCompleted with
        | true => simp [hforward, hc, forward_finishData]
        | false => simp [hforward, hc]

theorem tick_keeps {p : String} {e : FileEntry} (h : job.isLastJob = false → callsSucceed fs job = true)
    (hp : job.dataSource = .filePath p) (he : job.entry = some e) :
    (handleReadJobs fs [job]).2 ≠ [] := by
  cases hl : job.isLastJob with
  | true => simp [handleReadJobs, readJobs, initJobs, removeFinished, hl]
  | false =>
    obtain ⟨job', digest, hi⟩ := initialised (h hl)
    have hlast : job'.isLastJob = false := hi.last.trans hl
    simp only [handleReadJobs, readJobs, initJobs, hl, hlast, hi.here, Bool.false_eq_true, if_false]
    have hreads := hi.reads
    have hwaits := hi.waits p e
    generalize job'.read fs = r at hreads hwaits ⊢
    obtain ⟨res, job''⟩ := r
    cases res with
    | error err => exact absurd rfl (hreads err)
    | ok block =>
      cases block with
      | some block => simp [removeFinished]
      | none => simp [hwaits job'' hp he rfl, removeFinished]

/-! ## One confirmation -/

theorem confirm_other {r : SendConfirm} (h : r.fileNum ≠ job.fileNum) :
    job.confirm fs r = some job := by
  simp [TransferJob.confirm, h.symm]

theorem confirm_none {r : SendConfirm} (h : r.union = none) : job.confirm fs r = some job := by
  simp [TransferJob.confirm, h]

/-- Where the two confirmations differ, the one of the connection manager repeats what the
job knows. -/
theorem confirm_again {r : SendConfirm} (hs : r.skip = false) (ho : r.offsetBlk = 0)
    (hc : job.fileConfirmed = true) (hk : job.fileSkipped = false) :
    job.confirm fs (sendConfirmForRead job r) = some job := by
  have hset : job.setFileConfirmed true = job := by
    rw [TransferJob.setFileConfirmed, ← hc, ← hk]
  simp [TransferJob.confirm, sendConfirmForRead, hs, ho, hset]

theorem confirm_same {r : SendConfirm} (hn : r.fileNum = job.fileNum) (hu : r.union ≠ none) :
    job.confirm fs (sendConfirmForRead job r) = job.confirm fs r := by
  obtain ⟨id, fileNum, union⟩ := r
  dsimp only at hn hu
  subst hn
  rcases union with _ | s | offset
  · exact absurd rfl hu
  · cases s with
    | true => simp [TransferJob.confirm, sendConfirmForRead, SendConfirm.skip]
    | false =>
      simp [TransferJob.confirm, sendConfirmForRead, SendConfirm.skip, SendConfirm.offsetBlk]
  · simp [TransferJob.confirm, sendConfirmForRead, SendConfirm.skip, SendConfirm.offsetBlk]

theorem confirm_eq {r : SendConfirm} (h : Current job r) :
    job.confirm fs (sendConfirmForRead job r) = job.confirm fs r := by
  rcases h with ⟨hn, hu⟩ | ⟨hs, ho, hc, hk⟩
  · exact confirm_same hn hu
  · by_cases hn : r.fileNum = job.fileNum
    · by_cases hu : r.union = none
      · rw [confirm_again hs ho hc hk, confirm_none hu]
      · exact confirm_same hn hu
    · rw [confirm_again hs ho hc hk, confirm_other hn]

/-! ## Whole runs -/

/-- The two drivers are in the same state, with at most one job. -/
structure Inv (d : Driver × Driver) : Prop where
  same : d.1 = d.2
  single : ∀ jobs, d.1.jobs = some jobs → jobs.length ≤ 1

theorem updateJob_congr {id : Int} {f g : TransferJob → Option TransferJob}
    {jobs : List TransferJob} (h : ∀ job ∈ jobs, id = job.id → f job = g job) :
    updateJob id f jobs = updateJob id g jobs := by
  induction jobs with
  | nil => rfl
  | cons job jobs ih =>
    have hrest := ih fun j hj => h j (List.mem_cons_of_mem job hj)
    by_cases hid : job.id = id
    · simp [updateJob, hid, h job List.mem_cons_self hid.symm]
    · simp [updateJob, hid, hrest]

theorem updateJob_self {id : Int} {jobs : List TransferJob} : updateJob id some jobs = some jobs := by
  induction jobs with
  | nil => rfl
  | cons job jobs ih =>
    by_cases hid : job.id = id
    · simp [updateJob, hid]
    · simp [updateJob, hid, ih]

theorem length_updateJob {id : Int} {f : TransferJob → Option TransferJob} {jobs jobs' : List TransferJob}
    (h : updateJob id f jobs = some jobs') : jobs'.length = jobs.length := by
  induction jobs generalizing jobs' with
  | nil => cases h; rfl
  | cons job jobs ih =>
    by_cases hid : job.id = id
    · simp only [updateJob, hid, if_true, Option.map_eq_some_iff] at h
      obtain ⟨j, -, rfl⟩ := h
      simp
    · simp only [updateJob, hid, if_false, Option.map_eq_some_iff] at h
      obtain ⟨js, hjs, rfl⟩ := h
      simp [ih hjs]

theorem length_removeFinished (finished : List Int) (jobs : List TransferJob) :
    (removeFinished finished jobs).length ≤ jobs.length := by
  induction finished generalizing jobs with
  | nil => exact Nat.le_refl _
  | cons id finished ih => exact Nat.le_trans (ih _) List.eraseP_sublist.length_le

theorem length_initJobs (jobs : List TransferJob) : (initJobs fs jobs).2.length = jobs.length := by
  induction jobs with
  | nil => rfl
  | cons job jobs ih =>
    cases hl : job.isLastJob with
    | true => simp [initJobs, hl, ih]
    | false => simp [initJobs, hl, ih]

theorem length_readJobs (jobs : List TransferJob) : (readJobs fs jobs).2.2.length = jobs.length := by
  induction jobs with
  | nil => rfl
  | cons job jobs ih =>
    unfold readJobs
    split
    · simp [ih]
    · split
      · simp
      · simp
      · split <;> simp

theorem length_handleReadJobs (jobs : List TransferJob) :
    (handleReadJobs fs jobs).2.length ≤ jobs.length := by
  have h := length_removeFinished (readJobs fs (initJobs fs jobs).2).2.1
    (readJobs fs (initJobs fs jobs).2).2.2
  rwa [length_readJobs, length_initJobs] at h

theorem step_same (d : Driver × Driver) (i : FileSystem × Event) (h : Inv d) (hok : InSync d i) :
    inCm d.2 i = inProcess d.1 i := by
  obtain ⟨fs, e⟩ := i
  rw [← h.same]
  cases hj : d.1.jobs with
  | none => simp only [inCm, inProcess, hj]
  | some jobs =>
    cases e with
    | tick =>
      have hone := h.single jobs hj
      have htick : handleReadJobsTick fs jobs = handleReadJobs fs jobs := by
        rcases jobs with _ | ⟨job, _ | ⟨next, jobs⟩⟩
        · simp [handleReadJobsTick, handleReadJobs, readJobsTick, readJobs, initJobs]
        · exact tick_eq (hok job (by simp [hj]))
        · simp at hone
      simp only [inCm, inProcess, hj, htick]
    | confirm r =>
      have hupdate : updateJob r.id (fun job => confirm fs job (sendConfirmForRead job r)) jobs =
          updateJob r.id (confirm fs · r) jobs :=
        updateJob_congr fun job hmem hid => confirm_eq (hok job (by simpa [hj] using hmem) hid)
      simp only [inCm, inProcess, hj, hupdate]

theorem inv_step (d : Driver × Driver) (i : FileSystem × Event) (h : Inv d) (hok : InSync d i) :
    Inv (both d i) := by
  refine ⟨(step_same d i h hok).symm, ?_⟩
  intro jobs hjobs
  obtain ⟨fs, e⟩ := i
  cases hj : d.1.jobs with
  | none => simp [both, inProcess, hj] at hjobs
  | some js =>
    have hone := h.single js hj
    cases e with
    | tick =>
      simp only [both, inProcess, hj, Option.some.injEq] at hjobs
      subst hjobs
      exact Nat.le_trans (length_handleReadJobs js) hone
    | confirm r =>
      simp only [both, inProcess, hj] at hjobs
      exact Nat.le_trans (Nat.le_of_eq (length_updateJob hjobs)) hone

theorem other_unchanged {d : Driver} {r : SendConfirm}
    (h : ∀ job ∈ d.jobs.getD [], r.id = job.id → r.fileNum ≠ job.fileNum) :
    inProcess d (fs, .confirm r) = d := by
  obtain ⟨jobs, sent⟩ := d
  cases jobs with
  | none => simp only [inProcess]
  | some jobs =>
    have hsome : updateJob r.id (confirm fs · r) jobs = some jobs :=
      (updateJob_congr fun job hmem hid => confirm_other (h job hmem hid)).trans updateJob_self
    simp only [inProcess, hsome]

theorem agree (d : Driver × Driver) (i : FileSystem × Event) (h : Inv d) (hok : InSync d i) :
    Agree d i := by
  have hsame : (both d i).2 = (both d i).1 := step_same d i h hok
  refine ⟨by rw [hsame], ?_, ?_⟩
  · intro r hr hother
    obtain ⟨fs, e⟩ := i
    cases hr
    have hunchanged : (both d (fs, .confirm r)).1 = d.1 := other_unchanged hother
    exact ⟨hunchanged, by rw [hsame, hunchanged, h.same]⟩
  · intro job p e ht hp he
    obtain ⟨fs, ev⟩ := i
    cases ht
    have hkept : d.1.jobs = some [job] → (both d (fs, .tick)).1.jobs ≠ some [] := by
      intro hj
      have hne := tick_keeps (hok job (by simp [hj])) hp he
      simpa only [both, inProcess, hj, ne_eq, Option.some.injEq] using hne
    exact ⟨hkept, fun hj => by rw [hsame]; exact hkept (by rw [h.same]; exact hj)⟩

end ReadDrivers

open ReadDrivers

/-- In every run in which no call of a tick fails and every confirmation is for the file its
job is at, the two drivers send the same, drop what is for another file, and lose no file. -/
theorem drivers_agree (job : TransferJob) (is : List (FileSystem × ReadDrivers.Event))
    (hg : History.Guarded both InSync (Driver.start job, Driver.start job) is) :
    History.Guarded both Agree (Driver.start job, Driver.start job) is := by
  refine History.guarded_of_inv ReadDrivers.inv_step ReadDrivers.agree ⟨rfl, ?_⟩ hg
  intro jobs hjobs
  cases hjobs
  exact Nat.le_refl 1

/-- A directory with the files `a` and `b`. -/
def twoFilesFs : FileSystem where
  push p name := p ++ "/" ++ name
  fileName _ := none
  noSymlinkComponents _ _ := none
  fileExists path := path = "/src/a" || path = "/src/b"
  openRead _ := none
  openWrite _ := none
  seek _ := true
  metadata _ := .ok (100, 3)
  read file room := .ok ((([1, 2, 3] : Bytes).drop file.pos).take room)
  compress data := data

def twoFilesJob : TransferJob :=
  { id := 1
    dataSource := .filePath "/src"
    files := [{ name := "a", size := 3 }, { name := "b", size := 3 }]
    enableOverwriteDetection := true }

/-- The first file is resumed past its first byte and the second skipped. -/
def resumeThenSkip : List (FileSystem × ReadDrivers.Event) :=
  [(twoFilesFs, .tick), (twoFilesFs, .confirm ⟨1, 0, some (.offsetBlk 1)⟩), (twoFilesFs, .tick),
    (twoFilesFs, .tick), (twoFilesFs, .tick), (twoFilesFs, .confirm ⟨1, 1, some (.skip true)⟩),
    (twoFilesFs, .tick)]

theorem drivers_agree_resumeThenSkip :
    (History.run inProcess (Driver.start twoFilesJob) resumeThenSkip).sent =
      [.digest { id := 1, fileNum := 0, lastModified := 100, fileSize := 3 },
        .block ⟨1, 0, [2, 3], false⟩, .block ⟨1, 0, [], false⟩,
        .digest { id := 1, fileNum := 1, lastModified := 100, fileSize := 3 }, .done 1 2] ∧
      History.Guarded both Agree (Driver.start twoFilesJob, Driver.start twoFilesJob)
        resumeThenSkip :=
  ⟨by decide, drivers_agree twoFilesJob resumeThenSkip (by decide)⟩

/-- A skip for a file the job does not have moves the connection manager to the next file,
and a file that cannot be read ends its job. -/
theorem drivers_disagree :
    ¬ History.Guarded both Agree (Driver.start twoFilesJob, Driver.start twoFilesJob)
        [(twoFilesFs, .tick), (twoFilesFs, .confirm ⟨1, 5, some (.skip true)⟩), (twoFilesFs, .tick)] ∧
      ¬ History.Guarded both Agree (Driver.start twoFilesJob, Driver.start twoFilesJob)
        [(twoFilesFs, .tick), (twoFilesFs, .confirm ⟨1, 0, some (.offsetBlk 0)⟩),
          ({ twoFilesFs with read := fun _ _ => .error "Input/output error" }, .tick),
          (twoFilesFs, .tick)] := by
  constructor
  · intro h
    have hsent := h.2.2.1.sent
    revert hsent
    decide
  · intro h
    have hsent := h.2.2.2.1.sent
    revert hsent
    decide

end RustDesk
