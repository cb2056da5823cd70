import RustDesk.ReadDrivers

/-!
# When a read job is done

`handle_read_jobs` takes a job for done when `read` gives nothing and `job_completed` says so.
Neither looks at the number of the file. A run is watched with what was sent to the peer and
what the peer confirmed: a job that is reported as done and taken from the list should have
no file left, and each of its files should have been sent to its end, skipped by the peer, or
reported with an error.

With overwrite detection this fails where a file cannot be opened or its digest cannot be
taken: the job then neither waits for the peer nor is confirmed, which is what
`job_completed` takes for the end.
-/

namespace RustDesk.ReadCompletion

open ReadDrivers

/-- `new_read`, with the files `get_recursive_files` lists. -/
def newRead (id : Int) (type : JobType) (dataSource : DataSource) (fileNum : Int)
    (listed : List FileEntry) (enableOverwriteDetection : Bool) : TransferJob :=
  { id, type, dataSource, fileNum, enableOverwriteDetection
    files := match dataSource with
      | .filePath _ => listed
      | .memoryCursor _ => [] }

/-- A job as its driver gets it. A job of the last session waits to be resumed. -/
def IsNew (job : TransferJob) : Prop :=
  ∃ id type source fileNum listed detection last resume finished,
    -2 ^ 31 ≤ fileNum ∧ fileNum < 2 ^ 31 ∧
      job = { newRead id type source fileNum listed detection with
        isLastJob := last, isResume := resume, finishedSize := finished }

/-- The driver with the confirmations it has received. -/
structure Watched where
  driver : Driver
  heard : List SendConfirm := []

def Watched.start (jobs : List TransferJob) : Watched := { driver := { jobs := some jobs } }

def Watched.step (w : Watched) (i : FileSystem × ReadDrivers.Event) : Watched where
  driver := inProcess w.driver i
  heard := match i.2 with
    | .tick => w.heard
    | .confirm r => r :: w.heard

/-! ### What is owed for each file -/

/-- What became of a file of a job: the block that ends it was sent, the peer skipped it, or
an error was sent as the job went on to the next number. -/
def Dealt (sent : List FileResponse) (heard : List SendConfirm) (id : Int) (i : Nat) : Prop :=
  FileResponse.block { id, fileNum := i, data := [], compressed := false } ∈ sent ∨
    (∃ r ∈ heard, r.id = id ∧ r.fileNum = i ∧ r.union = some (.skip true)) ∨
    ∃ err, FileResponse.error id err (asI32 (i + 1)) ∈ sent

/-- The number is behind the last file, and each file from the one the job was started at has
been dealt with. -/
def AllDealt (first : List TransferJob) (w : Watched) (job : TransferJob) (n : Int) : Prop :=
  job.files.length ≤ usizeOfI32 n ∧
    ∀ i < job.files.length, (∀ j ∈ first, j.id = job.id → usizeOfI32 j.fileNum ≤ i) →
      Dealt w.driver.sent w.heard job.id i

/-- A tick reports no job as done and removes none, or it ends one that has been dealt with. -/
def TickEnds (first : List TransferJob) (w : Watched) (fs : FileSystem)
    (jobs : List TransferJob) : Prop :=
  let r := handleReadJobs fs jobs
  ((∀ id n, FileResponse.done id n ∉ r.1) ∧ r.2.map (·.id) = jobs.map (·.id)) ∨
    ∃ before job after n, jobs = before ++ job :: after ∧
      r.2.map (·.id) = (before ++ after).map (·.id) ∧
      (FileResponse.done job.id n ∈ r.1 ∨ FileResponse.error job.id "skipped" n ∈ r.1) ∧
      (∀ id n', FileResponse.done id n' ∈ r.1 → id = job.id ∧ n' = n) ∧
      AllDealt first (w.step (fs, .tick)) job n

def Ends (first : List TransferJob) (w : Watched) : FileSystem × ReadDrivers.Event → Prop
  | (fs, .tick) => ∀ jobs, w.driver.jobs = some jobs → TickEnds first w fs jobs
  | (_, .confirm _) => True

/-! ### When the code keeps to it -/

/-- The file the job is at can be opened, unless it is the last, and the digest that is due
for it can be taken. -/
def answers (fs : FileSystem) (job : TransferJob) : Bool :=
  match job.dataSource, job.entry with
  | .filePath p, some e =>
    if job.dataStream.isSome then
      job.fileConfirmed || job.fileIsWaiting || (job.getCurrentDigest fs).isOk
    else
      match fs.openRead (TransferJob.join fs p e.name) with
      | some _ => job.files.length ≤ usizeOfI32 job.fileNum + 1
      | none => (fs.metadata
          { path := TransferJob.join fs p e.name, pos := 0, writing := false }).isOk
  | _, _ => true

/-- The file system answers for the job the tick reads from, if that detects overwriting, and
no job that waits to be resumed stands before it under the same id. -/
def Safe (w : Watched) : FileSystem × ReadDrivers.Event → Prop
  | (fs, .tick) =>
    ∀ job ∈ (w.driver.jobs.getD []).find? (!·.isLastJob),
      (job.type = .generic → job.enableOverwriteDetection = true → answers fs job = true) ∧
        ∀ j ∈ (w.driver.jobs.getD []).takeWhile (·.isLastJob), j.id ≠ job.id
  | (_, .confirm _) => True

instance (w : Watched) : ∀ i, Decidable (Safe w i)
  | (fs, .tick) => inferInstanceAs (Decidable
    (∀ job ∈ (w.driver.jobs.getD []).find? (!·.isLastJob),
      (job.type = .generic → job.enableOverwriteDetection = true → answers fs job = true) ∧
        ∀ j ∈ (w.driver.jobs.getD []).takeWhile (·.isLastJob), j.id ≠ job.id))
  | (_, .confirm _) => .isTrue trivial

/-! ### One operation on a job -/

theorem asI32_mem (n : Int) : -2 ^ 31 ≤ asI32 n ∧ asI32 n < 2 ^ 31 := by
  unfold asI32
  rw [Int.bmod_def]
  split <;> omega

theorem lt_next {n : Int} {i : Nat} (hn : -2 ^ 31 ≤ n ∧ n < 2 ^ 31) (hi : i < 2 ^ 31)
    (h : i < usizeOfI32 (asI32 (n + 1))) : i < usizeOfI32 n ∨ (i : Int) = n := by
  unfold usizeOfI32 asI32 at *
  rw [Int.bmod_def] at h
  split at h <;> omega

theorem asI32_usizeOfI32 {n : Int} {i : Nat} (hi : i < 2 ^ 31) (h : (i : Int) = n) :
    asI32 (usizeOfI32 n) = i := by
  unfold usizeOfI32 asI32
  rw [Int.bmod_def]
  split <;> omega

theorem Dealt.mono {sent sent' : List FileResponse} {heard heard' : List SendConfirm} {id : Int}
    {i : Nat} (h : Dealt sent heard id i) (hs : sent ⊆ sent') (hh : heard ⊆ heard') :
    Dealt sent' heard' id i := by
  rcases h with h | ⟨r, hr, h⟩ | ⟨err, h⟩
  · exact .inl (hs h)
  · exact .inr (.inl ⟨r, hh hr, h⟩)
  · exact .inr (.inr ⟨err, hs h⟩)

/-- What an operation may do to a job, given what has been sent and heard by its end: it
leaves the number of the file, or goes on from one that has been dealt with. -/
structure Moves (sent : List FileResponse) (heard : List SendConfirm) (job job' : TransferJob) :
    Prop where
  id : job'.id = job.id
  files : job'.files = job.files
  last : job'.isLastJob = job.isLastJob
  memory : job'.ofMemory = job.ofMemory
  number : job'.fileNum = job.fileNum ∨
    job'.fileNum = asI32 (job.fileNum + 1) ∧
      ∀ i : Nat, i < 2 ^ 31 → (i : Int) = job.fileNum → Dealt sent heard job.id i

section Operations

variable {fs : FileSystem} {job : TransferJob} {sent : List FileResponse} {heard : List SendConfirm}

theorem Moves.refl : Moves sent heard job job := ⟨rfl, rfl, rfl, rfl, .inl rfl⟩

theorem moves_error {err : String} {job' : TransferJob} (hid : job'.id = job.id)
    (hfiles : job'.files = job.files) (hlast : job'.isLastJob = job.isLastJob)
    (hmemory : job'.ofMemory = job.ofMemory) (hnum : job'.fileNum = asI32 (job.fileNum + 1))
    (hsent : FileResponse.error job'.id err job'.fileNum ∈ sent) : Moves sent heard job job' := by
  refine ⟨hid, hfiles, hlast, hmemory, .inr ⟨hnum, fun i _ hi => ?_⟩⟩
  rw [hid, hnum, ← hi] at hsent
  exact .inr (.inr ⟨err, hsent⟩)

theorem opened_moves {r : Except String Bool × TransferJob} (ho : job.Opened fs r)
    (h : ∀ err, r.1 = .error err → FileResponse.error r.2.id err r.2.fileNum ∈ sent) :
    Moves sent heard job r.2 := by
  cases ho with
  | atEnd p hs he => exact ⟨rfl, rfl, rfl, rfl, .inl rfl⟩
  | already ds hd hmore => exact Moves.refl
  | opens p e hs he hd hfound => exact ⟨rfl, rfl, rfl, rfl, .inl rfl⟩
  | fails p e err hs he hd hfailed => exact moves_error rfl rfl rfl rfl rfl (h err rfl)
  | memory data hs => exact ⟨rfl, rfl, rfl, by simp [TransferJob.ofMemory, hs], .inl rfl⟩

/-- `init_data_stream` behind an open stream. -/
def sendDigest (fs : FileSystem) (job : TransferJob) :
    Except String (Option FileResponse) × TransferJob :=
  if job.wantsDigest then
    match job.getCurrentDigest fs with
    | .error err => (.error err, job)
    | .ok (lastModified, fileSize) =>
      (.ok (some (job.digestResponse lastModified fileSize)), { job with fileIsWaiting := true })
  else (.ok none, job)

theorem initDataStream_eq (fs : FileSystem) (job : TransferJob) :
    job.initDataStream fs =
      match job.openDataStream fs with
      | (.error err, job) => (.error err, job)
      | (.ok true, job) => (.ok none, job)
      | (.ok false, job) => sendDigest fs job := rfl

theorem sendDigest_eq (fs : FileSystem) (job : TransferJob) :
    ∃ waiting, (sendDigest fs job).2 = { job with fileIsWaiting := waiting } := by
  unfold sendDigest
  split
  · split
    · exact ⟨job.fileIsWaiting, rfl⟩
    · exact ⟨true, rfl⟩
  · exact ⟨job.fileIsWaiting, rfl⟩

theorem initDataStream_moves
    (h : initResponses (job.initDataStream fs).1 (job.initDataStream fs).2 ⊆ sent) :
    Moves sent heard job (job.initDataStream fs).2 := by
  rw [initDataStream_eq] at h ⊢
  have hopen := job.opened fs
  generalize job.openDataStream fs = r at h hopen ⊢
  obtain ⟨res, o⟩ := r
  cases res with
  | error err =>
    apply opened_moves hopen
    intro err' herr
    cases herr
    exact h (by simp [initResponses])
  | ok b =>
    have hmoves : Moves sent heard job o := opened_moves hopen fun err herr => by cases herr
    cases b with
    | true => exact hmoves
    | false =>
      obtain ⟨waiting, hw⟩ := sendDigest_eq fs o
      dsimp only
      rw [hw]
      exact ⟨hmoves.id, hmoves.files, hmoves.last, hmoves.memory, hmoves.number⟩

/-- What the driver sends for what `read` gives, the end of the job apart. -/
def readResponses (r : Except String (Option FileTransferBlock)) (job : TransferJob) :
    List FileResponse :=
  match r with
  | .ok block => (block.map FileResponse.block).toList
  | .error err => [.error job.id err job.fileNum]

theorem readFrom_moves {name : Option String}
    (h : readResponses (job.readFrom fs name).1 (job.readFrom fs name).2 ⊆ sent) :
    Moves sent heard job (job.readFrom fs name).2 := by
  unfold TransferJob.readFrom at h ⊢
  split
  · exact Moves.refl
  · rename_i ds hds
    simp only [hds] at h
    cases hr : ds.readLoop fs bufSize [] with
    | error err =>
      simp only [hr] at h
      exact moves_error rfl rfl rfl rfl rfl (h List.mem_cons_self)
    | ok q =>
      obtain ⟨buf, ds'⟩ := q
      simp only [hr] at h
      dsimp only
      split
      · rename_i hbuf
        simp only [hbuf, if_true] at h
        split
        · exact ⟨rfl, rfl, rfl, rfl, .inl rfl⟩
        · rename_i hn
          simp only [hn] at h
          refine ⟨rfl, rfl, rfl, rfl, .inr ⟨rfl, fun i hi hnum => .inl (h ?_)⟩⟩
          simp [readResponses, asI32_usizeOfI32 hi hnum]
      · exact ⟨rfl, rfl, rfl, rfl, .inl rfl⟩

theorem read_moves (h : readResponses (job.read fs).1 (job.read fs).2 ⊆ sent) :
    Moves sent heard job (job.read fs).2 := by
  unfold TransferJob.read at h ⊢
  split
  · exact Moves.refl
  · rename_i hawait
    simp only [hawait] at h
    split
    · rename_i p hs
      simp only [hs] at h
      split
      · exact ⟨rfl, rfl, rfl, rfl, .inl rfl⟩
      · rename_i e he
        simp only [he] at h
        exact readFrom_moves h
    · rename_i data hs
      simp only [hs] at h
      exact readFrom_moves h

theorem setStreamOffset_moves {job' : TransferJob} {fileNum offset : Nat}
    (h : job.setStreamOffset fs fileNum offset = some job') : Moves sent heard job job' := by
  have hseeked : ∀ file : OpenFile,
      Moves sent heard job (if fs.seek file then
        { job with
          dataStream := some (.fileStream file)
          transferred := job.transferred + offset
          finishedSize := job.finishedSize + offset }
      else job) := by
    intro file
    split
    · exact ⟨rfl, rfl, rfl, rfl, .inl rfl⟩
    · exact Moves.refl
  have hite : ∀ (b : Bool) (j : TransferJob), Moves sent heard job j →
      Moves sent heard job (if b then j else job) := by
    intro b j hj
    cases b with
    | true => exact hj
    | false => exact Moves.refl
  unfold TransferJob.setStreamOffset at h
  split at h
  · cases h
    exact Moves.refl
  · split at h
    · cases h
    · split at h
      · cases h
        exact Moves.refl
      · dsimp only at h
        split at h
        · cases h
          exact hite _ _ (hseeked _)
        · split at h
          · cases h
            exact hite _ _ (hseeked _)
          · cases h
            exact Moves.refl

theorem confirm_moves {job' : TransferJob} {r : SendConfirm} (h : job.confirm fs r = some job')
    (hid : r.id = job.id) (hr : r ∈ heard) : Moves sent heard job job' := by
  unfold TransferJob.confirm at h
  split at h
  · cases h
    exact Moves.refl
  · rename_i hn
    have hnum : job.fileNum = r.fileNum := not_not.mp hn
    have hset : Moves sent heard job (job.setFileConfirmed true) := ⟨rfl, rfl, rfl, rfl, .inl rfl⟩
    split at h
    · rename_i hskip
      cases h
      refine ⟨rfl, rfl, rfl, rfl, .inr ⟨rfl, fun i hi hii => .inr (.inl ⟨r, hr, hid, ?_, hskip⟩)⟩⟩
      rw [← hnum, ← hii]
    · cases h
      exact hset
    · split at h
      · have hoff : Moves sent heard (job.setFileConfirmed true) job' := setStreamOffset_moves h
        exact ⟨hoff.id, hoff.files, hoff.last, hoff.memory, hoff.number⟩
      · cases h
        exact hset
    · cases h
      exact Moves.refl

end Operations

/-! ### The invariant of a job -/

structure Kept (first : List TransferJob) (sent : List FileResponse) (heard : List SendConfirm)
    (job : TransferJob) : Prop where
  number : -2 ^ 31 ≤ job.fileNum ∧ job.fileNum < 2 ^ 31
  few : job.files.length ≤ 2 ^ 31
  memory : job.ofMemory = true → job.files = []
  dealt : ∀ i < job.files.length, (∀ j ∈ first, j.id = job.id → usizeOfI32 j.fileNum ≤ i) →
    i < usizeOfI32 job.fileNum → Dealt sent heard job.id i

section Jobs

variable {fs : FileSystem} {job job' : TransferJob} {first : List TransferJob}
  {sent sent' : List FileResponse} {heard heard' : List SendConfirm}

theorem Kept.moves (h : Kept first sent heard job) (hm : Moves sent heard job job') :
    Kept first sent heard job' := by
  refine ⟨?_, hm.files ▸ h.few, fun hmem => ?_, ?_⟩
  · rcases hm.number with hsame | ⟨hnext, -⟩
    · rw [hsame]
      exact h.number
    · rw [hnext]
      exact asI32_mem _
  · rw [hm.memory] at hmem
    rw [hm.files]
    exact h.memory hmem
  · intro i hi hstart hlt
    rw [hm.files] at hi
    rw [hm.id] at hstart ⊢
    have hi31 : i < 2 ^ 31 := Nat.lt_of_lt_of_le hi h.few
    rcases hm.number with hsame | ⟨hnext, hdealt⟩
    · rw [hsame] at hlt
      exact h.dealt i hi hstart hlt
    · rw [hnext] at hlt
      rcases lt_next h.number hi31 hlt with hbefore | hat
      · exact h.dealt i hi hstart hbefore
      · exact hdealt i hi31 hat

theorem Kept.mono (h : Kept first sent heard job) (hs : sent ⊆ sent') (hh : heard ⊆ heard') :
    Kept first sent' heard' job :=
  ⟨h.number, h.few, h.memory, fun i hi hstart hlt => (h.dealt i hi hstart hlt).mono hs hh⟩

theorem Kept.allDealt {w : Watched} (h : Kept first w.driver.sent w.heard job')
    (hid : job'.id = job.id) (hfiles : job'.files = job.files)
    (hlen : job'.files.length ≤ usizeOfI32 job'.fileNum) : AllDealt first w job job'.fileNum := by
  refine ⟨hfiles ▸ hlen, fun i hi hstart => ?_⟩
  rw [← hfiles] at hi
  rw [← hid] at hstart ⊢
  exact h.dealt i hi hstart (Nat.lt_of_lt_of_le hi hlen)

/-! ### What ends a job -/

theorem length_le_of_entry (h : job.entry = none) : job.files.length ≤ usizeOfI32 job.fileNum :=
  List.getElem?_eq_none_iff.mp h

theorem entry_nextFile {e : FileEntry} (hn : -2 ^ 31 ≤ job.fileNum ∧ job.fileNum < 2 ^ 31)
    (hfew : job.files.length ≤ 2 ^ 31) (he : job.entry = some e)
    (hlast : job.files.length ≤ usizeOfI32 job.fileNum + 1) : job.nextFile.entry = none := by
  have hlt : usizeOfI32 job.fileNum < job.files.length := (List.getElem?_eq_some_iff.mp he).1
  apply List.getElem?_eq_none_iff.mpr
  change job.files.length ≤ usizeOfI32 (asI32 (job.fileNum + 1))
  generalize job.files.length = len at *
  generalize job.fileNum = n at *
  unfold usizeOfI32 asI32 at *
  rw [Int.bmod_def]
  split <;> omega

theorem initDataStream_kind (fs : FileSystem) (job : TransferJob) :
    (job.initDataStream fs).2.type = job.type ∧
      (job.initDataStream fs).2.enableOverwriteDetection = job.enableOverwriteDetection := by
  have hopen := job.opened fs
  rw [initDataStream_eq]
  generalize job.openDataStream fs = r at hopen ⊢
  obtain ⟨res, o⟩ := r
  have hkind : o.type = job.type ∧ o.enableOverwriteDetection = job.enableOverwriteDetection := by
    cases hopen <;> exact ⟨rfl, rfl⟩
  cases res with
  | error err => exact hkind
  | ok b =>
    cases b with
    | true => exact hkind
    | false =>
      obtain ⟨waiting, hw⟩ := sendDigest_eq fs o
      dsimp only
      rw [hw]
      exact hkind

theorem sendDigest_settles (hg : job.type = .generic) (hd : job.enableOverwriteDetection = true)
    (h : (job.fileConfirmed || job.fileIsWaiting || (job.getCurrentDigest fs).isOk) = true) :
    (sendDigest fs job).2.fileConfirmed = true ∨ (sendDigest fs job).2.fileIsWaiting = true := by
  unfold sendDigest
  by_cases hw : job.wantsDigest = true
  · rw [if_pos hw]
    have hflags : job.fileConfirmed = false ∧ job.fileIsWaiting = false := by
      simpa [TransferJob.wantsDigest, hg, hd] using hw
    rw [hflags.1, hflags.2] at h
    cases hdigest : job.getCurrentDigest fs with
    | error err => simp [hdigest, Except.isOk, Except.toBool] at h
    | ok digest => exact .inr rfl
  · rw [if_neg hw]
    rcases hc : job.fileConfirmed with _ | _
    · right
      simpa [TransferJob.wantsDigest, hg, hd, hc] using hw
    · exact .inl rfl

/-- Where the file system answers, an initialised job that detects overwriting has no file
left, or is confirmed or waits for that. -/
theorem initDataStream_settles (hn : -2 ^ 31 ≤ job.fileNum ∧ job.fileNum < 2 ^ 31)
    (hfew : job.files.length ≤ 2 ^ 31) (hg : job.type = .generic)
    (hd : job.enableOverwriteDetection = true) (ha : answers fs job = true) :
    job.ofMemory = true ∨ (job.initDataStream fs).2.entry = none ∨
      (job.initDataStream fs).2.fileConfirmed = true ∨
      (job.initDataStream fs).2.fileIsWaiting = true := by
  have hopen := job.opened fs
  rw [initDataStream_eq]
  generalize job.openDataStream fs = r at hopen ⊢
  cases hopen with
  | atEnd p hs he => exact .inr (.inl he)
  | already ds hds hmore =>
    rcases hmore with hmem | ⟨p, e, hs, he⟩
    · exact .inl hmem
    · right
      right
      simp only [answers, hs, he, hds, Option.isSome_some, if_true] at ha
      exact sendDigest_settles hg hd ha
  | opens p e hs he hds hfound =>
    right
    right
    simp only [answers, hs, he, hds, Option.isSome_none, hfound, Bool.false_eq_true, if_false] at ha
    dsimp only
    apply sendDigest_settles
    · exact hg
    · exact hd
    simpa [TransferJob.getCurrentDigest] using ha
  | fails p e err hs he hds hfailed =>
    right
    left
    simp only [answers, hs, he, hds, Option.isSome_none, hfailed, Bool.false_eq_true, if_false,
      decide_eq_true_eq] at ha
    exact entry_nextFile hn hfew he ha
  | memory data hs => exact .inl (by simp [TransferJob.ofMemory, hs])

/-- A job that the driver takes for completed is behind its last file. -/
theorem length_le_of_completed (hk : Kept first sent heard job)
    (hsafe : job.type = .generic → job.enableOverwriteDetection = true → answers fs job = true)
    (hmoves : Moves sent heard job (job.initDataStream fs).2)
    (hread : ((job.initDataStream fs).2.read fs).1 = .ok none)
    (hdone : ((job.initDataStream fs).2.read fs).2.jobCompleted = true) :
    ((job.initDataStream fs).2.read fs).2.files.length ≤
      usizeOfI32 ((job.initDataStream fs).2.read fs).2.fileNum := by
  have hkind := initDataStream_kind fs job
  have hsettles := @initDataStream_settles fs job hk.number hk.few
  generalize (job.initDataStream fs).2 = o at *
  have hmem : job.ofMemory = true → o.files.length ≤ usizeOfI32 o.fileNum := by
    intro h
    rw [hmoves.files, hk.memory h]
    exact Nat.zero_le _
  rcases TransferJob.read_nothing (Prod.ext hread rfl : o.read fs = (.ok none, (o.read fs).2)) with
    ⟨hawait, hsame⟩ | ⟨hend, hsame⟩
  · rw [hsame] at hdone ⊢
    obtain ⟨⟨hg, hd⟩, hc⟩ : (o.type = .generic ∧ o.enableOverwriteDetection = true) ∧
        o.fileConfirmed = false := by
      simpa [TransferJob.awaitsConfirmation] using hawait
    have hw : o.fileIsWaiting = false := by
      simpa [TransferJob.jobCompleted, hd, hc] using hdone
    have hg' : job.type = .generic := hkind.1 ▸ hg
    have hd' : job.enableOverwriteDetection = true := hkind.2 ▸ hd
    rcases hsettles hg' hd' (hsafe hg' hd') with h | h | h | h
    · exact hmem h
    · exact length_le_of_entry h
    · rw [hc] at h
      cases h
    · rw [hw] at h
      cases h
  · rw [hsame]
    rcases hend with he | hm
    · exact length_le_of_entry he
    · rw [hmoves.memory] at hm
      exact hmem hm

/-! ### A tick over the list -/

variable {jobs waiting : List TransferJob}

theorem initJobs_append (h : ∀ j ∈ waiting, j.isLastJob = true) :
    initJobs fs (waiting ++ jobs) = ((initJobs fs jobs).1, waiting ++ (initJobs fs jobs).2) := by
  induction waiting with
  | nil => rfl
  | cons j waiting ih =>
    have hrest := ih fun j' hj' => h j' (List.mem_cons_of_mem j hj')
    simp [initJobs, h j List.mem_cons_self, hrest]

theorem readJobs_append (h : ∀ j ∈ waiting, j.isLastJob = true) :
    readJobs fs (waiting ++ jobs) =
      ((readJobs fs jobs).1, (readJobs fs jobs).2.1, waiting ++ (readJobs fs jobs).2.2) := by
  induction waiting with
  | nil => rfl
  | cons j waiting ih =>
    have hrest := ih fun j' hj' => h j' (List.mem_cons_of_mem j hj')
    simp [readJobs, h j List.mem_cons_self, hrest]

theorem readJobs_cons (h : job.isLastJob = false) :
    readJobs fs (job :: jobs) =
        (readResponses (job.read fs).1 (job.read fs).2, [], (job.read fs).2 :: jobs) ∨
      (job.read fs).1 = .ok none ∧ (job.read fs).2.jobCompleted = true ∧
        readJobs fs (job :: jobs) =
          ([finishResponse (job.read fs).2], [(job.read fs).2.id], (job.read fs).2 :: jobs) := by
  unfold readJobs
  rw [if_neg (by simp [h])]
  generalize job.read fs = r
  obtain ⟨res, job'⟩ := r
  cases res with
  | error err => exact .inl rfl
  | ok block =>
    cases block with
    | some block => exact .inl rfl
    | none =>
      cases hc : job'.jobCompleted with
      | false => simp [hc, readResponses]
      | true => simp [hc]

theorem initJobs_ids (fs : FileSystem) (jobs : List TransferJob) :
    (initJobs fs jobs).2.map (·.id) = jobs.map (·.id) := by
  induction jobs with
  | nil => rfl
  | cons job jobs ih =>
    cases hl : job.isLastJob with
    | true => simp [initJobs, hl, ih]
    | false =>
      have hid : (job.initDataStream fs).2.id = job.id :=
        (initDataStream_moves (List.Subset.refl _) : Moves _ [] job _).id
      simp [initJobs, hl, ih, hid]

theorem initResponses_done (fs : FileSystem) (job : TransferJob) (id n : Int) :
    FileResponse.done id n ∉ initResponses (job.initDataStream fs).1 (job.initDataStream fs).2 := by
  rw [initDataStream_eq]
  generalize job.openDataStream fs = r
  obtain ⟨res, o⟩ := r
  cases res with
  | error err => simp [initResponses]
  | ok b =>
    cases b with
    | true => simp [initResponses]
    | false =>
      dsimp only [sendDigest]
      split
      · split
        · simp [initResponses]
        · simp [initResponses, TransferJob.digestResponse]
      · simp [initResponses]

theorem initJobs_done (fs : FileSystem) (jobs : List TransferJob) (id n : Int) :
    FileResponse.done id n ∉ (initJobs fs jobs).1 := by
  induction jobs with
  | nil => simp [initJobs]
  | cons job jobs ih =>
    cases hl : job.isLastJob with
    | true => simpa [initJobs, hl] using ih
    | false =>
      simp only [initJobs, hl, Bool.false_eq_true, if_false, List.mem_append, not_or]
      exact ⟨initResponses_done fs job id n, ih⟩

theorem initJobs_kept (h : ∀ job ∈ jobs, Kept first sent heard job)
    (hsent : (initJobs fs jobs).1 ⊆ sent) :
    ∀ job ∈ (initJobs fs jobs).2, Kept first sent heard job := by
  induction jobs with
  | nil => simp [initJobs]
  | cons job jobs ih =>
    have hhead : Kept first sent heard job := h job List.mem_cons_self
    have htail : (initJobs fs jobs).1 ⊆ sent →
        ∀ job ∈ (initJobs fs jobs).2, Kept first sent heard job :=
      ih fun j hj => h j (List.mem_cons_of_mem job hj)
    cases hl : job.isLastJob with
    | true =>
      simp only [initJobs, hl, if_true] at hsent ⊢
      exact List.forall_mem_cons.mpr ⟨hhead, htail hsent⟩
    | false =>
      simp only [initJobs, hl, Bool.false_eq_true, if_false] at hsent ⊢
      obtain ⟨hinit, hrest⟩ := List.append_subset.mp hsent
      exact List.forall_mem_cons.mpr ⟨hhead.moves (initDataStream_moves hinit), htail hrest⟩

theorem handleReadJobs_waiting (h : ∀ j ∈ jobs, j.isLastJob = true) :
    handleReadJobs fs jobs = ([], jobs) := by
  have hinit := @initJobs_append fs [] jobs h
  have hread := @readJobs_append fs [] jobs h
  rw [List.append_nil] at hinit hread
  simp [handleReadJobs, hinit, hread, initJobs, readJobs, removeFinished]

theorem handleReadJobs_append (hw : ∀ j ∈ waiting, j.isLastJob = true)
    (hj : job.isLastJob = false) :
    let init := job.initDataStream fs
    let read := init.2.read fs
    let rest := initJobs fs jobs
    handleReadJobs fs (waiting ++ job :: jobs) =
        (initResponses init.1 init.2 ++ rest.1 ++ readResponses read.1 read.2,
          waiting ++ read.2 :: rest.2) ∨
      read.1 = .ok none ∧ read.2.jobCompleted = true ∧
        handleReadJobs fs (waiting ++ job :: jobs) =
          (initResponses init.1 init.2 ++ rest.1 ++ [finishResponse read.2],
            (waiting ++ read.2 :: rest.2).eraseP (·.id = read.2.id)) := by
  intro init read rest
  have hlast : init.2.isLastJob = false :=
    ((initDataStream_moves (List.Subset.refl _) : Moves _ [] job _).last).trans hj
  have hinit : initJobs fs (waiting ++ job :: jobs) =
      (initResponses init.1 init.2 ++ rest.1, waiting ++ init.2 :: rest.2) := by
    rw [initJobs_append hw]
    simp [initJobs, hj, init, rest]
  have hread := @readJobs_append fs (init.2 :: rest.2) waiting hw
  unfold handleReadJobs
  rw [hinit]
  dsimp only
  rw [hread]
  rcases @readJobs_cons fs init.2 rest.2 hlast with h | ⟨hnone, hdone, h⟩
  · left
    rw [h]
    rfl
  · right
    refine ⟨hnone, hdone, ?_⟩
    rw [h]
    rfl

theorem readResponses_done (r : Except String (Option FileTransferBlock)) (job : TransferJob)
    (id n : Int) : FileResponse.done id n ∉ readResponses r job := by
  cases r with
  | error err => simp [readResponses]
  | ok block => cases block <;> simp [readResponses]

theorem finishResponse_cases (job : TransferJob) :
    finishResponse job = .done job.id job.fileNum ∨
      finishResponse job = .error job.id "skipped" job.fileNum := by
  unfold finishResponse TransferJob.jobError
  by_cases h : job.jobSkipped = true
  · simp [h]
  · simp [h]

theorem done_mem_last {last : List FileResponse} {id n : Int}
    (h : FileResponse.done id n ∈ initResponses (job.initDataStream fs).1
      (job.initDataStream fs).2 ++ (initJobs fs jobs).1 ++ last) :
    FileResponse.done id n ∈ last := by
  simp only [List.mem_append] at h
  rcases h with (h | h) | h
  · exact absurd h (initResponses_done fs job id n)
  · exact absurd h (initJobs_done fs jobs id n)
  · exact h

/-- Whatever a tick sends at last, it moves the job it reads from and those behind it. -/
theorem tick_moves {last : List FileResponse} (hk : ∀ j ∈ jobs, Kept first sent heard j)
    (hsent : initResponses (job.initDataStream fs).1 (job.initDataStream fs).2 ++
      (initJobs fs jobs).1 ++ last ⊆ sent)
    (hread : readResponses ((job.initDataStream fs).2.read fs).1
      ((job.initDataStream fs).2.read fs).2 ⊆ last) :
    Moves sent heard job (job.initDataStream fs).2 ∧
      Moves sent heard (job.initDataStream fs).2 ((job.initDataStream fs).2.read fs).2 ∧
      ∀ j ∈ (initJobs fs jobs).2, Kept first sent heard j := by
  obtain ⟨hfront, hlast⟩ := List.append_subset.mp hsent
  obtain ⟨hinit, hrest⟩ := List.append_subset.mp hfront
  exact ⟨initDataStream_moves hinit, read_moves (List.Subset.trans hread hlast),
    initJobs_kept hk hrest⟩

/-- What a tick does to the list when the jobs before the one it reads wait to be resumed. -/
theorem tick_append {w : Watched} (hjobs : w.driver.jobs = some (waiting ++ job :: jobs))
    (hk : ∀ j ∈ waiting ++ job :: jobs, Kept first w.driver.sent w.heard j)
    (hw : ∀ j ∈ waiting, j.isLastJob = true) (hj : job.isLastJob = false)
    (hsafe : job.type = .generic → job.enableOverwriteDetection = true → answers fs job = true)
    (hids : ∀ j ∈ waiting, j.id ≠ job.id) :
    (∀ j ∈ (handleReadJobs fs (waiting ++ job :: jobs)).2,
        Kept first (w.step (fs, .tick)).driver.sent w.heard j) ∧
      TickEnds first w fs (waiting ++ job :: jobs) := by
  have hsent : (w.step (fs, .tick)).driver.sent =
      w.driver.sent ++ (handleReadJobs fs (waiting ++ job :: jobs)).1 := by
    simp only [Watched.step, inProcess, hjobs]
  have hall : (handleReadJobs fs (waiting ++ job :: jobs)).1 ⊆ (w.step (fs, .tick)).driver.sent :=
    hsent ▸ List.subset_append_right _ _
  have hkept : ∀ j ∈ waiting ++ job :: jobs, Kept first (w.step (fs, .tick)).driver.sent w.heard j :=
    fun j hmem => (hk j hmem).mono (hsent ▸ List.subset_append_left _ _) (List.Subset.refl _)
  obtain ⟨hkw, hkjobs'⟩ := List.forall_mem_append.mp hkept
  obtain ⟨hkjob, hkjobs⟩ := List.forall_mem_cons.mp hkjobs'
  rcases @handleReadJobs_append fs job jobs waiting hw hj with h | ⟨hnone, hdone, h⟩
  · -- The job goes on.
    unfold TickEnds
    rw [h] at hall ⊢
    obtain ⟨hinit, hread, hrest⟩ := tick_moves hkjobs hall (List.Subset.refl _)
    refine ⟨List.forall_mem_append.mpr ⟨hkw, List.forall_mem_cons.mpr
      ⟨(hkjob.moves hinit).moves hread, hrest⟩⟩, .inl ⟨fun id n hm => ?_, ?_⟩⟩
    · exact readResponses_done _ _ id n (done_mem_last hm)
    · simp [initJobs_ids, hread.id, hinit.id]
  · -- It is completed, and taken from its place in the list.
    unfold TickEnds
    rw [h] at hall ⊢
    have hnil : readResponses ((job.initDataStream fs).2.read fs).1
        ((job.initDataStream fs).2.read fs).2 = [] := by
      rw [hnone]
      rfl
    obtain ⟨hinit, hread, hrest⟩ := tick_moves hkjobs hall (by rw [hnil]; exact List.nil_subset _)
    have hid : ((job.initDataStream fs).2.read fs).2.id = job.id := hread.id.trans hinit.id
    have herase : (waiting ++ ((job.initDataStream fs).2.read fs).2 :: (initJobs fs jobs).2).eraseP
        (·.id = ((job.initDataStream fs).2.read fs).2.id) = waiting ++ (initJobs fs jobs).2 := by
      rw [List.eraseP_append_right _ (fun j hmem => by simpa [hid] using hids j hmem),
        List.eraseP_cons_of_pos (by simp)]
    have hlen := length_le_of_completed hkjob hsafe hinit hnone hdone
    have hend : Kept first (w.step (fs, .tick)).driver.sent w.heard
        ((job.initDataStream fs).2.read fs).2 := (hkjob.moves hinit).moves hread
    dsimp only
    rw [herase]
    refine ⟨List.forall_mem_append.mpr ⟨hkw, hrest⟩, .inr
      ⟨waiting, job, jobs, ((job.initDataStream fs).2.read fs).2.fileNum, rfl, ?_, ?_, ?_, ?_⟩⟩
    · simp [initJobs_ids]
    · rw [← hid]
      rcases finishResponse_cases ((job.initDataStream fs).2.read fs).2 with hf | hf
      · exact .inl (by simp [hf])
      · exact .inr (by simp [hf])
    · intro id n hm
      have hlast := List.mem_singleton.mp (done_mem_last hm)
      rcases finishResponse_cases ((job.initDataStream fs).2.read fs).2 with hf | hf
      · rw [hf] at hlast
        cases hlast
        exact ⟨hid, rfl⟩
      · rw [hf] at hlast
        cases hlast
    · exact hend.allDealt hid (hread.files.trans hinit.files) hlen

end Jobs

/-! ### Whole runs -/

def Inv (first : List TransferJob) (w : Watched) : Prop :=
  ∀ jobs, w.driver.jobs = some jobs → ∀ job ∈ jobs, Kept first w.driver.sent w.heard job

section Runs

variable {first jobs : List TransferJob} {w : Watched} {fs : FileSystem}

theorem tick_spec (hinv : Inv first w) (hjobs : w.driver.jobs = some jobs)
    (hsafe : Safe w (fs, .tick)) :
    (∀ j ∈ (handleReadJobs fs jobs).2, Kept first (w.step (fs, .tick)).driver.sent w.heard j) ∧
      TickEnds first w fs jobs := by
  have hk := hinv jobs hjobs
  simp only [Safe, hjobs, Option.getD_some] at hsafe
  cases hf : jobs.find? (!·.isLastJob) with
  | none =>
    have hw : ∀ j ∈ jobs, j.isLastJob = true := by simpa using hf
    have hsent : (w.step (fs, .tick)).driver.sent = w.driver.sent := by
      simp [Watched.step, inProcess, hjobs, handleReadJobs_waiting hw]
    unfold TickEnds
    rw [handleReadJobs_waiting hw, hsent]
    exact ⟨hk, .inl ⟨by simp, rfl⟩⟩
  | some job =>
    obtain ⟨hlast, waiting, rest, hsplit, hwait⟩ := List.find?_eq_some_iff_append.mp hf
    have hj : job.isLastJob = false := by simpa using hlast
    have hw : ∀ j ∈ waiting, j.isLastJob = true := by simpa using hwait
    have htake : jobs.takeWhile (·.isLastJob) = waiting := by
      rw [hsplit, List.takeWhile_append_of_pos hw]
      simp [hj]
    obtain ⟨hanswers, hids⟩ := hsafe job hf
    rw [htake] at hids
    subst hsplit
    exact tick_append hjobs hk hw hj hanswers hids

theorem confirm_kept {r : SendConfirm} {jobs' : List TransferJob} {sent : List FileResponse}
    {heard : List SendConfirm} (hk : ∀ job ∈ jobs, Kept first sent heard job) (hr : r ∈ heard)
    (h : updateJob r.id (fun job => TransferJob.confirm fs job r) jobs = some jobs') :
    ∀ job ∈ jobs', Kept first sent heard job := by
  induction jobs generalizing jobs' with
  | nil =>
    cases h
    exact fun job hmem => by cases hmem
  | cons job jobs ih =>
    obtain ⟨hhead, htail⟩ := List.forall_mem_cons.mp hk
    unfold updateJob at h
    by_cases hid : job.id = r.id
    · rw [if_pos hid] at h
      obtain ⟨job', hconfirm, rfl⟩ := Option.map_eq_some_iff.mp h
      exact List.forall_mem_cons.mpr ⟨hhead.moves (confirm_moves hconfirm hid.symm hr), htail⟩
    · rw [if_neg hid] at h
      obtain ⟨rest, hrest, rfl⟩ := Option.map_eq_some_iff.mp h
      exact List.forall_mem_cons.mpr ⟨hhead, ih htail hrest⟩

theorem inv_step (w : Watched) (i : FileSystem × ReadDrivers.Event) (hinv : Inv first w) (hsafe : Safe w i) :
    Inv first (w.step i) := by
  intro jobs' hjobs'
  obtain ⟨fs, ev⟩ := i
  cases hjobs : w.driver.jobs with
  | none => simp [Watched.step, inProcess, hjobs] at hjobs'
  | some jobs =>
    cases ev with
    | tick =>
      simp only [Watched.step, inProcess, hjobs, Option.some.injEq] at hjobs'
      subst hjobs'
      exact (tick_spec hinv hjobs hsafe).1
    | confirm r =>
      simp only [Watched.step, inProcess, hjobs] at hjobs' ⊢
      refine confirm_kept (fun job hmem => ?_) List.mem_cons_self hjobs'
      exact (hinv jobs hjobs job hmem).mono (List.Subset.refl _) (List.subset_cons_self _ _)

theorem ends_step (w : Watched) (i : FileSystem × ReadDrivers.Event) (hinv : Inv first w) (hsafe : Safe w i) :
    Ends first w i := by
  obtain ⟨fs, ev⟩ := i
  cases ev with
  | tick => exact fun jobs hjobs => (tick_spec hinv hjobs hsafe).2
  | confirm r => trivial

end Runs

theorem kept_of_isNew {first : List TransferJob} {job : TransferJob} (hmem : job ∈ first)
    (hnew : IsNew job) (hfew : job.files.length ≤ 2 ^ 31) : Kept first [] [] job := by
  obtain ⟨id, type, source, fileNum, listed, detection, last, resume, finished, hlo, hhi, rfl⟩ := hnew
  refine ⟨⟨hlo, hhi⟩, hfew, fun hm => ?_, fun i hi hstart hlt => ?_⟩
  · cases source with
    | filePath p => cases hm
    | memoryCursor data => rfl
  · exact absurd hlt (Nat.not_lt.mpr (hstart _ hmem rfl))

/-- In every run in which the file system answers for the job that is read, if that detects
overwriting: a tick reports and removes a job only when its number is behind its last file,
and each of its files was sent to its end, skipped by the peer or reported with an error. -/
theorem ended_when_dealt (jobs : List TransferJob) (is : List (FileSystem × ReadDrivers.Event))
    (hnew : ∀ job ∈ jobs, IsNew job) (hfew : ∀ job ∈ jobs, job.files.length ≤ 2 ^ 31)
    (hsafe : History.Guarded Watched.step Safe (Watched.start jobs) is) :
    History.Guarded Watched.step (Ends jobs) (Watched.start jobs) is := by
  refine History.guarded_of_inv inv_step ends_step ?_ hsafe
  intro jobs' hjobs' job hmem
  cases hjobs'
  exact kept_of_isNew hmem (hnew job hmem) (hfew job hmem)

/-- A directory whose second file cannot be opened. -/
def lockedFs : FileSystem :=
  { twoFilesFs with openRead := fun path => if path = "/src/b" then some "Permission denied" else none }

/-- The first file is sent, and the error of the second, which is the last, ends the job. -/
def lastFileLocked : List (FileSystem × ReadDrivers.Event) :=
  [(lockedFs, .tick), (lockedFs, .confirm ⟨1, 0, some (.offsetBlk 0)⟩), (lockedFs, .tick),
    (lockedFs, .tick), (lockedFs, .tick)]

theorem isNew_twoFilesJob : IsNew twoFilesJob :=
  ⟨1, .generic, .filePath "/src", 0, twoFilesJob.files, true, false, false, 0, by decide, by decide,
    rfl⟩

theorem ended_lastFileLocked :
    (History.run Watched.step (Watched.start [twoFilesJob]) lastFileLocked).driver.sent =
        [.digest { id := 1, fileNum := 0, lastModified := 100, fileSize := 3 },
          .block ⟨1, 0, [1, 2, 3], false⟩, .block ⟨1, 0, [], false⟩,
          .error 1 "Permission denied" 2, .done 1 2] ∧
      History.Guarded Watched.step (Ends [twoFilesJob]) (Watched.start [twoFilesJob])
        lastFileLocked := by
  refine ⟨by decide, ended_when_dealt [twoFilesJob] lastFileLocked ?_ ?_ (by decide)⟩
  · intro job hmem
    rw [List.mem_singleton.mp hmem]
    exact isNew_twoFilesJob
  · intro job hmem
    rw [List.mem_singleton.mp hmem]
    decide

/-- The first of two files cannot be opened: the job is reported as done at once, though the
second file has not been looked at. -/
theorem done_with_a_file_left :
    ¬ ∀ jobs is, (∀ job ∈ jobs, IsNew job) →
      History.Guarded Watched.step (Ends jobs) (Watched.start jobs) is := by
  intro h
  have htick := (h [twoFilesJob]
    [({ twoFilesFs with openRead := fun _ => some "Permission denied" }, .tick)]
    (fun job hmem => List.mem_singleton.mp hmem ▸ isNew_twoFilesJob)).1 _ rfl
  rcases htick with ⟨hnone, -⟩ | ⟨before, job, after, n, hjobs, -, -, hdone, hlen, -⟩
  · exact hnone 1 1 (by decide)
  · have hjob : job = twoFilesJob := by
      have hmem : job ∈ [twoFilesJob] := by
        rw [hjobs]
        simp
      exact List.mem_singleton.mp hmem
    have hn : (1 : Int) = n := (hdone 1 1 (by decide)).2
    rw [hjob, ← hn] at hlen
    exact absurd hlen (by decide)

end RustDesk.ReadCompletion
