import RustDesk.RemoteFiles

/-!
# Local deletions stay in the list the user saw

A local remove job goes through the files that were listed when it was created. The table
of remove jobs is shared with the jobs of the remote side, and a directory response of the
peer replaces the list of whatever job has its id.
-/

namespace RustDesk

open Remote

/-- A path of a file that was listed when the local job was created. -/
def ListedPath (log : List RemoteEffect) (job : RemoveJob) (path : String) : Prop :=
  job.isRemote = false ∧ .listFiles job.path job.listed ∈ log ∧
    ∃ file ∈ job.listed, path = job.path ++ job.sep ++ file.name

/-- Every file removed for a local remove job was listed when the job was created. -/
def DeletesListed (s : Remote) : Prop :=
  ∀ path job, .removeFile path (some job) ∈ s.log → ListedPath s.log job path

/-- No directory response of the peer reaches a local remove job. -/
def NoForeignList (s : Remote) (i : RemoteEnv × Remote.Event) : Prop :=
  ∀ id path entries job, i.2 = .peer (.dir id path entries) → s.removeJobs id = some job →
    job.isRemote = false → s.writeJobs.any (·.1 = id) = true

namespace LocalDeletion

variable {env : RemoteEnv} {s : Remote} {id fileNum : Int} {err : Option String}

theorem ListedPath.grow {log log' : List RemoteEffect} {job : RemoveJob} {path : String}
    (h : ListedPath log job path) (hsub : log ⊆ log') : ListedPath log' job path :=
  ⟨h.1, hsub h.2.1, h.2.2⟩

/-- The local jobs have the list they were created with, and what is queued for them was
taken from it. -/
structure Inv (s : Remote) : Prop where
  jobs : ∀ id job, s.removeJobs id = some job → job.isRemote = false →
    job.files = job.listed ∧ .listFiles job.path job.listed ∈ s.log
  queue : ∀ q ∈ s.queue, ∀ job, q.job = some job → ∀ id path fileNum isRemote,
    q.data = .removeFile id path fileNum isRemote → ListedPath s.log job path
  log : DeletesListed s

theorem Inv.emit {e : RemoteEffect} (h : Inv s) (he : ∀ path job, e ≠ .removeFile path (some job)) :
    Inv (s.emit e) := by
  have hsub : s.log ⊆ (s.emit e).log := List.subset_cons_self e s.log
  constructor
  · intro id job hj hl
    exact ⟨(h.jobs id job hj hl).1, hsub (h.jobs id job hj hl).2⟩
  · intro q hq job hj id path fileNum isRemote hd
    exact ListedPath.grow (h.queue q hq job hj id path fileNum isRemote hd) hsub
  · intro path job hm
    rcases List.mem_cons.mp hm with hm | hm
    · exact absurd hm.symm (he path job)
    · exact ListedPath.grow (h.log path job hm) hsub

theorem Inv.enqueue {q : Queued} (h : Inv s)
    (hq : ∀ job, q.job = some job → ∀ id path fileNum isRemote,
      q.data = .removeFile id path fileNum isRemote → ListedPath s.log job path) :
    Inv (s.enqueue q) := by
  refine ⟨h.jobs, fun x hx => ?_, h.log⟩
  rcases List.mem_append.mp hx with hx | hx
  · exact h.queue x hx
  · cases List.mem_singleton.mp hx
    exact hq

theorem Inv.setRemoveJob {job : Option RemoveJob} (h : Inv s)
    (hj : ∀ j, job = some j → j.isRemote = false →
      j.files = j.listed ∧ .listFiles j.path j.listed ∈ s.log) : Inv (s.setRemoveJob id job) := by
  refine ⟨fun i j hi hl => ?_, h.queue, h.log⟩
  by_cases hid : i = id
  · subst hid
    exact hj j (by simpa [Remote.setRemoveJob] using hi) hl
  · exact h.jobs i j (by simpa [Remote.setRemoveJob, hid] using hi) hl

theorem Inv.withJobs (h : Inv s) (write read : List (Int × JobType)) :
    Inv { s with writeJobs := write, readJobs := read } :=
  ⟨h.jobs, h.queue, h.log⟩

theorem Inv.notify (h : Inv s) : Inv (s.notify id fileNum err) := by
  unfold Remote.notify
  split
  · exact h.emit (by simp)
  · exact h.emit (by simp)

theorem Inv.removeNext {job : RemoveJob} (h : Inv s) (hj : s.removeJobs id = some job) :
    Inv (s.removeNext env id fileNum err job) := by
  unfold Remote.removeNext
  extract_lets next
  split
  · rename_i file hfile
    extract_lets q
    have hq : Inv q := by
      refine h.enqueue fun j hj' id' path fileNum' isRemote hd => ?_
      by_cases hr : job.isRemote = true
      · simp [hr] at hj'
      · rw [Bool.not_eq_true] at hr
        obtain ⟨hfiles, hlist⟩ := h.jobs id job hj hr
        simp only [hr, Bool.false_eq_true, if_false, Option.some.injEq] at hj'
        subst hj'
        cases hd
        refine ⟨hr, hlist, file, ?_, rfl⟩
        rw [← hfiles]
        exact List.mem_of_getElem? hfile
    split
    · exact hq.notify
    · exact hq
  · exact (h.setRemoveJob fun j hj' => by cases hj').notify

theorem Inv.handleJobStatus (h : Inv s) : Inv (s.handleJobStatus env id fileNum err) := by
  unfold Remote.handleJobStatus
  split
  · rename_i job hj
    split
    · exact h.removeNext hj
    · exact h.notify
  · exact h.notify

theorem Inv.cancelTransferJob (h : Inv s) : Inv (s.cancelTransferJob id) := by
  have h₁ : Inv (s.send (.cancel id)) := h.emit (by simp)
  exact (h₁.withJobs _ _).setRemoveJob fun j hj => by cases hj

theorem Inv.newRead (h : Inv s) (path : String) (files : List FileEntry) :
    Inv (s.emit (.updateFolderFiles id files path true true)) :=
  h.emit (by simp)

theorem Inv.sendFiles {type : JobType} {path target : String} {includeHidden isRemote : Bool}
    (h : Inv s) : Inv (s.sendFiles env id type path target fileNum includeHidden isRemote) := by
  unfold Remote.sendFiles
  split
  · exact (h.withJobs _ _).emit (by simp)
  · split
    · exact h.handleJobStatus
    · exact ((h.newRead path _).withJobs _ _).emit (by simp)

theorem Inv.addJob {type : JobType} {path : String} {includeHidden isRemote : Bool} (h : Inv s) :
    Inv (s.addJob env id type path includeHidden isRemote) := by
  unfold Remote.addJob
  split
  · exact h.withJobs _ _
  · split
    · exact h.handleJobStatus
    · exact (h.newRead path _).withJobs _ _

theorem Inv.removeDirAll {path : String} {isRemote includeHidden : Bool} (h : Inv s) :
    Inv (s.removeDirAll env id path isRemote includeHidden) := by
  unfold Remote.removeDirAll
  extract_lets sep
  split
  · have h₁ : Inv (s.send (.allFiles id path includeHidden)) := h.emit (by simp)
    refine h₁.setRemoveJob fun j hj hl => ?_
    cases hj
    cases hl
  · split
    · rename_i entries _
      extract_lets s₁
      have h₁ : Inv s₁ := Inv.emit (h.emit (by simp)) (by simp)
      refine h₁.setRemoveJob fun j hj _ => ?_
      cases hj
      exact ⟨rfl, List.mem_cons_of_mem _ List.mem_cons_self⟩
    · exact h.handleJobStatus

/-- A deletion for a job keeps the invariant when its path was listed. -/
theorem Inv.removeFile {path : String} {isRemote : Bool} {job : Option RemoveJob} (h : Inv s)
    (hj : ∀ j, job = some j → ListedPath s.log j path) :
    Inv (s.removeFile env id path fileNum isRemote job) := by
  unfold Remote.removeFile
  split
  · exact h.emit (by simp)
  · refine Inv.handleJobStatus ?_
    cases job with
    | none => exact h.emit (by simp)
    | some j =>
      have hsub : s.log ⊆ .removeFile path (some j) :: s.log := List.subset_cons_self _ s.log
      constructor
      · intro i k hk hl
        exact ⟨(h.jobs i k hk hl).1, hsub (h.jobs i k hk hl).2⟩
      · intro q hq k hk i p n r hd
        exact ListedPath.grow (h.queue q hq k hk i p n r hd) hsub
      · intro p k hm
        rcases List.mem_cons.mp hm with hm | hm
        · cases hm
          exact ListedPath.grow (hj j rfl) hsub
        · exact ListedPath.grow (h.log p k hm) hsub

theorem Inv.handleMsgFromUi {q : Queued} (h : Inv s)
    (hq : ∀ job, q.job = some job → ∀ id path fileNum isRemote,
      q.data = .removeFile id path fileNum isRemote → ListedPath s.log job path) :
    Inv (s.handleMsgFromUi env q) := by
  unfold Remote.handleMsgFromUi
  split
  · exact h.sendFiles
  · exact h.addJob
  · split
    · rename_i job hjob
      refine h.setRemoveJob fun j hj hl => ?_
      cases hj
      exact h.jobs _ job hjob hl
    · exact h
  · split
    · exact h.emit (by simp)
    · exact h
  · exact h.removeDirAll
  · exact h.cancelTransferJob
  · exact h.emit (by simp)
  · rename_i id path fileNum isRemote hd
    exact h.removeFile fun j hj => hq j hj id path fileNum isRemote hd
  · split
    · exact h.emit (by simp)
    · exact Inv.handleJobStatus (h.emit (by simp))
  · split
    · exact h.emit (by simp)
    · exact Inv.handleJobStatus (h.emit (by simp))
  · exact h

theorem Inv.onDir {path : String} {entries : List FileEntry} (h : Inv s)
    (hok : ∀ job, s.removeJobs id = some job → job.isRemote = false →
      s.writeJobs.any (·.1 = id) = true) : Inv (s.onDir env id path entries) := by
  unfold Remote.onDir
  extract_lets entries'
  split
  · split
    · exact h.emit (by simp)
    · exact h.cancelTransferJob.handleJobStatus
  · rename_i hwrite
    split
    · rename_i job hjob
      refine Inv.emit (h.setRemoveJob fun j hj hl => ?_) (by simp)
      cases hj
      exact absurd (hok job hjob hl) hwrite
    · exact h.emit (by simp)

theorem Inv.onDone (h : Inv s) : Inv (s.onDone env id fileNum) := by
  unfold Remote.onDone
  split
  · exact h.withJobs _ _
  · exact (h.withJobs _ _).handleJobStatus
  · exact h.handleJobStatus

theorem Inv.onError {error : String} (h : Inv s) : Inv (s.onError env id error fileNum) := by
  unfold Remote.onError
  extract_lets write job s₁
  have h₁ : Inv s₁ := by
    unfold s₁
    split
    · exact h.withJobs _ _
    · exact h.withJobs _ _
  split
  · exact h₁
  · exact h₁.handleJobStatus

theorem inv_step (s : Remote) (i : RemoteEnv × Remote.Event) (h : Inv s) (hok : NoForeignList s i) :
    Inv (step s i) := by
  obtain ⟨env, ev⟩ := i
  cases ev with
  | ui d => exact h.enqueue fun job hj => by cases hj
  | deliver =>
    dsimp only [step]
    split
    · exact h
    · rename_i q queue hqueue
      have hmem : ∀ x ∈ queue, x ∈ s.queue := by
        intro x hx
        rw [hqueue]
        exact List.mem_cons_of_mem q hx
      have h₁ : Inv { s with queue } := ⟨h.jobs, fun x hx => h.queue x (hmem x hx), h.log⟩
      refine h₁.handleMsgFromUi (h.queue q ?_)
      rw [hqueue]
      exact List.mem_cons_self
  | peer fr =>
    cases fr with
    | dir id path entries => exact h.onDir fun job => hok id path entries job rfl
    | done id fileNum => exact h.onDone
    | error id error fileNum => exact h.onError
    | _ => exact h
  | readJobs left => exact h.withJobs _ _

end LocalDeletion

/-- In every run in which no directory response of the peer reaches a local remove job, the
files removed for such a job are among those listed when it was created. -/
theorem deletesListed_throughout (is : List (RemoteEnv × Remote.Event))
    (hg : History.Guarded Remote.step NoForeignList {} is) :
    History.Throughout Remote.step DeletesListed {} is := by
  refine History.throughout_imp (fun _ h => LocalDeletion.Inv.log h)
    (History.throughout_of_guarded LocalDeletion.inv_step ⟨?_, ?_, ?_⟩ hg)
  · intro id job hj
    cases hj
  · intro q hq
    cases hq
  · intro path job hm
    cases hm

/-- A directory with the one file `a`. -/
def oneFileEnv : RemoteEnv := { getRecursiveFiles := fun _ _ => .ok [{ name := "a" }] }

/-- The user removes a local directory without being asked for each file. -/
def removeLocalDir : List (RemoteEnv × Remote.Event) :=
  [(oneFileEnv, .ui (.removeDirAll 1 "/home" false true)), (oneFileEnv, .deliver),
    (oneFileEnv, .ui (.setNoConfirm 1)), (oneFileEnv, .deliver)]

def removeListed : List (RemoteEnv × Remote.Event) :=
  removeLocalDir ++ [(oneFileEnv, .peer (.done 1 (-1))), (oneFileEnv, .deliver)]

theorem deletesListed_removeListed :
    (∃ job, .removeFile "/home/a" (some job) ∈ (History.run Remote.step {} removeListed).log) ∧
      History.Throughout Remote.step DeletesListed {} removeListed := by
  refine ⟨⟨{ (RemoveJob.new [{ name := "a" }] "/home" "/" false) with noConfirm := true }, by decide⟩,
    deletesListed_throughout removeListed ⟨?_, ?_, ?_, ?_, ?_, ?_, trivial⟩⟩
  all_goals
    intro id path entries job h
    cases h

/-- The peer has a file of its choice deleted, by a list for the id of the local job. -/
theorem foreign_list_deletes :
    ¬ ∀ is : List (RemoteEnv × Remote.Event), History.Throughout Remote.step DeletesListed {} is := by
  intro h
  have hlast := History.throughout_last (h (removeLocalDir ++
    [(oneFileEnv, .peer (.dir 1 "" [{ name := "../etc/passwd" }])),
      (oneFileEnv, .peer (.done 1 (-1))), (oneFileEnv, .deliver)]))
  obtain ⟨-, -, file, hfile, hpath⟩ := hlast "/home/../etc/passwd"
    { (RemoveJob.new [{ name := "a" }] "/home" "/" false) with
      files := [{ name := "../etc/passwd" }], noConfirm := true } (by decide)
  cases List.mem_singleton.mp hfile
  revert hpath
  decide

end RustDesk
