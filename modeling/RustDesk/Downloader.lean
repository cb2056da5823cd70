import RustDesk.History
import RustDesk.Message
import RustDesk.PartialCopy
import Mathlib.Logic.Function.Basic

/-!
# Downloads of one URL

A download is an entry in a table under its URL, and a thread that looks it up there for
every chunk, at the end, and when it fails or is cancelled. The thread learns from a channel
that it is cancelled; the other end of the channel is in the entry, so that it also closes
when the entry is removed or replaced.

The calls of `download_file` are numbered. Call and thread are cut at the lock of the table
and at the file system; `txCancel` is the number of the call whose thread reads the channel.
The deletion after `auto_del_dur` is a task of the runtime in which `do_download` runs, and
is dropped with it.
-/

namespace RustDesk.Downloads

open History

/-- Who created a file: someone else, or the thread of a call. -/
inductive FileId
  | foreign (k : Nat)
  | call (n : Nat)
  deriving DecidableEq, Repr

structure Downloader where
  data : Bytes := []
  path : Option String
  totalSize : Option Nat := none
  downloadedSize : Nat := 0
  error : Option String := none
  finished : Bool := false
  txCancel : Nat
  deriving DecidableEq, Repr

structure DownloadData where
  data : Bytes
  path : Option String
  totalSize : Option Nat
  downloadedSize : Nat
  error : Option String
  deriving DecidableEq, Repr

/-- An open file and the position in it. -/
structure Handle where
  file : FileId
  pos : Nat
  deriving DecidableEq, Repr

/-- Where a call, and then its thread, stands. -/
inductive Stage
  | idle
  | cleaning (stale : Option String)
  | checking
  | inserting
  | returned (result : Except String Unit)
  | spawning (stale : Option String)
  | head
  | get
  | creating (path : String)
  | body (dest : Option Handle)
  | counting (chunk : Bytes) (dest : Handle)
  | closing (dest : Option Handle) (isAllDownloaded : Bool)
  | removing
  | failing (error : String)
  | ended

/-- The entry is in the table, and the thread has not ended yet. -/
def Stage.active : Stage → Bool
  | .spawning _ | .head | .get | .creating _ | .body _ | .counting _ _ | .closing _ _
  | .removing | .failing _ => true
  | _ => false

/-- A call; `received` is the body that its thread has counted. -/
structure Job where
  stage : Stage := .idle
  path : Option String := none
  received : Bytes := []

structure State where
  entry : Option Downloader := none
  jobs : Nat → Job := fun _ => {}
  cancelled : Nat → Bool := fun _ => false
  disk : String → Option FileId := fun _ => none
  content : FileId → Bytes := fun _ => []

inductive HeadResponse
  | success (contentLength : Option Nat)
  | failure (status : String)
  | error (e : String)
  deriving DecidableEq, Repr

def HeadResponse.totalSize : HeadResponse → Except String Nat
  | .success (some size) => .ok size
  | .success none => .error "Failed to get content length"
  | .failure status => .error ("Failed to get content length: " ++ status)
  | .error e => .error e

/-- The steps of call and thread `n`, `cancel` and `remove`. A removal of a file can fail, and
so can the creation of its directory. `error` ends the thread where it waits for the server
or for a file, with what was still written of a chunk. -/
inductive Event
  | begin (n : Nat) (path : Option String)
  | cleanStale (n : Nat) (removed : Bool)
  | checkPath (n : Nat) (dirs : Except String Unit)
  | insert (n : Nat)
  | spawn (n : Nat) (removed : Bool)
  | cancel
  | remove
  | notice (n : Nat)
  | head (n : Nat) (response : HeadResponse)
  | get (n : Nat)
  | create (n : Nat)
  | chunk (n : Nat) (chunk : Bytes)
  | count (n : Nat)
  | endOfBody (n : Nat)
  | finish (n : Nat)
  | error (n : Nat) (e : String) (written : Bytes)
  | cleanUp (n : Nat) (removed : Bool)
  | fail (n : Nat)

/-- The thread that takes the step. -/
def Event.thread : Event → Option Nat
  | .notice n | .head n _ | .get n | .create n | .chunk n _ | .count n | .endOfBody n | .finish n
  | .error n _ _ | .cleanUp n _ | .fail n => some n
  | _ => none

namespace State

def stage (s : State) (n : Nat) : Stage := (s.jobs n).stage

def active (s : State) (n : Nat) : Prop := (s.stage n).active = true

def setStage (n : Nat) (stage : Stage) (s : State) : State :=
  { s with jobs := Function.update s.jobs n { s.jobs n with stage } }

/-- `get_mut` -/
def modify (f : Downloader → Downloader) (s : State) : State := { s with entry := s.entry.map f }

/-- The channel closes with the entry. -/
def removeEntry (s : State) : State :=
  match s.entry with
  | some d => { s with entry := none, cancelled := Function.update s.cancelled d.txCancel true }
  | none => s

def insertEntry (n : Nat) (s : State) : State :=
  { s with entry := some { path := (s.jobs n).path, txCancel := n } }

def removeFile (path : Option String) (removed : Bool) (s : State) : State :=
  match path with
  | some p => if removed then { s with disk := Function.update s.disk p none } else s
  | none => s

/-- `File::create`, which empties a file that there is. -/
def createFile (n : Nat) (p : String) (s : State) : State :=
  let file := (s.disk p).getD (.call n)
  { s with
    disk := Function.update s.disk p (some file)
    content := Function.update s.content file [] }

def writeFile (dest : Handle) (data : Bytes) (s : State) : State :=
  { s with
    content := Function.update s.content dest.file
      (PartialCopy.overwrite 0 (s.content dest.file) dest.pos data) }

def receive (n : Nat) (chunk : Bytes) (s : State) : State :=
  { s with
    jobs := Function.update s.jobs n { s.jobs n with received := (s.jobs n).received ++ chunk } }

def step (s : State) : Event → State
  | .begin n path =>
    match s.stage n with
    | .idle =>
      let s := { s with jobs := Function.update s.jobs n { s.jobs n with path } }
      match s.entry with
      | none => s.setStage n (.cleaning none)
      | some d =>
        match d.error with
        | none => s.setStage n (.returned (.ok ()))
        | some _ => s.removeEntry.setStage n (.cleaning d.path)
    | _ => s
  | .cleanStale n removed =>
    match s.stage n with
    | .cleaning stale => (s.removeFile stale removed).setStage n .checking
    | _ => s
  | .checkPath n dirs =>
    match s.stage n with
    | .checking =>
      match (s.jobs n).path with
      | none => s.setStage n .inserting
      | some p =>
        if (s.disk p).isSome then
          s.setStage n (.returned (.error ("File " ++ p ++ " already exists")))
        else
          match dirs with
          | .ok () => s.setStage n .inserting
          | .error e => s.setStage n (.returned (.error e))
    | _ => s
  | .insert n =>
    match s.stage n with
    | .inserting =>
      match s.entry with
      | none => (s.insertEntry n).setStage n (.spawning none)
      | some d =>
        match d.error with
        | none => s.setStage n (.returned (.ok ()))
        | some _ => (s.removeEntry.insertEntry n).setStage n (.spawning d.path)
    | _ => s
  | .spawn n removed =>
    match s.stage n with
    | .spawning stale => (s.removeFile stale removed).setStage n .head
    | _ => s
  | .cancel =>
    match s.entry with
    | some d => { s with cancelled := Function.update s.cancelled d.txCancel true }
    | none => s
  | .remove => s.removeEntry
  | .notice n =>
    if s.cancelled n then
      match s.stage n with
      | .head => s.setStage n .removing
      | .get => s.setStage n .removing
      | .body dest => s.setStage n (.closing dest false)
      | _ => s
    else s
  | .head n response =>
    match s.stage n with
    | .head =>
      match response.totalSize with
      | .ok size => (s.modify fun d => { d with totalSize := some size }).setStage n .get
      | .error e => s.setStage n (.failing e)
    | _ => s
  | .get n =>
    match s.stage n with
    | .get =>
      match (s.jobs n).path with
      | some p => s.setStage n (.creating p)
      | none => s.setStage n (.body none)
    | _ => s
  | .create n =>
    match s.stage n with
    | .creating p =>
      (s.createFile n p).setStage n (.body (some ⟨(s.disk p).getD (.call n), 0⟩))
    | _ => s
  | .chunk n chunk =>
    match s.stage n with
    | .body none =>
      (s.modify fun d => { d with
        data := d.data ++ chunk
        downloadedSize := d.downloadedSize + chunk.length }).receive n chunk
    | .body (some dest) =>
      (s.writeFile dest chunk).setStage n
        (.counting chunk { dest with pos := dest.pos + chunk.length })
    | _ => s
  | .count n =>
    match s.stage n with
    | .counting chunk dest =>
      ((s.modify fun d => { d with
        downloadedSize := d.downloadedSize + chunk.length }).receive n chunk).setStage n
          (.body (some dest))
    | _ => s
  | .endOfBody n =>
    match s.stage n with
    | .body dest => s.setStage n (.closing dest true)
    | _ => s
  | .finish n =>
    match s.stage n with
    | .closing _ isAllDownloaded =>
      (s.modify fun d => { d with finished := true }).setStage n
        (if isAllDownloaded then .ended else .removing)
    | _ => s
  | .error n e written =>
    match s.stage n with
    | .head => s.setStage n (.failing e)
    | .get => s.setStage n (.failing e)
    | .creating _ => s.setStage n (.failing e)
    | .body none => s.setStage n (.failing e)
    | .body (some dest) => (s.writeFile dest written).setStage n (.failing e)
    | .closing (some _) _ => s.setStage n (.failing e)
    | _ => s
  | .cleanUp n removed =>
    match s.stage n with
    | .removing =>
      match s.entry with
      | some d => (s.removeEntry.removeFile d.path removed).setStage n .ended
      | none => s.setStage n .ended
    | _ => s
  | .fail n =>
    match s.stage n with
    | .failing e => (s.modify fun d => { d with error := some e }).setStage n .ended
    | _ => s

def getDownloadData (s : State) : Except String DownloadData :=
  match s.entry with
  | some d =>
    .ok {
      data := if d.totalSize.getD 0 = d.downloadedSize ∧ d.path = none then d.data else []
      path := d.path
      totalSize := d.totalSize
      downloadedSize := d.downloadedSize
      error := d.error }
  | none => .error "Downloader not found"

end State

/-! ### What is promised -/

/-- The thread `n` touches only the entry that its call inserted, and the file that it
created itself. -/
structure OwnOnly (n : Nat) (s s' : State) : Prop where
  entry : ∀ d, s.entry = some d → d.txCancel ≠ n → s'.entry = some d
  noEntry : s.entry = none → s'.entry = none
  disk : ∀ p f, s.disk p = some f → s'.disk p ≠ some f → f = .call n
  content : ∀ f, f ≠ .call n → s'.content f = s.content f

/-- An entry holds the body that the thread of its call received, and no other. -/
structure Exact (s : State) (d : Downloader) : Prop where
  memory : d.path = none → d.data = (s.jobs d.txCancel).received
  size : d.downloadedSize = (s.jobs d.txCancel).received.length
  file : ∀ p, d.path = some p → d.finished = true →
    s.disk p = some (.call d.txCancel) ∧
      s.content (.call d.txCancel) = (s.jobs d.txCancel).received

/-- An entry is inserted while no thread of an earlier one can still get at the table, and
while its path is free; no stale file is deleted at the path of the entry in the table. -/
def Alone (s : State) : Event → Prop
  | .insert n => s.stage n = .inserting → (∀ d, s.entry = some d → d.error ≠ none) →
    (∀ k, ¬s.active k) ∧ ∀ p, (s.jobs n).path = some p → s.disk p = none
  | .cleanStale n _ => ∀ stale d, s.stage n = .cleaning (some stale) → s.entry = some d →
    d.path ≠ some stale
  | _ => True

/-! ### The invariant -/

/-- The thread has its file open. -/
def Stage.opened : Stage → Bool
  | .body _ | .counting _ _ | .closing _ _ => true
  | _ => false

/-- Nothing of the body has been read. -/
def Stage.early : Stage → Bool
  | .idle | .cleaning _ | .checking | .inserting | .returned _ | .spawning _ | .head | .get
  | .creating _ => true
  | _ => false

/-- No one else has a file at the path of the call. -/
def Mine (s : State) (n : Nat) (p : String) : Prop := s.disk p = none ∨ s.disk p = some (.call n)

/-- The thread has written `bytes` and stands behind them. -/
def Open (s : State) (n : Nat) (p : String) (dest : Option Handle) (bytes : Bytes) : Prop :=
  dest = some ⟨.call n, bytes.length⟩ ∧ s.content (.call n) = bytes ∧ Mine s n p

/-- What there is on the disk of the file of a call. -/
def Placed (s : State) (n : Nat) (job : Job) : Prop :=
  match job.path, job.stage with
  | none, .creating _ => False
  | none, .counting _ _ => False
  | none, .body dest => dest = none
  | none, .closing dest _ => dest = none
  | none, _ => True
  | some p, .body dest => Open s n p dest job.received
  | some p, .counting chunk dest => Open s n p (some dest) (job.received ++ chunk)
  | some p, .closing dest _ => Open s n p dest job.received
  | some p, .removing => Mine s n p
  | some p, .failing _ => Mine s n p
  | some p, .creating q => q = p ∧ s.disk p = none
  | some p, _ => s.disk p = none

/-- The entry is that of a call whose thread is on its way or has ended. -/
structure Owned (s : State) (d : Downloader) : Prop where
  begun : s.active d.txCancel ∨ s.stage d.txCancel = .ended
  path : d.path = (s.jobs d.txCancel).path
  error : d.error ≠ none → s.stage d.txCancel = .ended
  finished : d.finished = true →
    s.stage d.txCancel = .removing ∨ s.stage d.txCancel = .ended
  opened : ∀ p, d.path = some p → (s.stage d.txCancel).opened = true →
    s.disk p = some (.call d.txCancel)
  exact : Exact s d

structure Inv (s : State) : Prop where
  single : ∀ n k, s.active n → s.active k → n = k
  owned : ∀ d, s.entry = some d → Owned s d
  alone : ∀ d n, s.entry = some d → s.active n → d.txCancel = n
  placed : ∀ n, s.active n → Placed s n (s.jobs n)
  early : ∀ n, (s.stage n).early = true → (s.jobs n).received = []

variable {s s' : State} {d : Downloader} {n k : Nat} {p : String} {st : Stage} {job : Job}

theorem Mine.mono (h : Mine s n p) (hdisk : ∀ q, s'.disk q = s.disk q ∨ s'.disk q = none) :
    Mine s' n p := by
  rcases hdisk p with hp | hp
  · rw [Mine, hp]
    exact h
  · exact .inl hp

theorem Open.mono {dest : Option Handle} {bytes : Bytes} (h : Open s n p dest bytes)
    (hcontent : s'.content = s.content)
    (hdisk : ∀ q, s'.disk q = s.disk q ∨ s'.disk q = none) : Open s' n p dest bytes :=
  ⟨h.1, by rw [hcontent]; exact h.2.1, h.2.2.mono hdisk⟩

/-- Nothing happens to the file of a call when others delete what is there. -/
theorem Placed.mono (h : Placed s n job) (hcontent : s'.content = s.content)
    (hdisk : ∀ q, s'.disk q = s.disk q ∨ s'.disk q = none) : Placed s' n job := by
  obtain ⟨stage, path, received⟩ := job
  have hnone : ∀ p, s.disk p = none → s'.disk p = none := by
    intro p hp
    rcases hdisk p with hq | hq
    · exact hq.trans hp
    · exact hq
  cases path with
  | none => cases stage <;> exact h
  | some p =>
    cases stage with
    | body dest => exact Open.mono h hcontent hdisk
    | counting chunk dest => exact Open.mono h hcontent hdisk
    | closing dest all => exact Open.mono h hcontent hdisk
    | removing => exact Mine.mono h hdisk
    | failing e => exact Mine.mono h hdisk
    | creating q => exact ⟨h.1, hnone p h.2⟩
    | idle => exact hnone p h
    | cleaning stale => exact hnone p h
    | checking => exact hnone p h
    | inserting => exact hnone p h
    | returned r => exact hnone p h
    | spawning stale => exact hnone p h
    | head => exact hnone p h
    | get => exact hnone p h
    | ended => exact hnone p h

/-- Steps that no thread takes keep the entry or remove it, and delete files beside it. -/
theorem Inv.frame (h : Inv s)
    (hjobs : ∀ k, s.active k ∨ s.stage k = .ended → s'.jobs k = s.jobs k)
    (hactive : ∀ k, s'.active k → s.active k)
    (hearly : ∀ k, (s'.stage k).early = true →
      (s.stage k).early = true ∧ (s'.jobs k).received = (s.jobs k).received)
    (hentry : ∀ d, s'.entry = some d → s.entry = some d) (hcontent : s'.content = s.content)
    (hdisk : ∀ p, s'.disk p = s.disk p ∨
      s'.disk p = none ∧ ∀ d, s'.entry = some d → d.path ≠ some p) : Inv s' where
  single n k hn hk := h.single n k (hactive n hn) (hactive k hk)
  owned d hd := by
    have ho := h.owned d (hentry d hd)
    have hjob := hjobs d.txCancel ho.begun
    have hstage : s'.stage d.txCancel = s.stage d.txCancel := congrArg Job.stage hjob
    have hkept : ∀ p, d.path = some p → s'.disk p = s.disk p := fun p hp =>
      (hdisk p).resolve_right fun hgone => hgone.2 d hd hp
    refine ⟨?_, ?_, ?_, ?_, ?_, ?_, ?_, ?_⟩
    · rw [State.active, hstage]
      exact ho.begun
    · rw [hjob]
      exact ho.path
    · rw [hstage]
      exact ho.error
    · rw [hstage]
      exact ho.finished
    · intro p hp hopen
      rw [hkept p hp]
      exact ho.opened p hp (hstage ▸ hopen)
    · rw [hjob]
      exact ho.exact.memory
    · rw [hjob]
      exact ho.exact.size
    · intro p hp hfinished
      rw [hkept p hp, hcontent, hjob]
      exact ho.exact.file p hp hfinished
  alone d n hd hn := h.alone d n (hentry d hd) (hactive n hn)
  placed n hn := by
    rw [hjobs n (.inl (hactive n hn))]
    exact (h.placed n (hactive n hn)).mono hcontent fun p => (hdisk p).imp_right And.left
  early k hk := (hearly k hk).2.trans (h.early k (hearly k hk).1)

/-- The thread that is on its way is the only one, and the entry is its own. -/
theorem Inv.thread (h : Inv s) (hn : s.active n) (hjobs : ∀ k, k ≠ n → s'.jobs k = s.jobs k)
    (hentry : ∀ d, s'.entry = some d → d.txCancel = n ∧ Owned s' d)
    (hplaced : s'.active n → Placed s' n (s'.jobs n))
    (hearly : (s'.stage n).early = true → (s'.jobs n).received = []) : Inv s' := by
  have hactive : ∀ k, s'.active k → k = n := by
    intro k hk
    by_contra hne
    have hk' : s.active k := by
      rw [State.active, State.stage, ← hjobs k hne]
      exact hk
    exact hne (h.single k n hk' hn)
  exact {
    single := fun k k' hk hk' => (hactive k hk).trans (hactive k' hk').symm
    owned := fun d hd => (hentry d hd).2
    alone := fun d k hd hk => (hentry d hd).1.trans (hactive k hk).symm
    placed := fun k hk => by
      obtain rfl := hactive k hk
      exact hplaced hk
    early := fun k hk => by
      by_cases hkn : k = n
      · subst hkn
        exact hearly hk
      · rw [State.stage, hjobs k hkn] at hk
        rw [hjobs k hkn]
        exact h.early k hk }

theorem Inv.own (h : Inv s) (hn : s.active n) (hnone : s.entry = none → s'.entry = none)
    (hdisk : ∀ p f, s.disk p = some f → s'.disk p ≠ some f → f = .call n)
    (hcontent : ∀ f, f ≠ .call n → s'.content f = s.content f) : OwnOnly n s s' :=
  ⟨fun d hd hne => absurd (h.alone d n hd hn) hne, hnone, hdisk, hcontent⟩

/-! ### A step of a thread -/

theorem OwnOnly.refl (n : Nat) (s : State) : OwnOnly n s s :=
  ⟨fun _ h _ => h, id, fun _ _ h hne => absurd h hne, fun _ _ => rfl⟩

@[simp] theorem stage_setStage (n : Nat) (st : Stage) (s : State) :
    (s.setStage n st).stage n = st := by
  simp [State.stage, State.setStage]

@[simp] theorem jobs_setStage (n : Nat) (st : Stage) (s : State) :
    (s.setStage n st).jobs n = { s.jobs n with stage := st } := by
  simp [State.setStage]

theorem jobs_setStage_of_ne (s : State) (st : Stage) (h : k ≠ n) :
    (s.setStage n st).jobs k = s.jobs k := Function.update_of_ne h _ _

@[simp] theorem jobs_receive (n : Nat) (chunk : Bytes) (s : State) :
    (s.receive n chunk).jobs n =
      { s.jobs n with received := (s.jobs n).received ++ chunk } := by
  simp [State.receive]

theorem jobs_receive_of_ne (s : State) (chunk : Bytes) (h : k ≠ n) :
    (s.receive n chunk).jobs k = s.jobs k := Function.update_of_ne h _ _

theorem active_of (hst : s.stage n = st) (hact : st.active = true) : s.active n := by
  rw [State.active, hst, hact]

/-- The entry of a thread on its way. -/
theorem Owned.under_way (ho : Owned s d) (hn : s.active d.txCancel)
    (hremoving : s.stage d.txCancel ≠ .removing) : d.finished ≠ true ∧ d.error = none := by
  have hended : s.stage d.txCancel ≠ .ended := by
    intro hend
    rw [State.active, hend] at hn
    cases hn
  constructor
  · intro hfin
    rcases ho.finished hfin with hst | hst
    · exact hremoving hst
    · exact hended hst
  · by_contra herr
    exact hended (ho.error herr)

/-- The entry of a thread that has not its file open. -/
theorem Owned.restage {d' : Downloader} (ho : Owned s d)
    (hjob : s'.jobs d.txCancel = { s.jobs d.txCancel with stage := st })
    (hsame : ∃ error finished, d' = { d with error, finished })
    (hbegun : st.active = true ∨ st = .ended) (herror : d'.error ≠ none → st = .ended)
    (hfinished : d'.finished = true → st = .removing ∨ st = .ended) (hopened : st.opened = false)
    (hfile : d'.finished = true → ∀ p, d.path = some p →
      s'.disk p = some (.call d.txCancel) ∧
        s'.content (.call d.txCancel) = (s.jobs d.txCancel).received) : Owned s' d' := by
  obtain ⟨error, finished, rfl⟩ := hsame
  have hstage : s'.stage d.txCancel = st := congrArg Job.stage hjob
  refine ⟨?_, ?_, ?_, ?_, ?_, ?_, ?_, ?_⟩
  · exact hbegun.imp (active_of hstage) hstage.trans
  · rw [hjob]
    exact ho.path
  · exact fun herr => hstage.trans (herror herr)
  · exact fun hfin => (hfinished hfin).imp hstage.trans hstage.trans
  · intro p _ hopen
    rw [hstage, hopened] at hopen
    cases hopen
  · rw [hjob]
    exact ho.exact.memory
  · rw [hjob]
    exact ho.exact.size
  · intro p hp hfin
    rw [hjob]
    exact hfile hfin p hp

/-- What a thread changes on its way, with the entry if it is still there. -/
structure Goes (n : Nat) (f : Downloader → Downloader) (s s' : State) : Prop where
  jobs : ∀ k, k ≠ n → s'.jobs k = s.jobs k
  path : (s'.jobs n).path = (s.jobs n).path
  active : s'.active n
  entry : s'.entry = s.entry.map f
  same : ∀ d, (f d).txCancel = d.txCancel ∧ (f d).path = d.path ∧ (f d).error = d.error ∧
    (f d).finished = d.finished
  memory : ∀ d, (s.jobs n).path = none → d.data = (s.jobs n).received →
    (f d).data = (s'.jobs n).received
  size : ∀ d, d.downloadedSize = (s.jobs n).received.length →
    (f d).downloadedSize = (s'.jobs n).received.length
  opened : ∀ p, (s.jobs n).path = some p → (s'.stage n).opened = true →
    (s.stage n).opened = true ∧ s'.disk p = s.disk p ∨ s'.disk p = some (.call n)
  placed : Placed s' n (s'.jobs n)
  early : (s'.stage n).early = true → (s'.jobs n).received = []
  disk : ∀ p f, s.disk p = some f → s'.disk p = some f
  content : ∀ f, f ≠ .call n → s'.content f = s.content f

theorem Inv.goes {f : Downloader → Downloader} (h : Inv s) (hn : s.active n)
    (hremoving : s.stage n ≠ .removing) (hgoes : Goes n f s s') : Inv s' ∧ OwnOnly n s s' := by
  constructor
  · refine h.thread hn hgoes.jobs (fun d' hd' => ?_) (fun _ => hgoes.placed) hgoes.early
    rw [hgoes.entry] at hd'
    obtain ⟨d, hd, rfl⟩ := Option.map_eq_some_iff.mp hd'
    have htx : d.txCancel = n := h.alone d n hd hn
    have ho := h.owned d hd
    obtain ⟨htx', hpath, herror, hfinished⟩ := hgoes.same d
    obtain ⟨hunfinished, hclear⟩ := ho.under_way (htx ▸ hn) (htx ▸ hremoving)
    rw [← hfinished] at hunfinished
    rw [htx] at htx'
    refine ⟨htx', ?_, ?_, ?_, ?_, ?_, ?_, ?_, ?_⟩
    · rw [htx']
      exact .inl hgoes.active
    · rw [htx', hpath, hgoes.path, ho.path, htx]
    · exact fun herr => absurd (herror.trans hclear) herr
    · exact fun hfin => absurd hfin hunfinished
    · intro p hp hopen
      rw [htx'] at hopen ⊢
      have hpath' : (s.jobs n).path = some p := by
        rw [← htx, ← ho.path, ← hpath]
        exact hp
      rcases hgoes.opened p hpath' hopen with ⟨hopen', hsame⟩ | hmine
      · rw [hsame, ← htx]
        exact ho.opened p (hpath ▸ hp) (htx ▸ hopen')
      · exact hmine
    · intro hp
      rw [htx']
      have hnone : (s.jobs n).path = none := by
        rw [← htx, ← ho.path, ← hpath]
        exact hp
      exact hgoes.memory d hnone (htx ▸ ho.exact.memory (hpath ▸ hp))
    · rw [htx']
      exact hgoes.size d (htx ▸ ho.exact.size)
    · exact fun p hp hfin => absurd hfin hunfinished
  · refine h.own hn (fun hnone => ?_) (fun p f hf hne => absurd (hgoes.disk p f hf) hne)
      hgoes.content
    rw [hgoes.entry, hnone]
    rfl

theorem Inv.placed_of (h : Inv s) (hst : s.stage n = st) (hact : st.active = true) :
    Placed s n ⟨st, (s.jobs n).path, (s.jobs n).received⟩ := by
  have hplaced := h.placed n (active_of hst hact)
  rwa [← hst]

/-- A step of the thread that counts nothing of the body. -/
theorem Inv.moves {old : Stage} {f : Downloader → Downloader} (h : Inv s)
    (hst : s.stage n = old) (hold : old.active = true) (hremoving : old ≠ .removing)
    (hact : st.active = true) (hjobs : s'.jobs = s.jobs) (hentry : s'.entry = s.entry.map f)
    (hsame : ∀ d, ∃ totalSize, f d = { d with totalSize })
    (hopened : ∀ p, (s.jobs n).path = some p → st.opened = true →
      old.opened = true ∧ s'.disk p = s.disk p ∨ s'.disk p = some (.call n))
    (hearly : st.early = true → old.early = true)
    (hplaced : Placed s' n ⟨st, (s.jobs n).path, (s.jobs n).received⟩)
    (hdisk : ∀ p f, s.disk p = some f → s'.disk p = some f)
    (hcontent : ∀ f, f ≠ .call n → s'.content f = s.content f) :
    Inv (s'.setStage n st) ∧ OwnOnly n s (s'.setStage n st) := by
  refine h.goes (f := f) (active_of hst hold) (hst ▸ hremoving) ?_
  exact {
    jobs := fun k hk => by rw [jobs_setStage_of_ne _ _ hk, hjobs]
    path := by rw [jobs_setStage, hjobs]
    active := active_of (stage_setStage _ _ _) hact
    entry := hentry
    same := fun d => by
      obtain ⟨totalSize, hd⟩ := hsame d
      rw [hd]
      exact ⟨rfl, rfl, rfl, rfl⟩
    memory := fun d _ hdata => by
      obtain ⟨totalSize, hd⟩ := hsame d
      rw [jobs_setStage, hjobs, hd]
      exact hdata
    size := fun d hsize => by
      obtain ⟨totalSize, hd⟩ := hsame d
      rw [jobs_setStage, hjobs, hd]
      exact hsize
    opened := fun p hp hopen => hst ▸ hopened p hp (by rwa [stage_setStage] at hopen)
    placed := by
      rw [jobs_setStage, hjobs]
      exact hplaced.mono rfl fun _ => .inl rfl
    early := fun he => by
      rw [stage_setStage] at he
      rw [jobs_setStage, hjobs]
      exact h.early n (hst ▸ hearly he)
    disk := hdisk
    content := hcontent }

/-- A step that changes nothing but where the thread stands. -/
theorem Inv.stands {old : Stage} (h : Inv s) (hst : s.stage n = old) (hold : old.active = true)
    (hremoving : old ≠ .removing) (hact : st.active = true)
    (hopened : ∀ p, (s.jobs n).path = some p → st.opened = true → old.opened = true)
    (hearly : st.early = true → old.early = true)
    (hplaced : ∀ path received, (s.jobs n).path = path → Placed s n ⟨old, path, received⟩ →
      Placed s n ⟨st, path, received⟩) :
    Inv (s.setStage n st) ∧ OwnOnly n s (s.setStage n st) := by
  have hentry : s.entry = s.entry.map fun d => d := Option.map_id'.symm
  exact h.moves hst hold hremoving hact rfl hentry (fun d => ⟨d.totalSize, rfl⟩)
    (fun p hp hopen => .inl ⟨hopened p hp hopen, rfl⟩) hearly
    (hplaced _ _ rfl (h.placed_of hst hold)) (fun _ _ hf => hf) fun _ _ => rfl

theorem inv_notice (h : Inv s) :
    Inv (s.step (.notice n)) ∧ OwnOnly n s (s.step (.notice n)) := by
  simp only [State.step]
  split
  · split
    · rename_i hst
      refine h.stands hst rfl nofun rfl nofun nofun fun path received _ hp => ?_
      cases path with
      | none => trivial
      | some p => exact .inl hp
    · rename_i hst
      refine h.stands hst rfl nofun rfl nofun nofun fun path received _ hp => ?_
      cases path with
      | none => trivial
      | some p => exact .inl hp
    · rename_i dest hst
      refine h.stands hst rfl nofun rfl (fun _ _ _ => rfl) nofun fun path received _ hp => ?_
      cases path with
      | none => exact hp
      | some p => exact hp
    · exact ⟨h, .refl n s⟩
  · exact ⟨h, .refl n s⟩

theorem inv_head {response : HeadResponse} (h : Inv s) :
    Inv (s.step (.head n response)) ∧ OwnOnly n s (s.step (.head n response)) := by
  simp only [State.step]
  split
  · rename_i hst
    split
    · rename_i size hsize
      have hp := h.placed_of hst rfl
      refine h.moves hst rfl nofun rfl rfl rfl (fun d => ⟨some size, rfl⟩) nofun (fun _ => rfl) ?_
        (fun _ _ hf => hf) fun _ _ => rfl
      cases hpath : (s.jobs n).path with
      | none => trivial
      | some p =>
        rw [hpath] at hp
        exact hp
    · refine h.stands hst rfl nofun rfl nofun nofun fun path received _ hp => ?_
      cases path with
      | none => trivial
      | some p => exact .inl hp
  · exact ⟨h, .refl n s⟩

theorem inv_get (h : Inv s) : Inv (s.step (.get n)) ∧ OwnOnly n s (s.step (.get n)) := by
  simp only [State.step]
  split
  · rename_i hst
    split
    · rename_i p hpath
      refine h.stands hst rfl nofun rfl nofun (fun _ => rfl) fun path received hpath' hp => ?_
      obtain rfl : path = some p := hpath'.symm.trans hpath
      exact ⟨rfl, hp⟩
    · rename_i hpath
      refine h.stands hst rfl nofun rfl (fun p hp => ?_) nofun fun path received hpath' hp => ?_
      · rw [hpath] at hp
        cases hp
      · obtain rfl : path = none := hpath'.symm.trans hpath
        rfl
  · exact ⟨h, .refl n s⟩

theorem inv_create (h : Inv s) :
    Inv (s.step (.create n)) ∧ OwnOnly n s (s.step (.create n)) := by
  simp only [State.step]
  split
  · rename_i q hst
    have hp := h.placed_of hst rfl
    have hreceived : (s.jobs n).received = [] := h.early n (by rw [hst]; rfl)
    cases hpath : (s.jobs n).path with
    | none =>
      rw [hpath] at hp
      exact hp.elim
    | some p =>
      rw [hpath] at hp
      obtain ⟨rfl, hfree⟩ := hp
      have hfile : (s.disk q).getD (.call n) = .call n := by rw [hfree]; rfl
      have hdisk : (s.createFile n q).disk q = some (.call n) := by
        change Function.update s.disk q _ q = _
        rw [Function.update_self, hfile]
      have hentry : s.entry = s.entry.map fun d => d := Option.map_id'.symm
      refine h.moves hst rfl nofun rfl rfl hentry
        (fun d => ⟨d.totalSize, rfl⟩) (fun p hp _ => ?_) nofun ?_ (fun p f hf => ?_) fun f hf => ?_
      · obtain rfl := Option.some.inj (hpath.symm.trans hp)
        exact .inr hdisk
      · rw [hpath, hreceived, hfile]
        refine ⟨rfl, ?_, .inr hdisk⟩
        change Function.update s.content _ _ _ = _
        rw [hfile, Function.update_self]
      · have hne : p ≠ q := by
          rintro rfl
          rw [hfree] at hf
          cases hf
        change Function.update s.disk q _ p = _
        rw [Function.update_of_ne hne, hf]
      · change Function.update s.content _ _ f = _
        rw [hfile, Function.update_of_ne hf]
  · exact ⟨h, .refl n s⟩

/-- What is written goes behind what the thread has written before. -/
theorem writeFile_open {dest : Handle} {bytes : Bytes} (h : Open s n p (some dest) bytes)
    (data : Bytes) :
    (s.writeFile dest data).content (.call n) = bytes ++ data ∧
      Mine (s.writeFile dest data) n p ∧
      ∀ f, f ≠ .call n → (s.writeFile dest data).content f = s.content f := by
  obtain ⟨hdest, hcontent, hmine⟩ := h
  obtain rfl := Option.some.inj hdest
  refine ⟨?_, hmine, fun f hf => Function.update_of_ne hf _ _⟩
  change Function.update s.content (.call n) _ (.call n) = _
  rw [Function.update_self]
  change PartialCopy.overwrite 0 (s.content (.call n)) bytes.length data = _
  rw [hcontent, PartialCopy.overwrite_length]

theorem inv_chunk {chunk : Bytes} (h : Inv s) :
    Inv (s.step (.chunk n chunk)) ∧ OwnOnly n s (s.step (.chunk n chunk)) := by
  simp only [State.step]
  split
  · rename_i hst
    have hp := h.placed_of hst rfl
    have hpath : (s.jobs n).path = none := by
      cases hpath : (s.jobs n).path with
      | none => rfl
      | some p =>
        rw [hpath] at hp
        cases hp.1
    refine h.goes (f := fun d => { d with
      data := d.data ++ chunk
      downloadedSize := d.downloadedSize + chunk.length }) (active_of hst rfl) (hst ▸ nofun) ?_
    exact {
      jobs := fun k hk => jobs_receive_of_ne _ _ hk
      path := by rw [jobs_receive]; rfl
      active := by rw [State.active, State.stage, jobs_receive]; exact active_of hst rfl
      entry := rfl
      same := fun d => ⟨rfl, rfl, rfl, rfl⟩
      memory := fun d _ hd => by
        rw [jobs_receive]
        exact congrArg (· ++ chunk) hd
      size := fun d hd => by
        rw [jobs_receive, List.length_append]
        exact congrArg (· + chunk.length) hd
      opened := fun p hp => by rw [hpath] at hp; cases hp
      placed := by
        rw [jobs_receive]
        change Placed _ n ⟨s.stage n, (s.jobs n).path, (s.jobs n).received ++ chunk⟩
        rw [hst, hpath]
        rfl
      early := fun he => by
        rw [State.stage, jobs_receive] at he
        change (s.stage n).early = true at he
        rw [hst] at he
        cases he
      disk := fun _ _ hf => hf
      content := fun _ _ => rfl }
  · rename_i dest hst
    have hp := h.placed_of hst rfl
    cases hpath : (s.jobs n).path with
    | none =>
      rw [hpath] at hp
      cases hp
    | some p =>
      rw [hpath] at hp
      obtain ⟨hwritten, hmine, hothers⟩ := writeFile_open hp chunk
      have hentry : s.entry = s.entry.map fun d => d := Option.map_id'.symm
      refine h.moves hst rfl nofun rfl rfl hentry (fun d => ⟨d.totalSize, rfl⟩)
        (fun _ _ _ => .inl ⟨rfl, rfl⟩) nofun ?_ (fun _ _ hf => hf) hothers
      rw [hpath]
      refine ⟨?_, hwritten, hmine⟩
      have hdest : dest = ⟨.call n, (s.jobs n).received.length⟩ := Option.some.inj hp.1
      rw [hdest, List.length_append]
  · exact ⟨h, .refl n s⟩

theorem inv_count (h : Inv s) : Inv (s.step (.count n)) ∧ OwnOnly n s (s.step (.count n)) := by
  simp only [State.step]
  split
  · rename_i chunk dest hst
    have hp := h.placed_of hst rfl
    cases hpath : (s.jobs n).path with
    | none =>
      rw [hpath] at hp
      exact hp.elim
    | some p =>
      rw [hpath] at hp
      refine h.goes (f := fun d => { d with
        downloadedSize := d.downloadedSize + chunk.length }) (active_of hst rfl) (hst ▸ nofun) ?_
      exact {
        jobs := fun k hk => (jobs_setStage_of_ne _ _ hk).trans (jobs_receive_of_ne _ _ hk)
        path := by rw [jobs_setStage, jobs_receive]; rfl
        active := by rw [State.active, stage_setStage]; rfl
        entry := rfl
        same := fun d => ⟨rfl, rfl, rfl, rfl⟩
        memory := fun d hnone _ => by rw [hpath] at hnone; cases hnone
        size := fun d hd => by
          rw [jobs_setStage, jobs_receive, List.length_append]
          exact congrArg (· + chunk.length) hd
        opened := fun p _ _ => .inl ⟨by rw [hst]; rfl, rfl⟩
        placed := by
          rw [jobs_setStage, jobs_receive]
          change Placed _ n ⟨.body _, (s.jobs n).path, (s.jobs n).received ++ chunk⟩
          rw [hpath]
          exact Open.mono hp rfl fun _ => .inl rfl
        early := fun he => by rw [stage_setStage] at he; cases he
        disk := fun _ _ hf => hf
        content := fun _ _ => rfl }
  · exact ⟨h, .refl n s⟩

theorem inv_endOfBody (h : Inv s) :
    Inv (s.step (.endOfBody n)) ∧ OwnOnly n s (s.step (.endOfBody n)) := by
  simp only [State.step]
  split
  · rename_i dest hst
    refine h.stands hst rfl nofun rfl (fun _ _ _ => rfl) nofun fun path received _ hp => ?_
    cases path with
    | none => exact hp
    | some p => exact hp
  · exact ⟨h, .refl n s⟩

/-- The thread ends, or gets ready to remove the entry. -/
theorem Inv.finishes {dest : Option Handle} {all : Bool} (h : Inv s)
    (hst : s.stage n = .closing dest all) (hst' : st = .removing ∨ st = .ended) :
    Inv ((s.modify fun d => { d with finished := true }).setStage n st) := by
  have hn : s.active n := active_of hst rfl
  have hp := h.placed_of hst rfl
  have hopened : st.opened = false := by rcases hst' with rfl | rfl <;> rfl
  have hlate : st.early = false := by rcases hst' with rfl | rfl <;> rfl
  refine h.thread hn (fun k hk => jobs_setStage_of_ne _ _ hk) (fun d' hd' => ?_) (fun hact => ?_) ?_
  · obtain ⟨d, hd, rfl⟩ := Option.map_eq_some_iff.mp hd'
    have htx : d.txCancel = n := h.alone d n hd hn
    have ho := h.owned d hd
    subst htx
    obtain ⟨-, hclear⟩ := ho.under_way hn (hst ▸ nofun)
    refine ⟨rfl, ho.restage (jobs_setStage _ _ _) ⟨d.error, true, rfl⟩
      (hst'.imp (fun hr => by rw [hr]; rfl) id) (fun herr => absurd hclear herr) (fun _ => hst')
      hopened fun _ p hpath => ?_⟩
    rw [← ho.path, hpath] at hp
    exact ⟨ho.opened p hpath (by rw [hst]; rfl), hp.2.1⟩
  · rw [jobs_setStage]
    rcases hst' with rfl | rfl
    · change Placed _ n ⟨.removing, (s.jobs n).path, (s.jobs n).received⟩
      cases hpath : (s.jobs n).path with
      | none => trivial
      | some p =>
        rw [hpath] at hp
        exact hp.2.2
    · rw [State.active, stage_setStage] at hact
      cases hact
  · rw [stage_setStage, hlate]
    nofun

theorem inv_finish (h : Inv s) :
    Inv (s.step (.finish n)) ∧ OwnOnly n s (s.step (.finish n)) := by
  simp only [State.step]
  split
  · rename_i dest all hst
    have hst' : (if all then .ended else .removing : Stage) = .removing ∨
        (if all then .ended else .removing : Stage) = .ended := by
      cases all with
      | true => exact .inr rfl
      | false => exact .inl rfl
    refine ⟨h.finishes hst hst', h.own (active_of hst rfl) (fun hnone => ?_)
      (fun p f hf hne => absurd hf hne) fun f _ => rfl⟩
    change s.entry.map _ = none
    rw [hnone]
    rfl
  · exact ⟨h, .refl n s⟩

theorem inv_error {e : String} {written : Bytes} (h : Inv s) :
    Inv (s.step (.error n e written)) ∧ OwnOnly n s (s.step (.error n e written)) := by
  simp only [State.step]
  split
  · rename_i hst
    refine h.stands hst rfl nofun rfl nofun nofun fun path received _ hp => ?_
    cases path with
    | none => trivial
    | some p => exact .inl hp
  · rename_i hst
    refine h.stands hst rfl nofun rfl nofun nofun fun path received _ hp => ?_
    cases path with
    | none => trivial
    | some p => exact .inl hp
  · rename_i q hst
    refine h.stands hst rfl nofun rfl nofun nofun fun path received _ hp => ?_
    cases path with
    | none => trivial
    | some p => exact .inl hp.2
  · rename_i hst
    refine h.stands hst rfl nofun rfl nofun nofun fun path received _ hp => ?_
    cases path with
    | none => trivial
    | some p => exact hp.2.2
  · rename_i dest hst
    have hp := h.placed_of hst rfl
    cases hpath : (s.jobs n).path with
    | none =>
      rw [hpath] at hp
      cases hp
    | some p =>
      rw [hpath] at hp
      obtain ⟨-, hmine, hothers⟩ := writeFile_open hp written
      have hentry : s.entry = s.entry.map fun d => d := Option.map_id'.symm
      refine h.moves hst rfl nofun rfl rfl hentry (fun d => ⟨d.totalSize, rfl⟩) nofun nofun ?_
        (fun _ _ hf => hf) hothers
      rw [hpath]
      exact hmine
  · rename_i dest all hst
    refine h.stands hst rfl nofun rfl nofun nofun fun path received _ hp => ?_
    cases path with
    | none => trivial
    | some p => exact hp.2.2
  · exact ⟨h, .refl n s⟩

theorem entry_removeEntry (s : State) : s.removeEntry.entry = none := by
  unfold State.removeEntry
  split
  · rfl
  · assumption

theorem jobs_removeEntry (s : State) : s.removeEntry.jobs = s.jobs := by
  unfold State.removeEntry
  split
  · rfl
  · rfl

theorem disk_removeEntry (s : State) :
    s.removeEntry.disk = s.disk ∧ s.removeEntry.content = s.content := by
  unfold State.removeEntry
  split
  · exact ⟨rfl, rfl⟩
  · exact ⟨rfl, rfl⟩

/-- A removal leaves all but the disk as it is. -/
theorem removeFile_same (path : Option String) (removed : Bool) (s : State) :
    (s.removeFile path removed).entry = s.entry ∧ (s.removeFile path removed).jobs = s.jobs ∧
      (s.removeFile path removed).content = s.content := by
  unfold State.removeFile
  split
  · split
    · exact ⟨rfl, rfl, rfl⟩
    · exact ⟨rfl, rfl, rfl⟩
  · exact ⟨rfl, rfl, rfl⟩

theorem disk_removeFile (path : Option String) (removed : Bool) (s : State) (q : String) :
    (s.removeFile path removed).disk q = s.disk q ∨
      path = some q ∧ (s.removeFile path removed).disk q = none := by
  unfold State.removeFile
  split
  · rename_i p
    split
    · by_cases hq : q = p
      · subst hq
        exact .inr ⟨rfl, Function.update_self _ _ _⟩
      · exact .inl (Function.update_of_ne hq _ _)
    · exact .inl rfl
  · exact .inl rfl

/-- A thread that ends without an entry. -/
theorem Inv.gone (h : Inv s) (hn : s.active n) (hjobs : s'.jobs = s.jobs)
    (hentry : s'.entry = none) : Inv (s'.setStage n .ended) := by
  refine h.thread hn (fun k hk => ?_) (fun d hd => ?_) (fun hact => ?_) fun he => ?_
  · rw [jobs_setStage_of_ne _ _ hk, hjobs]
  · change s'.entry = some d at hd
    rw [hentry] at hd
    cases hd
  · rw [State.active, stage_setStage] at hact
    cases hact
  · rw [stage_setStage] at he
    cases he

theorem inv_cleanUp {removed : Bool} (h : Inv s) :
    Inv (s.step (.cleanUp n removed)) ∧ OwnOnly n s (s.step (.cleanUp n removed)) := by
  simp only [State.step]
  split
  · rename_i hst
    have hn : s.active n := active_of hst rfl
    have hp := h.placed_of hst rfl
    split
    · rename_i d hd
      obtain ⟨hentry, hjobs, hcontent⟩ := removeFile_same d.path removed s.removeEntry
      rw [entry_removeEntry] at hentry
      rw [jobs_removeEntry] at hjobs
      rw [(disk_removeEntry s).2] at hcontent
      refine ⟨h.gone hn hjobs hentry, h.own hn (fun _ => hentry) (fun p f hf hne => ?_) ?_⟩
      · rcases disk_removeFile d.path removed s.removeEntry p with hsame | ⟨hpath, -⟩
        · rw [(disk_removeEntry s).1] at hsame
          exact absurd (hsame.trans hf) hne
        · have htx : d.txCancel = n := h.alone d n hd hn
          rw [(h.owned d hd).path, htx] at hpath
          rw [hpath] at hp
          rcases hp with hnone | hmine
          · rw [hnone] at hf
            cases hf
          · exact (Option.some.inj (hmine.symm.trans hf)).symm
      · intro f _
        exact congrFun hcontent f
    · rename_i hnone
      exact ⟨h.gone hn rfl hnone,
        h.own hn (fun _ => hnone) (fun p f hf hne => absurd hf hne) fun f _ => rfl⟩
  · exact ⟨h, .refl n s⟩

theorem inv_fail (h : Inv s) : Inv (s.step (.fail n)) ∧ OwnOnly n s (s.step (.fail n)) := by
  simp only [State.step]
  split
  · rename_i e hst
    have hn : s.active n := active_of hst rfl
    constructor
    · refine h.thread hn (fun k hk => jobs_setStage_of_ne _ _ hk) (fun d' hd' => ?_)
        (fun hact => ?_) fun he => ?_
      · obtain ⟨d, hd, rfl⟩ := Option.map_eq_some_iff.mp hd'
        have htx : d.txCancel = n := h.alone d n hd hn
        have ho := h.owned d hd
        subst htx
        obtain ⟨hunfinished, -⟩ := ho.under_way hn (hst ▸ nofun)
        exact ⟨rfl, ho.restage (jobs_setStage _ _ _) ⟨some e, d.finished, rfl⟩ (.inr rfl)
          (fun _ => rfl) (fun hfin => absurd hfin hunfinished) rfl
          fun hfin => absurd hfin hunfinished⟩
      · rw [State.active, stage_setStage] at hact
        cases hact
      · rw [stage_setStage] at he
        cases he
    · refine h.own hn (fun hnone => ?_) (fun p f hf hne => absurd hf hne) fun f _ => rfl
      change s.entry.map _ = none
      rw [hnone]
      rfl
  · exact ⟨h, .refl n s⟩

/-- A thread keeps the invariant and to what is its own. -/
theorem thread_step {i : Event} (h : Inv s) (hi : i.thread = some n) :
    Inv (s.step i) ∧ OwnOnly n s (s.step i) := by
  cases i with
  | begin m path => cases hi
  | cleanStale m removed => cases hi
  | checkPath m dirs => cases hi
  | insert m => cases hi
  | spawn m removed => cases hi
  | cancel => cases hi
  | remove => cases hi
  | notice m => exact Option.some.inj hi ▸ inv_notice h
  | head m response => exact Option.some.inj hi ▸ inv_head h
  | get m => exact Option.some.inj hi ▸ inv_get h
  | create m => exact Option.some.inj hi ▸ inv_create h
  | chunk m chunk => exact Option.some.inj hi ▸ inv_chunk h
  | count m => exact Option.some.inj hi ▸ inv_count h
  | endOfBody m => exact Option.some.inj hi ▸ inv_endOfBody h
  | finish m => exact Option.some.inj hi ▸ inv_finish h
  | error m e written => exact Option.some.inj hi ▸ inv_error h
  | cleanUp m removed => exact Option.some.inj hi ▸ inv_cleanUp h
  | fail m => exact Option.some.inj hi ▸ inv_fail h

/-! ### The other steps -/

/-- A call that has not inserted its entry moves on. -/
theorem Inv.waits {old : Stage} (h : Inv s) (hst : s.stage n = old) (hold : old.early = true)
    (hinactive : old.active = false) (hinactive' : st.active = false)
    (hjobs : ∀ k, k ≠ n → s'.jobs k = s.jobs k)
    (hreceived : (s'.jobs n).received = (s.jobs n).received)
    (hentry : ∀ d, s'.entry = some d → s.entry = some d) (hcontent : s'.content = s.content)
    (hdisk : ∀ p, s'.disk p = s.disk p ∨
      s'.disk p = none ∧ ∀ d, s'.entry = some d → d.path ≠ some p) :
    Inv (s'.setStage n st) := by
  have hne : ∀ k, s.active k ∨ s.stage k = .ended → k ≠ n := by
    rintro k (hk | hk) rfl
    · rw [State.active, hst, hinactive] at hk
      cases hk
    · rw [hst] at hk
      rw [hk] at hold
      cases hold
  refine h.frame (fun k hk => ?_) (fun k hk => ?_) (fun k hk => ?_) hentry hcontent hdisk
  · rw [jobs_setStage_of_ne _ _ (hne k hk), hjobs k (hne k hk)]
  · by_cases hkn : k = n
    · subst hkn
      rw [State.active, stage_setStage, hinactive'] at hk
      cases hk
    · rw [State.active, State.stage, jobs_setStage_of_ne _ _ hkn, hjobs k hkn] at hk
      exact hk
  · by_cases hkn : k = n
    · subst hkn
      refine ⟨by rw [hst, hold], ?_⟩
      rw [jobs_setStage, ← hreceived]
    · rw [State.stage, jobs_setStage_of_ne _ _ hkn, hjobs k hkn] at hk
      exact ⟨hk, by rw [jobs_setStage_of_ne _ _ hkn, hjobs k hkn]⟩

theorem inv_begin {path : Option String} (h : Inv s) : Inv (s.step (.begin n path)) := by
  simp only [State.step]
  split
  · rename_i hst
    have hjobs : ∀ k, k ≠ n →
        Function.update s.jobs n { s.jobs n with path } k = s.jobs k :=
      fun k hk => Function.update_of_ne hk _ _
    have hreceived : (Function.update s.jobs n { s.jobs n with path } n).received =
        (s.jobs n).received := by rw [Function.update_self]
    split
    · exact h.waits hst rfl rfl rfl hjobs hreceived (fun _ hd => hd) rfl fun _ => .inl rfl
    · rename_i d hd
      split
      · exact h.waits hst rfl rfl rfl hjobs hreceived (fun _ hd => hd) rfl fun _ => .inl rfl
      · refine h.waits hst rfl rfl rfl ?_ ?_ ?_ ?_ ?_
        · rw [jobs_removeEntry]
          exact hjobs
        · rw [jobs_removeEntry]
          exact hreceived
        · rw [entry_removeEntry]
          nofun
        · exact (disk_removeEntry _).2
        · intro p
          rw [(disk_removeEntry _).1]
          exact .inl rfl
  · exact h

theorem inv_cleanStale {removed : Bool} (h : Inv s)
    (hok : ∀ stale d, s.stage n = .cleaning (some stale) → s.entry = some d →
      d.path ≠ some stale) : Inv (s.step (.cleanStale n removed)) := by
  simp only [State.step]
  split
  · rename_i stale hst
    obtain ⟨hentry, hjobs, hcontent⟩ := removeFile_same stale removed s
    refine h.waits hst rfl rfl rfl (fun k _ => by rw [hjobs]) (by rw [hjobs])
      (fun d hd => hentry ▸ hd) hcontent fun p => ?_
    rcases disk_removeFile stale removed s p with hsame | ⟨rfl, hgone⟩
    · exact .inl hsame
    · refine .inr ⟨hgone, fun d hd => hok p d hst ?_⟩
      rw [← hentry]
      exact hd
  · exact h

theorem inv_checkPath {dirs : Except String Unit} (h : Inv s) :
    Inv (s.step (.checkPath n dirs)) := by
  simp only [State.step]
  split
  · rename_i hst
    have hwaits : ∀ st : Stage, st.active = false → Inv (s.setStage n st) := fun st hact =>
      h.waits hst rfl rfl hact (fun _ _ => rfl) rfl (fun _ hd => hd) rfl fun _ => .inl rfl
    split
    · exact hwaits _ rfl
    · split
      · exact hwaits _ rfl
      · split
        · exact hwaits _ rfl
        · exact hwaits _ rfl
  · exact h

theorem inv_removeEntry (h : Inv s) : Inv s.removeEntry := by
  refine h.frame (fun k _ => by rw [jobs_removeEntry]) (fun k hk => ?_) (fun k hk => ?_) ?_
    (disk_removeEntry s).2 fun p => .inl (by rw [(disk_removeEntry s).1])
  · rwa [State.active, State.stage, jobs_removeEntry] at hk
  · rw [State.stage, jobs_removeEntry] at hk
    exact ⟨hk, by rw [jobs_removeEntry]⟩
  · rw [entry_removeEntry]
    nofun

theorem inv_cancel (h : Inv s) : Inv (s.step .cancel) := by
  simp only [State.step]
  split
  · exact h.frame (fun _ _ => rfl) (fun _ hk => hk) (fun _ hk => ⟨hk, rfl⟩) (fun _ hd => hd) rfl
      fun _ => .inl rfl
  · exact h

/-- A stale file is gone before the thread starts. -/
theorem inv_spawn {removed : Bool} (h : Inv s) : Inv (s.step (.spawn n removed)) := by
  simp only [State.step]
  split
  · rename_i stale hst
    have hn : s.active n := active_of hst rfl
    have hp := h.placed_of hst rfl
    obtain ⟨hentry, hjobs, hcontent⟩ := removeFile_same stale removed s
    refine h.thread hn (fun k hk => ?_) (fun d hd => ?_) (fun _ => ?_) fun _ => ?_
    · rw [jobs_setStage_of_ne _ _ hk, hjobs]
    · have hd' : s.entry = some d := hentry ▸ hd
      have htx : d.txCancel = n := h.alone d n hd' hn
      have ho := h.owned d hd'
      subst htx
      obtain ⟨hunfinished, hclear⟩ := ho.under_way hn (hst ▸ nofun)
      exact ⟨rfl, ho.restage (by rw [jobs_setStage, hjobs]) ⟨d.error, d.finished, rfl⟩ (.inl rfl)
        (fun herr => absurd hclear herr) (fun hfin => absurd hfin hunfinished) rfl
        fun hfin => absurd hfin hunfinished⟩
    · rw [jobs_setStage, hjobs]
      change Placed _ n ⟨.head, (s.jobs n).path, (s.jobs n).received⟩
      cases hpath : (s.jobs n).path with
      | none => trivial
      | some p =>
        rw [hpath] at hp
        rcases disk_removeFile stale removed s p with hsame | ⟨-, hgone⟩
        · exact hsame.trans hp
        · exact hgone
    · rw [jobs_setStage, hjobs]
      exact h.early n (by rw [hst]; rfl)
  · exact h

/-- A new entry, when no thread is on its way and the path is free. -/
theorem Inv.inserted {stale : Option String} (h : Inv s) (hst : s.stage n = .inserting)
    (hquiet : ∀ k, ¬s.active k) (hfree : ∀ p, (s.jobs n).path = some p → s.disk p = none)
    (hjobs : s'.jobs = s.jobs) (hdisk : s'.disk = s.disk) :
    Inv ((s'.insertEntry n).setStage n (.spawning stale)) := by
  have hreceived : (s.jobs n).received = [] := h.early n (by rw [hst]; rfl)
  have hactive : ∀ k, ((s'.insertEntry n).setStage n (.spawning stale)).active k → k = n := by
    intro k hk
    by_contra hne
    rw [State.active, State.stage, jobs_setStage_of_ne _ _ hne] at hk
    change (s'.jobs k).stage.active = true at hk
    rw [hjobs] at hk
    exact hquiet k hk
  refine ⟨fun k k' hk hk' => (hactive k hk).trans (hactive k' hk').symm, ?_, ?_, ?_, ?_⟩
  · intro d hd
    obtain rfl : { path := (s'.jobs n).path, txCancel := n } = d := Option.some.inj hd
    refine ⟨?_, ?_, nofun, nofun, ?_, ?_, ?_, nofun⟩
    · exact .inl (active_of (stage_setStage _ _ _) rfl)
    · rw [jobs_setStage]
      rfl
    · intro p _ hopen
      rw [stage_setStage] at hopen
      cases hopen
    · intro _
      rw [jobs_setStage]
      change [] = (s'.jobs n).received
      rw [hjobs, hreceived]
    · rw [jobs_setStage]
      change 0 = (s'.jobs n).received.length
      rw [hjobs, hreceived]
      rfl
  · intro d k hd hk
    obtain rfl : { path := (s'.jobs n).path, txCancel := n } = d := Option.some.inj hd
    exact (hactive k hk).symm
  · intro k hk
    obtain rfl := hactive k hk
    rw [jobs_setStage]
    change Placed _ k ⟨.spawning stale, (s'.jobs k).path, (s'.jobs k).received⟩
    rw [hjobs]
    cases hpath : (s.jobs k).path with
    | none => trivial
    | some p =>
      change s'.disk p = none
      rw [hdisk]
      exact hfree p hpath
  · intro k hk
    by_cases hkn : k = n
    · subst hkn
      rw [jobs_setStage]
      change (s'.jobs k).received = []
      rw [hjobs, hreceived]
    · rw [State.stage, jobs_setStage_of_ne _ _ hkn] at hk
      rw [jobs_setStage_of_ne _ _ hkn]
      change (s'.jobs k).stage.early = true at hk
      change (s'.jobs k).received = []
      rw [hjobs] at hk ⊢
      exact h.early k hk

theorem inv_insert (h : Inv s) (hok : Alone s (.insert n)) : Inv (s.step (.insert n)) := by
  simp only [State.step]
  split
  · rename_i hst
    split
    · rename_i hnone
      obtain ⟨hquiet, hfree⟩ := hok hst fun d hd => by rw [hnone] at hd; cases hd
      exact h.inserted hst hquiet hfree rfl rfl
    · rename_i d hd
      split
      · exact h.waits hst rfl rfl rfl (fun _ _ => rfl) rfl (fun _ hd => hd) rfl fun _ => .inl rfl
      · rename_i err herr
        obtain ⟨hquiet, hfree⟩ := hok hst fun d' hd' => by
          rw [hd] at hd'
          obtain rfl := Option.some.inj hd'
          rw [herr]
          nofun
        exact h.inserted hst hquiet hfree (jobs_removeEntry s) (disk_removeEntry s).1
  · exact h

theorem inv_step {i : Event} (h : Inv s) (hok : Alone s i) : Inv (s.step i) := by
  cases i with
  | begin m path => exact inv_begin h
  | cleanStale m removed => exact inv_cleanStale h hok
  | checkPath m dirs => exact inv_checkPath h
  | insert m => exact inv_insert h hok
  | spawn m removed => exact inv_spawn h
  | cancel => exact inv_cancel h
  | remove => exact inv_removeEntry h
  | notice m => exact (thread_step h rfl).1
  | head m response => exact (thread_step h rfl).1
  | get m => exact (thread_step h rfl).1
  | create m => exact (thread_step h rfl).1
  | chunk m chunk => exact (thread_step h rfl).1
  | count m => exact (thread_step h rfl).1
  | endOfBody m => exact (thread_step h rfl).1
  | finish m => exact (thread_step h rfl).1
  | error m e written => exact (thread_step h rfl).1
  | cleanUp m removed => exact (thread_step h rfl).1
  | fail m => exact (thread_step h rfl).1

/-- What is asked for is what the thread of the entry received. -/
def Answers (s : State) (r : DownloadData) : Prop :=
  ∃ d, s.entry = some d ∧ r.downloadedSize = (s.jobs d.txCancel).received.length ∧
    (r.path = none → r.totalSize.getD 0 = r.downloadedSize →
      r.data = (s.jobs d.txCancel).received)

theorem answers_of_exact {r : DownloadData} (hexact : ∀ d, s.entry = some d → Exact s d)
    (hr : s.getDownloadData = .ok r) : Answers s r := by
  unfold State.getDownloadData at hr
  split at hr
  · rename_i d hd
    obtain rfl := Except.ok.inj hr
    refine ⟨d, hd, (hexact d hd).size, fun hpath hsize => ?_⟩
    change (if d.totalSize.getD 0 = d.downloadedSize ∧ d.path = none then d.data else []) = _
    rw [if_pos ⟨hsize, hpath⟩]
    exact (hexact d hd).memory hpath
  · cases hr

/-- There are files on the disk, and no download has begun. -/
def State.start (files : String → Option Nat) (content : FileId → Bytes) : State :=
  { disk := fun p => (files p).map .foreign, content }

theorem Inv.start (files : String → Option Nat) (content : FileId → Bytes) :
    Inv (.start files content) where
  single n k hn := by cases hn
  owned d hd := by cases hd
  alone d n hd := by cases hd
  placed n hn := by cases hn
  early _ _ := rfl

/-- As long as an entry is inserted only after the threads of the earlier ones have ended, no
thread touches what is not its own, and an entry holds what its thread received. -/
theorem downloads_apart (files : String → Option Nat) (content : FileId → Bytes)
    (events : List Event) (h : Guarded State.step Alone (.start files content) events) :
    Guarded State.step (fun s i => ∀ n, i.thread = some n → OwnOnly n s (s.step i))
        (.start files content) events ∧
      Throughout State.step (fun s => (∀ d, s.entry = some d → Exact s d) ∧
        ∀ r, s.getDownloadData = .ok r → Answers s r) (.start files content) events := by
  have hstep : ∀ s i, Inv s → Alone s i → Inv (s.step i) := fun s i hs hok => inv_step hs hok
  have hinv := throughout_of_guarded hstep (Inv.start files content) h
  refine ⟨?_, throughout_imp (fun s hs => ?_) hinv⟩
  · exact guarded_of_inv hstep (fun s i hs _ n hn => (thread_step hs hn).2)
      (Inv.start files content) h
  · have hexact : ∀ d, s.entry = some d → Exact s d := fun d hd => (hs.owned d hd).exact
    exact ⟨hexact, fun r hr => answers_of_exact hexact hr⟩

/-- A call from its beginning to its thread. -/
def opening (n : Nat) (path : Option String) : List Event :=
  [.begin n path, .cleanStale n true, .checkPath n (.ok ()), .insert n, .spawn n true,
    .head n (.success (some 2)), .get n]

/-- The second download is begun when the first one has ended and was removed. -/
def oneByOne : List Event :=
  opening 0 none ++ [.chunk 0 [1, 2], .endOfBody 0, .finish 0, .remove] ++
    (opening 1 (some "/f") ++ [.create 1, .chunk 1 [3, 4], .count 1, .endOfBody 1, .finish 1])

theorem downloads_apart_one_by_one :
    ∃ d, (run State.step (.start (fun _ => none) fun _ => []) oneByOne).entry = some d ∧
      d.path = some "/f" ∧ d.finished = true ∧
      (run State.step (.start (fun _ => none) fun _ => []) oneByOne).content (.call 1) = [3, 4] := by
  have hguard : Guarded State.step Alone (.start (fun _ => none) fun _ => []) oneByOne := by
    have hfirst : ∀ k, ¬(run State.step (.start (fun _ => none) fun _ => [])
        [.begin 0 none, .cleanStale 0 true, .checkPath 0 (.ok ())]).active k
      | 0 => Bool.false_ne_true
      | k + 1 => Bool.false_ne_true
    have hsecond : ∀ k, ¬(run State.step (.start (fun _ => none) fun _ => [])
        (opening 0 none ++ [.chunk 0 [1, 2], .endOfBody 0, .finish 0, .remove] ++
          [.begin 1 (some "/f"), .cleanStale 1 true, .checkPath 1 (.ok ())])).active k
      | 0 => Bool.false_ne_true
      | 1 => Bool.false_ne_true
      | k + 2 => Bool.false_ne_true
    refine ⟨trivial, nofun, trivial, fun _ _ => ⟨hfirst, nofun⟩, trivial, trivial, trivial,
      trivial, trivial, trivial, trivial, trivial, nofun, trivial, fun _ _ => ⟨hsecond, ?_⟩,
      trivial, trivial, trivial, trivial, trivial, trivial, trivial, trivial, trivial⟩
    intro p _
    rfl
  obtain ⟨-, hexact⟩ := downloads_apart (fun _ => none) (fun _ => []) oneByOne hguard
  have hlast := (throughout_last hexact).1
  refine ⟨_, rfl, rfl, rfl, ?_⟩
  exact ((hlast _ rfl).file "/f" rfl rfl).2

/-- The first download is removed and begun again while its thread waits for the body. -/
def restarted : List Event := opening 0 none ++ .remove :: opening 1 none

/-- The old thread notices that it is cancelled, and removes the new entry; or it still adds a
chunk to it. -/
theorem old_thread_meddles :
    ¬Guarded State.step (fun s i => ∀ n, i.thread = some n → OwnOnly n s (s.step i))
        (.start (fun _ => none) fun _ => [])
        (restarted ++ [.notice 0, .finish 0, .cleanUp 0 true]) ∧
      ¬Throughout State.step (fun s => ∀ d, s.entry = some d → Exact s d)
        (.start (fun _ => none) fun _ => []) (restarted ++ [.chunk 0 [7]]) := by
  constructor
  · intro h
    obtain ⟨-, -, hlast, -⟩ := guarded_right h
    have hgone := (hlast 0 rfl).entry _ rfl (by decide)
    cases hgone
  · intro h
    have hmemory := (throughout_last h _ rfl).memory rfl
    cases hmemory

end RustDesk.Downloads
