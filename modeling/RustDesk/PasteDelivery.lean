import RustDesk.PasteConfinement
import RustDesk.History

/-!
# What a pasted file is made of

A task asks for one block of a file after the other and appends what arrives. A response names
the place of its file on the list and nothing else: neither the task that asked nor the offset.
Here every response comes with the request it answers, so that what a task has written can be
compared with what it asked for.
-/

namespace RustDesk.Paste

open Clipboard (FileDescription FileType FileIoError CliprdrError ClipboardFile)

/-- The bytes in the file at a path after one more call. -/
def Effect.writes (path : String) (contents : Bytes) : Effect → Bytes
  | .createFile p => if p = path then [] else contents
  | .write p data => if p = path then contents ++ data else contents
  | .flush p (some stored) => if p = path then contents.take stored else contents
  | _ => contents

/-- The bytes in the file at a path that has been created by these calls. -/
def written (log : List Effect) (path : String) : Bytes := log.foldl (Effect.writes path) []

def Effect.sends (last : Option ClipboardFile) : Effect → Option ClipboardFile
  | .request message => some message
  | _ => last

/-- The request that was sent last. -/
def outstanding (log : List Effect) : Option ClipboardFile := log.foldl Effect.sends none

/-- The number of bytes that a request asks for. -/
def cbRequested : ClipboardFile → Nat
  | .fileContentsRequest _ _ _ _ _ cb _ _ => cb.toNat
  | _ => 0

/-- A response with the request it answers: `task` is the number of the task that sent it. -/
structure Answer where
  task : Nat
  request : ClipboardFile
  data : Bytes
  deriving DecidableEq, Repr

/-- An event; for a response, `task` and `request` say what it answers. -/
structure Arrival where
  event : Event
  task : Nat := 0
  request : ClipboardFile := .fileContentsRequest 0 0 0 0 0 0 false 0

def Arrival.answer (a : Arrival) : Option Answer :=
  match a.event with
  | .contents _ _ _ data _ _ _ _ => some ⟨a.task, a.request, data⟩
  | _ => none

/-- The task, and the responses that have arrived. -/
structure PasteWatch where
  paste : PasteTask := {}
  answers : List Answer := []

namespace PasteWatch

def step (w : PasteWatch) (a : Arrival) : PasteWatch where
  paste := w.paste.step a.event
  answers := w.answers ++ a.answer.toList

end PasteWatch

/-- The task takes a response for the answer to its request. -/
def Handle.Accepts (h : Handle) (connId msgFlags streamId : BitVec 32) : Prop :=
  h.isFinished = false ∧ streamId.toInt = h.progress.listIndex ∧ msgFlags = 1 ∧
    ∃ file ∈ h.files[usizeOfI32 streamId.toInt]?, file.connId = connId

/-- A response that is accepted answers the request that the running task sent last, and with
no more bytes than it asked for; flushing a file that is complete succeeds. -/
def PasteWatch.Answered (w : PasteWatch) (a : Arrival) : Prop :=
  match a.event with
  | .contents connId msgFlags streamId data _ done _ _ =>
    ∀ h ∈ w.paste.handle, h.Accepts connId msgFlags streamId →
      a.task = w.paste.past.length ∧ outstanding h.log = some a.request ∧
        data.length ≤ cbRequested a.request ∧ done.flush = none
  | _ => True

instance decidableAccepts (h : Handle) (connId msgFlags streamId : BitVec 32) :
    Decidable (h.Accepts connId msgFlags streamId) :=
  inferInstanceAs (Decidable (_ ∧ _ ∧ _ ∧ ∃ file ∈ h.files[usizeOfI32 streamId.toInt]?, _))

instance decidableAnswered (w : PasteWatch) : ∀ a : Arrival, Decidable (w.Answered a)
  | ⟨.contents connId msgFlags streamId data _ done _ _, task, request⟩ =>
    inferInstanceAs (Decidable (∀ h ∈ w.paste.handle, h.Accepts connId msgFlags streamId →
      task = w.paste.past.length ∧ outstanding h.log = some request ∧
        data.length ≤ cbRequested request ∧ done.flush = none))
  | ⟨.formatData .., _, _⟩ => .isTrue trivial
  | ⟨.timeout .., _, _⟩ => .isTrue trivial
  | ⟨.cancel, _, _⟩ => .isTrue trivial

/-- The request for the rest of a file, as `send_file_contents_request` sends it. -/
def blockRequest (index : Nat) (file : FileDescription) (offset : Nat) : ClipboardFile :=
  Clipboard.sendFileContentsRequest (BitVec.ofInt 32 index) (BitVec.ofNat 64 file.size)
    (BitVec.ofNat 64 offset)

/-- Answers to the requests of a task for the blocks of one file, in the order of the file. -/
inductive Parts (task index : Nat) (file : FileDescription) (log : List Effect)
    (answers : List Answer) : Bytes → Prop
  | nil : Parts task index file log answers []
  | snoc {contents : Bytes} {a : Answer} : Parts task index file log answers contents →
      a ∈ answers → a.task = task → a.request = blockRequest index file contents.length →
      .request a.request ∈ log → Parts task index file log answers (contents ++ a.data)

/-- The file that is renamed has exactly the bytes of a file of the list, which are those of
the answers to the requests of the task. -/
structure Assembled (task : Nat) (files : List FileDescription) (targetDir : String)
    (answers : List Answer) (log : List Effect) (src dst : String) (index : Nat)
    (file : FileDescription) : Prop where
  listed : files[index]? = some file
  nonempty : file.size ≠ 0
  place : ∃ fs, getNewFilename fs targetDir file = some dst
  size : (written log src).length = file.size
  parts : Parts task index file log answers (written log src)

/-- Every file that a task has moved into place is what it asked for, if the task ended
without an error and was not cancelled. -/
def PasteWatch.Intact (w : PasteWatch) : Prop :=
  ∀ (task : Nat) (h : Handle), w.paste.tasks[task]? = some h → h.isFinished →
    h.progress.error = none → h.progress.isCanceled = false →
    ∀ before src dst after, h.log = before ++ .rename src dst :: after →
      ∃ index file, Assembled task h.files h.targetDir w.answers before src dst index file

namespace Delivery

variable {task : Nat} {h : Handle} {answers answers' : List Answer} {log : List Effect} {e : Effect}
  {path src dst : String} {index : Nat} {file : FileDescription}

theorem written_append (log : List Effect) (e : Effect) (path : String) :
    written (log ++ [e]) path = e.writes path (written log path) := by
  simp [written]

theorem outstanding_append (log : List Effect) (e : Effect) :
    outstanding (log ++ [e]) = e.sends (outstanding log) := by
  simp [outstanding]

theorem Parts.mono {log' : List Effect} {contents : Bytes} (hlog : log ⊆ log')
    (hanswers : answers ⊆ answers') (hp : Parts task index file log answers contents) :
    Parts task index file log' answers' contents := by
  induction hp with
  | nil => exact .nil
  | snoc _ ha htask hrequest hsent ih => exact .snoc ih (hanswers ha) htask hrequest (hlog hsent)

theorem Assembled.mono {files : List FileDescription} {targetDir : String}
    (hanswers : answers ⊆ answers')
    (ha : Assembled task files targetDir answers log src dst index file) :
    Assembled task files targetDir answers' log src dst index file :=
  { ha with parts := Parts.mono (List.Subset.refl _) hanswers ha.parts }

/-- What holds of a task at any time: the files it has moved are what they should be. -/
structure Sound (task : Nat) (answers : List Answer) (h : Handle) : Prop where
  small : ∀ f ∈ h.files, f.size < 2 ^ 64
  moved : ∀ before src dst after, h.log = before ++ .rename src dst :: after →
    ∃ index file, Assembled task h.files h.targetDir answers before src dst index file

/-- The file that is open has been written as the answers came. -/
structure Filling (task : Nat) (answers : List Answer) (h : Handle) (path : String) (index : Nat)
    (file : FileDescription) : Prop where
  listed : h.files[index]? = some file
  bound : (index : Int) < asI32 h.files.length
  nonempty : file.size ≠ 0
  running : h.progress.isCanceled = false
  listIndex : h.progress.listIndex = index
  downloadFileIndex : h.progress.downloadFileIndex = index
  downloadFileSize : h.progress.downloadFileSize = file.size
  downloadFilePath : h.progress.downloadFilePath = path
  parts : Parts task index file h.log answers (written h.log path)

/-- The next block of the open file is to be asked for. -/
def Fetching (task : Nat) (answers : List Answer) (h : Handle) : Prop :=
  ∀ path, h.progress.fileHandle = some path → ∃ index file,
    Filling task answers h path index file ∧
      h.progress.offset = (written h.log path).length ∧ h.progress.offset < file.size

/-- The next block of the open file has been asked for. -/
def Asking (task : Nat) (answers : List Answer) (h : Handle) : Prop :=
  ∀ path, h.progress.fileHandle = some path → ∃ index file,
    Filling task answers h path index file ∧
      h.progress.offset = (written h.log path).length ∧ h.progress.offset < file.size ∧
      outstanding h.log = some (blockRequest index file h.progress.offset) ∧
      .request (blockRequest index file h.progress.offset) ∈ h.log

theorem Sound.emit (hs : Sound task answers h) (he : ∀ src dst, e ≠ .rename src dst) :
    Sound task answers (h.emit e) := by
  refine ⟨hs.small, ?_⟩
  intro before src dst after hlog
  rcases List.eq_nil_or_concat after with rfl | ⟨after', last, rfl⟩
  · have hlast := congrArg List.getLast? hlog
    simp only [Handle.emit, List.getLast?_append, List.getLast?_singleton, Option.some_or] at hlast
    exact absurd (Option.some.inj hlast) (he src dst)
  · change h.log ++ [e] = before ++ .rename src dst :: after'.concat last at hlog
    rw [List.concat_eq_append, ← List.cons_append, ← List.append_assoc] at hlog
    exact hs.moved before src dst after' (List.append_inj' hlog rfl).1

theorem Sound.setProgress (hs : Sound task answers h) (p : Progress) :
    Sound task answers (h.setProgress p) := ⟨hs.small, hs.moved⟩

theorem Sound.mono (hanswers : answers ⊆ answers') (hs : Sound task answers h) :
    Sound task answers' h := by
  refine ⟨hs.small, ?_⟩
  intro before src dst after hlog
  obtain ⟨index, file, ha⟩ := hs.moved before src dst after hlog
  exact ⟨index, file, Assembled.mono hanswers ha⟩

theorem Filling.mono (hanswers : answers ⊆ answers') (hf : Filling task answers h path index file) :
    Filling task answers' h path index file :=
  { hf with parts := Parts.mono (List.Subset.refl _) hanswers hf.parts }

theorem Filling.emit (hf : Filling task answers h path index file)
    (he : e.writes path (written h.log path) = written h.log path) :
    Filling task answers (h.emit e) path index file := by
  have hwritten : written (h.emit e).log path = written h.log path := by
    change written (h.log ++ [e]) path = _
    rw [written_append, he]
  refine { hf with parts := ?_ }
  rw [hwritten]
  exact Parts.mono (List.subset_append_left _ _) (List.Subset.refl _) hf.parts

/-! ### The calls of one task -/

theorem Sound.updateProgressCompleted (hs : Sound task answers h) :
    Sound task answers h.updateProgressCompleted := by
  unfold Handle.updateProgressCompleted
  split_ifs
  · exact hs
  · exact hs.emit nofun

theorem Sound.removeProgressCompleted (hs : Sound task answers h) :
    Sound task answers h.removeProgressCompleted := by
  unfold Handle.removeProgressCompleted
  split_ifs
  · exact hs
  · exact hs.emit nofun

theorem Filling.updateProgressCompleted (hf : Filling task answers h path index file) :
    Filling task answers h.updateProgressCompleted path index file := by
  unfold Handle.updateProgressCompleted
  split_ifs
  · exact hf
  · exact hf.emit rfl

theorem Filling.removeProgressCompleted (hf : Filling task answers h path index file) :
    Filling task answers h.removeProgressCompleted path index file := by
  unfold Handle.removeProgressCompleted
  split_ifs
  · exact hf
  · exact hf.emit rfl

theorem written_updateProgressCompleted (h : Handle) (path : String) :
    written h.updateProgressCompleted.log path = written h.log path := by
  unfold Handle.updateProgressCompleted
  split_ifs
  · rfl
  · exact written_append ..

theorem written_removeProgressCompleted (h : Handle) (path : String) :
    written h.removeProgressCompleted.log path = written h.log path := by
  unfold Handle.removeProgressCompleted
  split_ifs
  · rfl
  · exact written_append ..

theorem progress_updateProgressCompleted (h : Handle) :
    h.updateProgressCompleted.progress = h.progress := by
  unfold Handle.updateProgressCompleted
  split_ifs <;> rfl

theorem progress_removeProgressCompleted (h : Handle) :
    h.removeProgressCompleted.progress = h.progress := by
  unfold Handle.removeProgressCompleted
  split_ifs <;> rfl

theorem Sound.onCancelled (hs : Sound task answers h) : Sound task answers h.onCancelled := by
  unfold Handle.onCancelled
  dsimp only
  split_ifs
  · exact hs.setProgress _
  · exact (hs.setProgress _).emit nofun

theorem fileHandle_onCancelled (h : Handle) : h.onCancelled.progress.fileHandle = none := by
  unfold Handle.onCancelled
  dsimp only
  split_ifs <;> rfl

theorem Sound.rename (hs : Sound task answers h) (hf : Filling task answers h path index file)
    (hsize : (written h.log path).length = file.size) {fs : PasteFs}
    (hdst : getNewFilename fs h.targetDir file = some dst) :
    Sound task answers (h.emit (.rename path dst)) := by
  refine ⟨hs.small, ?_⟩
  intro before src' dst' after hlog
  rcases List.eq_nil_or_concat after with rfl | ⟨after', last, rfl⟩
  · obtain ⟨hbefore, hlast⟩ := List.append_inj' hlog rfl
    subst hbefore
    cases List.head_eq_of_cons_eq hlast
    exact ⟨index, file, hf.listed, hf.nonempty, ⟨fs, hdst⟩, hsize, hf.parts⟩
  · change h.log ++ [_] = before ++ .rename src' dst' :: after'.concat last at hlog
    rw [List.concat_eq_append, ← List.cons_append, ← List.append_assoc] at hlog
    exact hs.moved before src' dst' after' (List.append_inj' hlog rfl).1

theorem usizeOfI32_of_lt {n : Int} (hbound : (index : Int) < asI32 n) : usizeOfI32 index = index := by
  have hlt : asI32 n < 2 ^ 31 := by
    unfold asI32
    rw [Int.bmod_def]
    split <;> omega
  unfold usizeOfI32
  omega

theorem Sound.renameDownload (hs : Sound task answers h)
    (hf : Filling task answers h path index file)
    (hsize : (written h.log path).length = file.size) (fs : PasteFs) :
    Sound task answers (h.renameDownload fs) := by
  unfold Handle.renameDownload
  rw [hf.downloadFileIndex, usizeOfI32_of_lt hf.bound, hf.listed]
  dsimp only
  cases hdst : getNewFilename fs h.targetDir file with
  | none => exact hs
  | some dst =>
    have hrenamed := hs.rename hf hsize hdst
    dsimp only
    rw [hf.downloadFilePath]
    split_ifs
    · exact (hrenamed.emit (e := .openWrite dst) nofun).setProgress _
    · exact hrenamed.setProgress _

theorem fileHandle_renameDownload (h : Handle) (fs : PasteFs) :
    (h.renameDownload fs).progress.fileHandle = h.progress.fileHandle := by
  unfold Handle.renameDownload
  split
  · rfl
  · split
    · rfl
    · dsimp only
      split_ifs <;> rfl

theorem onDone_none (fs : PasteFs) (hhandle : h.progress.fileHandle = none) :
    h.onDone fs = h.updateProgressCompleted.removeProgressCompleted := by
  simp only [Handle.onDone, progress_removeProgressCompleted, progress_updateProgressCompleted,
    hhandle]

theorem onDone_some (fs : PasteFs) (hhandle : h.progress.fileHandle = some path)
    (hindex : h.progress.downloadFileIndex ≠ -1) :
    h.onDone fs = ((h.updateProgressCompleted.removeProgressCompleted.emit
      (.flush path fs.flush)).setProgress { h.progress with fileHandle := none }).renameDownload fs := by
  have hprogress : h.updateProgressCompleted.removeProgressCompleted.progress = h.progress := by
    rw [progress_removeProgressCompleted, progress_updateProgressCompleted]
  simp only [Handle.onDone, hprogress, hhandle, hindex, if_false, Handle.emit]

theorem Sound.onDone (hs : Sound task answers h) {fs : PasteFs} (hflush : fs.flush = none)
    (hfull : ∀ path, h.progress.fileHandle = some path → ∃ index file,
      Filling task answers h path index file ∧ (written h.log path).length = file.size) :
    Sound task answers (h.onDone fs) ∧ (h.onDone fs).progress.fileHandle = none := by
  have hattr := hs.updateProgressCompleted.removeProgressCompleted
  cases hhandle : h.progress.fileHandle with
  | none =>
    rw [onDone_none fs hhandle, progress_removeProgressCompleted, progress_updateProgressCompleted]
    exact ⟨hattr, hhandle⟩
  | some path =>
    obtain ⟨index, file, hf, hsize⟩ := hfull path hhandle
    have hindex : h.progress.downloadFileIndex ≠ -1 := by
      rw [hf.downloadFileIndex]
      omega
    rw [onDone_some fs hhandle hindex, hflush]
    have hflushed : Filling task answers (h.updateProgressCompleted.removeProgressCompleted.emit
        (.flush path none)) path index file :=
      hf.updateProgressCompleted.removeProgressCompleted.emit rfl
    have hclosed : Filling task answers ((h.updateProgressCompleted.removeProgressCompleted.emit
        (.flush path none)).setProgress { h.progress with fileHandle := none }) path index file :=
      { hflushed with
        running := hf.running
        listIndex := hf.listIndex
        downloadFileIndex := hf.downloadFileIndex
        downloadFileSize := hf.downloadFileSize
        downloadFilePath := hf.downloadFilePath }
    refine ⟨((hattr.emit (e := .flush path none) nofun).setProgress _).renameDownload hclosed ?_ fs, ?_⟩
    · change (written (_ ++ [Effect.flush path none]) path).length = file.size
      rw [written_append]
      change (written h.updateProgressCompleted.removeProgressCompleted.log path).length = _
      rw [written_removeProgressCompleted, written_updateProgressCompleted, hsize]
    · rw [fileHandle_renameDownload]
      rfl

/-! ### The next file -/

/-- A file of the list has been opened, and nothing is written to it yet. -/
theorem fetching_createDownload {fs : PasteFs} {download : String} (hs : Sound task answers h)
    (hhandle : h.progress.fileHandle = none) (hlisted : h.files[index]? = some file)
    (hbound : (index : Int) < asI32 h.files.length) (hnonempty : file.size ≠ 0)
    (hrunning : h.progress.isCanceled = false) (hindex : h.progress.listIndex = index)
    (hoffset : h.progress.offset = 0) :
    Sound task answers (h.createDownload fs download file.size) ∧
      Fetching task answers (h.createDownload fs download file.size) := by
  have hcreated : Sound task answers (h.emit (.createFile download)) := hs.emit nofun
  unfold Handle.createDownload
  dsimp only
  cases fs.createFile with
  | some e =>
    refine ⟨hcreated.setProgress _, ?_⟩
    intro path hpath
    exact absurd (hhandle.symm.trans hpath) nofun
  | none =>
    refine ⟨(hcreated.setProgress _).emit nofun, ?_⟩
    intro path hpath
    cases hpath
    have hwritten : written ((h.log ++ [Effect.createFile download]) ++ [Effect.setAttr download]) download = [] := by
      rw [written_append, written_append]
      simp [Effect.writes]
    refine ⟨index, file, ⟨hlisted, hbound, hnonempty, hrunning, hindex, hindex, rfl, rfl, ?_⟩, ?_, ?_⟩
    · change Parts _ _ _ _ _ (written ((h.log ++ [Effect.createFile download]) ++ [Effect.setAttr download]) download)
      rw [hwritten]
      exact .nil
    · change h.progress.offset = (written ((h.log ++ [Effect.createFile download]) ++ [Effect.setAttr download])
        download).length
      rw [hwritten, hoffset]
      rfl
    · change h.progress.offset < file.size
      omega

theorem fetching_of_none (hhandle : h.progress.fileHandle = none) : Fetching task answers h := by
  intro path hpath
  exact absurd (hhandle.symm.trans hpath) nofun

theorem fetching_openNewWriter (fs : PasteFs) (hs : Sound task answers h)
    (hhandle : h.progress.fileHandle = none) (hlisted : h.files[usizeOfI32 index]? = some file)
    (hbound : (index : Int) < asI32 h.files.length) (hnonempty : file.size ≠ 0)
    (hrunning : h.progress.isCanceled = false) (hindex : h.progress.listIndex = index)
    (hoffset : h.progress.offset = 0) :
    Sound task answers (h.openNewWriter fs).2 ∧ Fetching task answers (h.openNewWriter fs).2 := by
  have hlisted' : h.files[index]? = some file := by
    rw [← usizeOfI32_of_lt hbound]
    exact hlisted
  unfold Handle.openNewWriter
  rw [hindex, hlisted]
  dsimp only
  split
  · exact ⟨hs, fetching_of_none hhandle⟩
  · split
    · exact ⟨hs, fetching_of_none hhandle⟩
    · split_ifs
      · exact fetching_createDownload hs hhandle hlisted' hbound hnonempty hrunning hindex hoffset
      · rename_i download hdownload parent hparent hexists
        have hmade : Sound task answers (h.emit (.createDirAll (String.ofList parent))) :=
          hs.emit nofun
        split
        · exact ⟨hmade, fetching_of_none hhandle⟩
        · exact fetching_createDownload hmade hhandle hlisted' hbound hnonempty hrunning hindex hoffset

theorem fetching_advance (fs : Nat → PasteFs) (n : Nat) (i : Nat) (hs : Sound task answers h)
    (hhandle : h.progress.fileHandle = none) (hrunning : h.progress.isCanceled = false)
    (hn : (i : Int) + n ≤ asI32 h.files.length ∨ n = 0) :
    Sound task answers (Handle.advance fs n i h).2 ∧
      Fetching task answers (Handle.advance fs n i h).2 := by
  induction n generalizing i h with
  | zero => exact ⟨hs, fetching_of_none hhandle⟩
  | succ n ih =>
    have hbound : (i : Int) < asI32 h.files.length := by omega
    have hnext : ((i + 1 : Nat) : Int) + n ≤ asI32 h.files.length ∨ n = 0 := by omega
    unfold Handle.advance
    split
    · exact ⟨hs, fetching_of_none hhandle⟩
    · rename_i desc hdesc
      split
      · split_ifs with hempty
        · split
          · rename_i path _
            exact ih (h := h.emit (.createFile path)) (i + 1) (hs.emit fun _ _ heq => by cases heq) hhandle hrunning hnext
          · exact ih (i + 1) hs hhandle hrunning hnext
        · exact fetching_openNewWriter (fs n) (hs.setProgress _) hhandle hdesc hbound hempty hrunning
            rfl rfl
      · dsimp only
        split_ifs
        · exact ih (i + 1) hs hhandle hrunning hnext
        · exact ih (h := h.emit _) (i + 1) (hs.emit fun _ _ heq => by cases heq) hhandle hrunning hnext
      · exact ih (i + 1) hs hhandle hrunning hnext

theorem Sound.settle (hs : Sound task answers h) : Sound task answers h.settle := by
  unfold Handle.settle
  split_ifs
  · exact hs.setProgress _
  · exact hs

theorem progress_setProgress (h : Handle) (p : Progress) : (h.setProgress p).progress = p := rfl

theorem fileHandle_settle (h : Handle) : h.settle.progress.fileHandle = h.progress.fileHandle := by
  unfold Handle.settle
  by_cases hnone : h.progress.fileHandle.isNone = true
  · rw [if_pos hnone, progress_setProgress]
  · rw [if_neg hnone]

theorem Fetching.settle (hf : Fetching task answers h) : Fetching task answers h.settle := by
  cases hhandle : h.progress.fileHandle with
  | none =>
    apply fetching_of_none
    rw [fileHandle_settle, hhandle]
  | some path =>
    have hopen : h.settle = h := by
      unfold Handle.settle
      rw [hhandle]
      rfl
    rw [hopen]
    exact hf

theorem settled_both {r : Except CliprdrError Unit × Handle} (hs : Sound task answers r.2)
    (hf : Fetching task answers r.2) :
    Sound task answers (Handle.settled r).2 ∧ Fetching task answers (Handle.settled r).2 := by
  obtain ⟨e | _, g⟩ := r
  · exact ⟨hs, hf⟩
  · exact ⟨hs.settle, hf.settle⟩

/-- `update_next` goes on with the next file of the list. -/
theorem fetching_next (fs : Nat → PasteFs) (hs : Sound task answers h)
    (hhandle : h.progress.fileHandle = none) (hrunning : h.progress.isCanceled = false) {first : Nat}
    (hfirst : h.progress.listIndex + 1 = first) :
    Sound task answers (Handle.settled (Handle.advance fs
        (asI32 h.files.length - (h.progress.listIndex + 1)).toNat (h.progress.listIndex + 1) h)).2 ∧
      Fetching task answers (Handle.settled (Handle.advance fs
        (asI32 h.files.length - (h.progress.listIndex + 1)).toNat (h.progress.listIndex + 1) h)).2 := by
  rw [hfirst]
  have hrest : ∀ n : Int, (first : Int) + (n - first).toNat ≤ n ∨ (n - first).toNat = 0 := by
    intro n
    omega
  have hloop := fetching_advance fs (asI32 h.files.length - first).toNat first hs hhandle hrunning
    (hrest _)
  exact settled_both hloop.1 hloop.2

theorem progress_renameDownload (h : Handle) (fs : PasteFs) :
    (h.renameDownload fs).progress.isCanceled = h.progress.isCanceled ∧
      (h.renameDownload fs).progress.listIndex = h.progress.listIndex := by
  unfold Handle.renameDownload
  split
  · exact ⟨rfl, rfl⟩
  · split
    · exact ⟨rfl, rfl⟩
    · dsimp only
      split_ifs <;> exact ⟨rfl, rfl⟩

theorem progress_onDone (h : Handle) (fs : PasteFs) :
    (h.onDone fs).progress.isCanceled = h.progress.isCanceled ∧
      (h.onDone fs).progress.listIndex = h.progress.listIndex := by
  have hprogress : h.updateProgressCompleted.removeProgressCompleted.progress = h.progress := by
    rw [progress_removeProgressCompleted, progress_updateProgressCompleted]
  unfold Handle.onDone
  dsimp only
  split
  · rw [hprogress]
    exact ⟨rfl, rfl⟩
  · split_ifs
    · rw [hprogress]
      exact ⟨rfl, rfl⟩
    · obtain ⟨hcanceled, hindex⟩ := progress_renameDownload _ fs
      rw [hcanceled, hindex]
      change h.updateProgressCompleted.removeProgressCompleted.progress.isCanceled = _ ∧
        h.updateProgressCompleted.removeProgressCompleted.progress.listIndex = _
      rw [hprogress]
      exact ⟨rfl, rfl⟩

/-- `update_next` at the start of a task. -/
theorem fetching_first (fs : Nat → PasteFs) (done : PasteFs) (hs : Sound task answers h)
    (hhandle : h.progress.fileHandle = none) (hrunning : h.progress.isCanceled = false)
    (hstart : h.progress.listIndex = -1) :
    Sound task answers (h.updateNext fs done 0).2 ∧ Fetching task answers (h.updateNext fs done 0).2 := by
  unfold Handle.updateNext
  split_ifs with hfinished
  · exact ⟨hs, fetching_of_none hhandle⟩
  · dsimp only
    rw [progress_setProgress, hstart]
    simp only [BEq.rfl, Bool.true_or, if_true, Handle.nextFile]
    have hfirst : (-1 : Int) + 1 = (0 : Nat) := rfl
    exact fetching_next fs (hs.setProgress _) hhandle hrunning hfirst

theorem Filling.setSizes (hf : Filling task answers h path index file) (currentSize offset size : Nat) :
    Filling task answers (h.setProgress { h.progress with
      currentSize, offset, downloadFileCurrentSize := size }) path index file :=
  { hf with
    running := hf.running
    listIndex := hf.listIndex
    downloadFileIndex := hf.downloadFileIndex
    downloadFileSize := hf.downloadFileSize
    downloadFilePath := hf.downloadFilePath }

theorem fetching_continueFile {size : Nat} (hs : Sound task answers h)
    (hhandle : h.progress.fileHandle = some path) (hf : Filling task answers h path index file)
    (hoffset : h.progress.offset + size = (written h.log path).length)
    (hless : h.progress.offset + size < file.size) (hsmall : file.size < 2 ^ 64) :
    Sound task answers (h.continueFile size) ∧ Fetching task answers (h.continueFile size) := by
  unfold Handle.continueFile
  dsimp only
  refine ⟨(hs.setProgress _).updateProgressCompleted.settle, Fetching.settle ?_⟩
  intro path' hpath'
  rw [progress_updateProgressCompleted, progress_setProgress] at hpath'
  cases hhandle.symm.trans hpath'
  refine ⟨index, file, (hf.setSizes _ _ _).updateProgressCompleted, ?_, ?_⟩
  · rw [progress_updateProgressCompleted, progress_setProgress, written_updateProgressCompleted]
    change (h.progress.offset + size) % 2 ^ 64 = (written h.log path).length
    omega
  · rw [progress_updateProgressCompleted, progress_setProgress]
    change (h.progress.offset + size) % 2 ^ 64 < file.size
    omega

/-- `update_next` when a block has been written. -/
theorem fetching_block (fs : Nat → PasteFs) {done : PasteFs} {size : Nat} (hs : Sound task answers h)
    (hrunning : h.isFinished = false) (hhandle : h.progress.fileHandle = some path)
    (hf : Filling task answers h path index file)
    (hoffset : h.progress.offset + size = (written h.log path).length)
    (hfits : (written h.log path).length ≤ file.size) (hflush : done.flush = none) :
    Sound task answers (h.updateNext fs done size).2 ∧
      Fetching task answers (h.updateNext fs done size).2 := by
  have hsmall := hs.small file (List.mem_of_getElem? hf.listed)
  have hstart : (h.progress.listIndex == -1) = false := by
    rw [hf.listIndex]
    simp
  have hnext := hs.setProgress { h.progress with
    currentSize := (h.progress.currentSize + size) % 2 ^ 64 }
  have hfnext := hf.setSizes ((h.progress.currentSize + size) % 2 ^ 64) h.progress.offset
    h.progress.downloadFileCurrentSize
  unfold Handle.updateNext
  rw [hrunning]
  simp only [Bool.false_eq_true, if_false, progress_setProgress, hstart, Bool.false_or]
  by_cases hfull : h.progress.downloadFileSize ≤ (h.progress.offset + size) % 2 ^ 64
  · have hsize : (written h.log path).length = file.size := by
      rw [hf.downloadFileSize] at hfull
      omega
    have hdone := hnext.onDone hflush fun path' hpath' => by
      cases hhandle.symm.trans hpath'
      exact ⟨index, file, hfnext, hsize⟩
    obtain ⟨hcanceled, hlist⟩ := progress_onDone (h.setProgress { h.progress with
      currentSize := (h.progress.currentSize + size) % 2 ^ 64 }) done
    rw [progress_setProgress, hf.listIndex] at hlist
    simp only [hfull, decide_true, if_true, Handle.nextFile, Bool.false_eq_true, if_false]
    exact fetching_next fs hdone.1 hdone.2 (hcanceled.trans hf.running) (congrArg (· + 1) hlist)
  · have hless : h.progress.offset + size < file.size := by
      rw [hf.downloadFileSize] at hfull
      omega
    simp only [hfull, decide_false, Bool.false_eq_true, if_false]
    exact fetching_continueFile hnext hhandle hfnext hoffset hless hsmall

/-! ### A response, and the next request -/

theorem cbRequested_blockRequest {offset : Nat} (hsmall : file.size < 2 ^ 64)
    (hoffset : offset ≤ file.size) :
    cbRequested (blockRequest index file offset) ≤ file.size - offset := by
  have hsub : (BitVec.ofNat 64 file.size - BitVec.ofNat 64 offset).toNat = file.size - offset := by
    rw [BitVec.toNat_sub_of_le, BitVec.toNat_ofNat, BitVec.toNat_ofNat,
      Nat.mod_eq_of_lt hsmall, Nat.mod_eq_of_lt (hoffset.trans_lt hsmall)]
    rw [BitVec.le_def, BitVec.toNat_ofNat, BitVec.toNat_ofNat, Nat.mod_eq_of_lt hsmall,
      Nat.mod_eq_of_lt (hoffset.trans_lt hsmall)]
    exact hoffset
  simp only [blockRequest, Clipboard.sendFileContentsRequest, cbRequested, hsub, BitVec.toNat_ofNat]
  exact (Nat.mod_le _ _).trans (min_le_right _ _)

/-- The answer to the request that was sent last is written to the open file. -/
theorem Filling.write {a : Answer} (hf : Filling task answers h path index file) (ha : a ∈ answers)
    (htask : a.task = task)
    (hrequest : a.request = blockRequest index file (written h.log path).length)
    (hsent : .request a.request ∈ h.log) :
    Filling task answers (h.emit (.write path a.data)) path index file := by
  have hwritten : written (h.emit (.write path a.data)).log path = written h.log path ++ a.data := by
    change written (h.log ++ [Effect.write path a.data]) path = _
    rw [written_append]
    simp [Effect.writes]
  refine { hf with parts := ?_ }
  rw [hwritten]
  have hlog : h.log ⊆ (h.emit (.write path a.data)).log := List.subset_append_left _ _
  exact .snoc (Parts.mono hlog (List.Subset.refl _) hf.parts) ha htask hrequest (hlog hsent)

theorem fetching_response (fs : Nat → PasteFs) {done : PasteFs}
    (failed : Option (Nat × FileIoError)) {a : Answer} (hs : Sound task answers h)
    (hask : Asking task answers h) (hrunning : h.isFinished = false) (hflush : done.flush = none)
    (ha : a ∈ answers) (htask : a.task = task) (hrequest : outstanding h.log = some a.request)
    (hlength : a.data.length ≤ cbRequested a.request) :
    Sound task answers (h.handleFileContentsResponse fs done failed a.data).2 ∧
      ((h.handleFileContentsResponse fs done failed a.data).1 = .ok () →
        Fetching task answers (h.handleFileContentsResponse fs done failed a.data).2) := by
  unfold Handle.handleFileContentsResponse
  cases hhandle : h.progress.fileHandle with
  | none => exact ⟨hs, nofun⟩
  | some path =>
    cases failed with
    | some failure => exact ⟨hs.emit nofun, nofun⟩
    | none =>
      obtain ⟨index, file, hf, hoffset, hless, hlast, hsent⟩ := hask path hhandle
      have hsmall := hs.small file (List.mem_of_getElem? hf.listed)
      have hblock : a.request = blockRequest index file h.progress.offset :=
        Option.some.inj (hrequest.symm.trans hlast)
      have hroom : a.data.length ≤ file.size - h.progress.offset :=
        (hblock ▸ hlength).trans (cbRequested_blockRequest hsmall hless.le)
      have hwritten : (written (h.emit (.write path a.data)).log path).length =
          h.progress.offset + a.data.length := by
        change (written (h.log ++ [Effect.write path a.data]) path).length = _
        rw [written_append, hoffset]
        simp [Effect.writes]
      have hnext : a.request = blockRequest index file (written h.log path).length := by
        rw [← hoffset]
        exact hblock
      have hsent' : .request a.request ∈ h.log := by
        rw [hblock]
        exact hsent
      have hboth := fetching_block fs (h := h.emit (.write path a.data)) (hs.emit nofun) hrunning
        hhandle (hf.write ha htask hnext hsent') hwritten.symm (by omega) hflush
      exact ⟨hboth.1, fun _ => hboth.2⟩

theorem asking_of_none (hhandle : h.progress.fileHandle = none) : Asking task answers h := by
  intro path hpath
  exact absurd (hhandle.symm.trans hpath) nofun

theorem Sound.onError (hs : Sound task answers h) (e : CliprdrError) :
    Sound task answers (h.onError e) := (hs.setProgress _).onCancelled

theorem fileHandle_onError (h : Handle) (e : CliprdrError) :
    (h.onError e).progress.fileHandle = none := fileHandle_onCancelled _

theorem asking_sendNext (hs : Sound task answers h) (hf : Fetching task answers h)
    (hrunning : h.isFinished = false) :
    Sound task answers h.sendNext ∧ Asking task answers h.sendNext := by
  cases hfile : h.files[usizeOfI32 h.progress.listIndex]? with
  | none =>
    have heq : h.sendNext = h.onError (.invalidRequest ("Invalid file index: " ++
        toString h.progress.listIndex)) := by
      simp only [Handle.sendNext, Handle.sendFileContentsRequest, hrunning, hfile,
        Bool.false_eq_true, if_false]
    rw [heq]
    exact ⟨hs.onError _, asking_of_none (fileHandle_onError _ _)⟩
  | some f =>
    have heq : h.sendNext = h.emit (.request (Clipboard.sendFileContentsRequest
        (BitVec.ofInt 32 h.progress.listIndex) (BitVec.ofNat 64 f.size)
        (BitVec.ofNat 64 h.progress.offset))) := by
      simp only [Handle.sendNext, Handle.sendFileContentsRequest, hrunning, hfile,
        Bool.false_eq_true, if_false]
    rw [heq]
    refine ⟨hs.emit nofun, ?_⟩
    intro path hpath
    obtain ⟨index, file, hfill, hoffset, hless⟩ := hf path hpath
    rw [hfill.listIndex, usizeOfI32_of_lt hfill.bound, hfill.listed] at hfile
    obtain rfl := Option.some.inj hfile
    rw [hfill.listIndex]
    refine ⟨index, _, hfill.emit rfl, ?_, hless, ?_, ?_⟩
    · change h.progress.offset = (written (h.log ++ [_]) path).length
      rw [written_append]
      exact hoffset
    · exact outstanding_append ..
    · exact List.mem_append_right _ List.mem_cons_self

theorem running_of_open (hf : Fetching task answers h) (hhandle : h.progress.fileHandle = some path)
    (herror : h.progress.error = none) : h.isFinished = false := by
  obtain ⟨index, file, hfill, -, -⟩ := hf path hhandle
  have hbound : ¬ asI32 h.files.length ≤ h.progress.listIndex := by
    rw [hfill.listIndex]
    exact not_le.mpr hfill.bound
  simp [Handle.isFinished, hfill.running, herror, hbound]

theorem Sound.onFinished (hs : Sound task answers h) (hf : Fetching task answers h)
    (hfinished : h.isFinished = true) (fs : PasteFs) :
    Sound task answers (h.onFinished fs) ∧ (h.onFinished fs).progress.fileHandle = none := by
  have hend : Sound task answers (if h.progress.error.isSome then h.onCancelled else h.onDone fs) ∧
      (if h.progress.error.isSome then h.onCancelled else h.onDone fs).progress.fileHandle = none := by
    split_ifs with herror
    · exact ⟨hs.onCancelled, fileHandle_onCancelled h⟩
    · have hclosed : h.progress.fileHandle = none := by
        cases hhandle : h.progress.fileHandle with
        | none => rfl
        | some path =>
          have hrunning := running_of_open hf hhandle (by simpa using herror)
          rw [hfinished] at hrunning
          exact absurd hrunning nofun
      rw [onDone_none fs hclosed, progress_removeProgressCompleted, progress_updateProgressCompleted]
      exact ⟨hs.updateProgressCompleted.removeProgressCompleted, hclosed⟩
  unfold Handle.onFinished
  dsimp only
  generalize (if h.progress.error.isSome = true then h.onCancelled else h.onDone fs) = g at hend ⊢
  split_ifs
  · exact ⟨hend.1.setProgress _, hend.2⟩
  · exact hend

theorem Fetching.setError (hf : Fetching task answers h) (e : CliprdrError) :
    Fetching task answers (h.setProgress { h.progress with error := some e }) := by
  intro path hpath
  obtain ⟨index, file, hfill, hoffset, hless⟩ := hf path hpath
  refine ⟨index, file, ?_, hoffset, hless⟩
  exact { hfill with
    running := hfill.running
    listIndex := hfill.listIndex
    downloadFileIndex := hfill.downloadFileIndex
    downloadFileSize := hfill.downloadFileSize
    downloadFilePath := hfill.downloadFilePath }

/-! ### The tasks of a run -/

/-- A task between two events. -/
structure Kept (task : Nat) (answers : List Answer) (h : Handle) : Prop where
  sound : Sound task answers h
  asking : Asking task answers h

theorem Kept.mono (hanswers : answers ⊆ answers') (hk : Kept task answers h) :
    Kept task answers' h := by
  refine ⟨hk.sound.mono hanswers, ?_⟩
  intro path hpath
  obtain ⟨index, file, hfill, hrest⟩ := hk.asking path hpath
  exact ⟨index, file, hfill.mono hanswers, hrest⟩

theorem Kept.fetching (hk : Kept task answers h) : Fetching task answers h := by
  intro path hpath
  obtain ⟨index, file, hfill, hoffset, hless, -⟩ := hk.asking path hpath
  exact ⟨index, file, hfill, hoffset, hless⟩

theorem Kept.of_closed (hs : Sound task answers h) (hhandle : h.progress.fileHandle = none) :
    Kept task answers h := ⟨hs, asking_of_none hhandle⟩

/-- All tasks by their numbers. -/
def Inv (w : PasteWatch) : Prop :=
  ∀ task h, w.paste.tasks[task]? = some h → Kept task w.answers h

variable {s : PasteTask}

theorem tasks_handle (hh : s.handle = some h) : s.tasks[s.past.length]? = some h := by
  simp [PasteTask.tasks, hh]

theorem kept_append {tasks : List Handle} {g : Handle}
    (hs : ∀ task h, tasks[task]? = some h → Kept task answers h) (hg : Kept tasks.length answers g) :
    ∀ task h, (tasks ++ [g])[task]? = some h → Kept task answers h := by
  intro task h htask
  rw [List.getElem?_append] at htask
  split_ifs at htask with hold
  · exact hs task h htask
  · rw [List.getElem?_singleton] at htask
    split_ifs at htask with hzero
    have hnumber : task = tasks.length := by omega
    rw [hnumber, ← Option.some.inj htask]
    exact hg

theorem kept_replace (hs : ∀ task h, s.tasks[task]? = some h → Kept task answers h) {g : Handle}
    (hg : Kept s.past.length answers g) :
    ∀ task h, (s.past ++ [g])[task]? = some h → Kept task answers h := by
  refine kept_append ?_ hg
  intro task h htask
  have hlt : task < s.past.length := (List.getElem?_eq_some_iff.mp htask).1
  refine hs task h ?_
  rw [PasteTask.tasks, List.getElem?_append_left hlt]
  exact htask

theorem kept_proceed (hs : ∀ task h, s.tasks[task]? = some h → Kept task answers h) {g : Handle}
    (hg : Sound s.past.length answers g)
    (hf : Fetching s.past.length answers g) (finished : PasteFs) (retryCount : Nat) :
    ∀ task h, (s.proceed finished retryCount g).tasks[task]? = some h → Kept task answers h := by
  unfold PasteTask.proceed
  cases hfinished : g.isFinished with
  | true =>
    obtain ⟨hend, hclosed⟩ := hg.onFinished hf hfinished finished
    exact kept_replace hs (Kept.of_closed hend hclosed)
  | false =>
    obtain ⟨hsent, hask⟩ := asking_sendNext hg hf hfinished
    exact kept_replace hs ⟨hsent, hask⟩

theorem kept_onContents {connId msgFlags streamId : BitVec 32} {data : Bytes} {fs : Nat → PasteFs}
    {done finished : PasteFs} {failed : Option (Nat × FileIoError)} {a : Answer}
    (hs : ∀ task h, s.tasks[task]? = some h → Kept task answers h) (hdata : a.data = data)
    (ha : a ∈ answers) (hanswered : ∀ h ∈ s.handle, h.Accepts connId msgFlags streamId →
      a.task = s.past.length ∧ outstanding h.log = some a.request ∧
        data.length ≤ cbRequested a.request ∧ done.flush = none) :
    ∀ task h, (s.onContents connId msgFlags streamId data fs done finished failed).tasks[task]? =
      some h → Kept task answers h := by
  unfold PasteTask.onContents
  split
  · exact hs
  · rename_i h hh
    have hk := hs s.past.length h (tasks_handle hh)
    split_ifs with hfinished hstream hflags
    · exact hs
    · exact hs
    · -- a response that says the block could not be read: the request is repeated
      dsimp only
      split_ifs
      · exact kept_proceed hs (hk.sound.setProgress _) (hk.fetching.setError _) finished _
      · exact kept_proceed hs hk.sound hk.fetching finished _
    · split
      · exact hs
      · rename_i file hfile
        split_ifs with hconn
        · exact hs
        · have haccepts : h.Accepts connId msgFlags streamId :=
            ⟨by simpa using hfinished, by simpa using hstream, by simpa using hflags, file, hfile,
              by simpa using hconn⟩
          obtain ⟨htask, hrequest, hlength, hflush⟩ := hanswered h hh haccepts
          subst hdata
          have hboth := fetching_response fs failed hk.sound hk.asking haccepts.1 hflush ha htask
            hrequest hlength
          generalize h.handleFileContentsResponse fs done failed a.data = r at hboth ⊢
          obtain ⟨e | _, g⟩ := r
          · exact kept_proceed hs (hboth.1.onError e) (fetching_of_none (fileHandle_onError g e))
              finished _
          · exact kept_proceed hs hboth.1 (hboth.2 rfl) finished _

theorem kept_onTimeout (hs : ∀ task h, s.tasks[task]? = some h → Kept task answers h) (late : Bool)
    (finished : PasteFs) :
    ∀ task h, (s.onTimeout late finished).tasks[task]? = some h → Kept task answers h := by
  unfold PasteTask.onTimeout
  split
  · exact hs
  · rename_i h hh
    have hk := hs s.past.length h (tasks_handle hh)
    split_ifs
    · have hfinished : (h.setProgress { h.progress with
          error := some (.invalidRequest "Failed to read file contents") }).isFinished = true := by
        simp [Handle.isFinished, progress_setProgress]
      obtain ⟨hend, hclosed⟩ := (hk.sound.setProgress _).onFinished (hk.fetching.setError _) hfinished
        finished
      exact kept_replace hs (Kept.of_closed hend hclosed)
    · exact hs

theorem kept_cancel (hs : ∀ task h, s.tasks[task]? = some h → Kept task answers h) :
    ∀ task h, s.cancel.tasks[task]? = some h → Kept task answers h := by
  unfold PasteTask.cancel
  cases hh : s.handle with
  | none =>
    intro task h htask
    refine hs task h ?_
    rw [PasteTask.tasks, hh]
    exact htask
  | some h =>
    have hk := hs s.past.length h (tasks_handle hh)
    have hclosed : Kept s.past.length answers
        (h.setProgress { h.progress with isCanceled := true }).onCancelled :=
      Kept.of_closed (hk.sound.setProgress _).onCancelled (fileHandle_onCancelled _)
    exact kept_replace hs hclosed

theorem kept_begin (done : PasteFs) (hs : Sound task answers h) (hf : Fetching task answers h) :
    Kept task answers (if h.isFinished then h.onFinished done else h.sendNext) := by
  cases hfinished : h.isFinished with
  | true =>
    obtain ⟨hend, hclosed⟩ := hs.onFinished hf hfinished done
    exact Kept.of_closed hend hclosed
  | false =>
    obtain ⟨hsent, hask⟩ := asking_sendNext hs hf hfinished
    exact ⟨hsent, hask⟩

theorem Sound.newHandle (targetDir : String) {files : List FileDescription}
    (hsmall : ∀ f ∈ files, f.size < 2 ^ 64) :
    Sound task answers (PasteTask.newHandle targetDir files) := by
  refine ⟨hsmall, ?_⟩
  intro before src dst after hlog
  rw [PasteTask.newHandle] at hlog
  exact absurd hlog.symm (by simp)

theorem kept_start (hs : ∀ task h, s.tasks[task]? = some h → Kept task answers h)
    (fs : Nat → PasteFs) (done : PasteFs) (targetDir : String) {files : List FileDescription}
    (hsmall : ∀ f ∈ files, f.size < 2 ^ 64) :
    ∀ task h, (s.start fs done targetDir files).tasks[task]? = some h → Kept task answers h := by
  unfold PasteTask.start
  split_ifs with hbusy
  · exact hs
  · have hnew : Sound s.tasks.length answers (PasteTask.newHandle targetDir files) :=
      Sound.newHandle targetDir hsmall
    have hfirst := fetching_first fs done hnew (by rw [PasteTask.newHandle])
      (by rw [PasteTask.newHandle]) (by rw [PasteTask.newHandle])
    exact kept_append hs (kept_begin done hfirst.1 hfirst.2)

/-! ### The sizes on a list -/

theorem size_lt_of_parse {connId : BitVec 32} {record : Bytes} {desc : FileDescription}
    (hparse : Clipboard.parseFileDescriptor connId record = .ok desc) : desc.size < 2 ^ 64 := by
  have hhigh := Clipboard.field_lt record 64 4
  have hlow := Clipboard.field_lt record 68 4
  rw [(Clipboard.parseFileDescriptor_ok hparse).size]
  omega

theorem size_lt_of_parseRecords {connId : BitVec 32} {n : Nat} {data : Bytes}
    {files : List FileDescription} (hparse : Clipboard.parseRecords connId n data = .ok files) :
    ∀ f ∈ files, f.size < 2 ^ 64 := by
  induction n generalizing data files with
  | zero =>
    rw [← Except.ok.inj hparse]
    exact nofun
  | succ n ih =>
    unfold Clipboard.parseRecords at hparse
    split at hparse
    · cases hparse
    · rename_i desc hdesc
      split at hparse
      · cases hparse
      · rename_i descs hdescs
        rw [← Except.ok.inj hparse]
        intro f hf
        rcases List.mem_cons.mp hf with rfl | hf
        · exact size_lt_of_parse hdesc
        · exact ih hdescs f hf

theorem size_lt_of_parseFileDescriptors {pdu : Bytes} {connId : BitVec 32}
    {files : List FileDescription}
    (hparse : Clipboard.parseFileDescriptors pdu connId = .ok files) :
    ∀ f ∈ files, f.size < 2 ^ 64 := by
  unfold Clipboard.parseFileDescriptors at hparse
  dsimp only at hparse
  split_ifs at hparse
  · rw [← Except.ok.inj hparse]
    exact nofun
  · exact size_lt_of_parseRecords hparse

/-! ### Runs -/

theorem inv_step {w : PasteWatch} {a : Arrival} (hw : Inv w) (ha : w.Answered a) : Inv (w.step a) := by
  have hanswers : w.answers ⊆ (w.step a).answers := List.subset_append_left _ _
  have hkept : ∀ task h, w.paste.tasks[task]? = some h → Kept task (w.step a).answers h := by
    intro task h htask
    exact (hw task h htask).mono hanswers
  obtain ⟨event, task, request⟩ := a
  cases event with
  | formatData targetDir pdu connId fs done =>
    unfold Inv
    cases hparse : Clipboard.parseFileDescriptors pdu connId with
    | error e =>
      have hpaste : w.paste.step (.formatData targetDir pdu connId fs done) = w.paste := by
        simp only [PasteTask.step, hparse]
      simp only [PasteWatch.step, hpaste]
      exact hkept
    | ok files =>
      have hpaste : w.paste.step (.formatData targetDir pdu connId fs done) =
          w.paste.start fs done targetDir files := by
        simp only [PasteTask.step, hparse]
      simp only [PasteWatch.step, hpaste]
      exact kept_start hkept fs done targetDir (size_lt_of_parseFileDescriptors hparse)
  | contents connId msgFlags streamId data fs done finished failed =>
    exact kept_onContents (a := ⟨task, request, data⟩) hkept rfl
      (List.mem_append_right _ List.mem_cons_self) ha
  | timeout late finished => exact kept_onTimeout hkept late finished
  | cancel => exact kept_cancel hkept

theorem Inv.intact {w : PasteWatch} (hw : Inv w) : w.Intact := by
  intro task h htask _ _ _
  exact (hw task h htask).sound.moved

/-- A file that was moved is not empty, so there was an answer to a request of its task. -/
theorem exists_answer {w : PasteWatch} (hw : w.Intact) (htask : w.paste.tasks[task]? = some h)
    (hfinished : h.isFinished) (herror : h.progress.error = none)
    (hcanceled : h.progress.isCanceled = false) (hmoved : .rename src dst ∈ h.log) :
    ∃ a ∈ w.answers, a.task = task := by
  obtain ⟨before, after, hlog⟩ := List.append_of_mem hmoved
  obtain ⟨index, file, ha⟩ :=
    hw task h htask hfinished herror hcanceled before src dst after hlog
  have hsize := ha.size
  have hparts := ha.parts
  generalize written before src = contents at hsize hparts
  cases hparts with
  | nil => exact absurd hsize.symm ha.nonempty
  | snoc _ hmem hnumber _ _ => exact ⟨_, hmem, hnumber⟩

end Delivery

/-- A task that ends well has moved only files that are what it asked for, if every response
that it took was the answer to its last request. -/
theorem pasted_intact {arrivals : List Arrival}
    (h : History.Guarded PasteWatch.step PasteWatch.Answered {} arrivals) :
    History.Throughout PasteWatch.step PasteWatch.Intact {} arrivals := by
  have hinit : Delivery.Inv {} := by
    intro task h htask
    exact absurd htask (by simp [PasteTask.tasks])
  have hinv : History.Throughout PasteWatch.step Delivery.Inv {} arrivals :=
    History.throughout_of_guarded (fun _ _ => Delivery.inv_step) hinit h
  exact History.throughout_imp (fun _ => Delivery.Inv.intact) hinv

def listed (size : Nat) (name : String) : Arrival where
  event := .formatData "/tmp/t" (PasteTask.listOf [PasteTask.record 0x80 size name]) 1
    (fun _ => {}) {}

/-- The peer answers the request of a task for the whole of its only file. -/
def answered (task : Nat) (data : Bytes) : Arrival where
  event := .contents 1 1 0 data (fun _ => {}) {} {} none
  task
  request := .fileContentsRequest 0 0 2 0 0 3 false 0

theorem pasted_intact_fetched :
    .rename "/tmp/t/a.txt.rddownload" "/tmp/t/a.txt" ∈ ((History.run PasteWatch.step {}
        [listed 3 "a.txt", answered 0 [1, 2, 3]]).paste.handle.map (·.log)).getD []
      ∧ History.Throughout PasteWatch.step PasteWatch.Intact {}
        [listed 3 "a.txt", answered 0 [1, 2, 3]] :=
  ⟨by decide +kernel, pasted_intact (by decide +kernel)⟩

/-- A task is given up while its request is on the way, and the answer arrives when the next
task waits for its own. -/
def overtaken : List Arrival :=
  [listed 3 "a.txt", { event := .cancel }, listed 3 "b.txt", answered 0 [1, 2, 3]]

theorem overtaken_mixed :
    ¬ ∀ arrivals, History.Throughout PasteWatch.step PasteWatch.Intact {} arrivals := by
  intro hall
  have hlast : (History.run PasteWatch.step {} overtaken).Intact :=
    History.throughout_last (hall overtaken)
  have hmoved : ∃ h ∈ (History.run PasteWatch.step {} overtaken).paste.tasks[1]?,
      h.isFinished ∧ h.progress.error = none ∧ h.progress.isCanceled = false ∧
        .rename "/tmp/t/b.txt.rddownload" "/tmp/t/b.txt" ∈ h.log := by
    decide +kernel
  have htasks : ∀ a ∈ (History.run PasteWatch.step {} overtaken).answers, a.task = 0 := by
    decide +kernel
  obtain ⟨h, htask, hfinished, herror, hcanceled, hrename⟩ := hmoved
  obtain ⟨a, ha, hone⟩ := Delivery.exists_answer hlast htask hfinished herror hcanceled hrename
  exact absurd ((htasks a ha).symm.trans hone) (by decide)

end RustDesk.Paste
