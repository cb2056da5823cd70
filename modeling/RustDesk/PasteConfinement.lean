import RustDesk.PasteTask

/-!
# Where pasted files go

A name that leads from the target directory to a place below it keeps all the paths of its
file there: the file it is fetched into, the directory of that file, the final name, and the
names with a number that are tried when the others are taken. Nothing checks the names.
-/

namespace RustDesk.Paste

open UnixPath (Inside Below lexical)
open Clipboard (FileDescription FileType CliprdrError)

/-- What is made, written or renamed to lies inside the directory. `create_dir_all` makes
every missing directory on the way from the target. -/
def Effect.Confined (targetDir : String) : Effect → Prop
  | .createDirAll path => Inside targetDir.toList path.toList ∧
      ∀ q, lexical targetDir.toList <+: lexical q → lexical q <+: lexical path.toList →
        Inside targetDir.toList q
  | .createFile path => Inside targetDir.toList path.toList
  | .setAttr path => Inside targetDir.toList path.toList
  | .write path _ => Inside targetDir.toList path.toList
  | .flush path _ => Inside targetDir.toList path.toList
  | .rename _ dst => Inside targetDir.toList dst.toList
  | .openWrite path => Inside targetDir.toList path.toList
  | .removeAttr _ => True
  | .remove _ => True
  | .request _ => True

/-- The name leads to a place below the directory. -/
def Safe (targetDir name : String) : Prop := Below targetDir.toList (join targetDir name).toList

instance decidableSafe (targetDir name : String) : Decidable (Safe targetDir name) :=
  inferInstanceAs (Decidable (Below _ _))

variable {targetDir path : String}

/-! ### The names that are tried -/

theorem sep_notMem_toDigits (i : Nat) : '/' ∉ Nat.toDigits 10 i := by
  intro h
  have hdigit := Nat.isDigit_of_mem_toDigits (by decide) (by decide) h
  exact absurd hdigit (by decide)

theorem below_parenthesized (h : Below targetDir.toList path.toList) (i : Nat) :
    Below targetDir.toList
      (path ++ String.ofList (' ' :: '(' :: (Nat.toDigits 10 i ++ [')']))).toList := by
  rw [String.toList_append, String.toList_ofList]
  apply h.append_suffix
  · simpa using sep_notMem_toDigits i
  · simp only [List.length_cons, List.length_append, List.length_nil]
    omega

theorem below_numbered (h : Below targetDir.toList path.toList) {kind : FileType} {i : Nat}
    {q : String} (hq : numbered path kind i = some q) : Below targetDir.toList q.toList := by
  unfold numbered at hq
  cases kind with
  | symlink => cases hq
  | directory =>
    cases hq
    exact below_parenthesized h i
  | file =>
    cases hext : UnixPath.extension path.toList with
    | none =>
      rw [hext] at hq
      cases hq
      exact below_parenthesized h i
    | some ext =>
      obtain ⟨stem, hstem, hne, hname, hsep, hsep'⟩ := UnixPath.extension_spec hext
      rw [hext, hstem] at hq
      cases hq
      rw [String.toList_ofList]
      apply h.withFileName hname
      · simpa [hsep, hsep'] using sep_notMem_toDigits i
      · have hlen : 0 < stem.length := List.length_pos_iff.mpr hne
        simp only [Option.getD_some, List.length_append, List.length_cons]
        omega

theorem below_firstFree (h : Below targetDir.toList path.toList) {used : String → Bool}
    {kind : FileType} {n i : Nat} {q : String} (hq : firstFree used path kind n i = some q) :
    Below targetDir.toList q.toList := by
  induction n generalizing i with
  | zero => cases hq
  | succ n ih =>
    unfold firstFree at hq
    cases hn : numbered path kind i with
    | none =>
      rw [hn] at hq
      cases hq
    | some q' =>
      rw [hn] at hq
      dsimp only at hq
      split_ifs at hq
      · exact ih hq
      · cases hq
        exact below_numbered h hn

theorem below_getFirstFilename (h : Below targetDir.toList path.toList) {used : String → Bool}
    {kind : FileType} {q : String} (hq : getFirstFilename used path kind = some q) :
    Below targetDir.toList q.toList := by
  unfold getFirstFilename at hq
  split_ifs at hq
  · exact below_firstFree h hq
  · cases hq
    exact h

theorem below_getNewFilename {fs : PasteFs} {desc : FileDescription} (h : Safe targetDir desc.name)
    {q : String} (hq : getNewFilename fs targetDir desc = some q) :
    Below targetDir.toList q.toList := by
  unfold getNewFilename at hq
  dsimp only at hq
  split_ifs at hq
  · exact below_getFirstFilename h hq
  · cases hq
    exact h

theorem below_download {desc : FileDescription} (h : Safe targetDir desc.name) :
    Below targetDir.toList (join targetDir desc.name ++ ".rddownload").toList := by
  rw [String.toList_append]
  exact h.append_suffix (by decide) (by decide)

/-! ### One task -/

/-- The names are safe, the file that is fetched lies in the directory, and so does all that
was done. -/
structure Good (h : Handle) : Prop where
  names : ∀ d ∈ h.files, Safe h.targetDir d.name
  download : h.progress.downloadFilePath ≠ "" →
    Below h.targetDir.toList h.progress.downloadFilePath.toList
  handle : ∀ path, h.progress.fileHandle = some path → Below h.targetDir.toList path.toList
  log : ∀ e ∈ h.log, e.Confined h.targetDir

variable {h : Handle}

theorem Good.emit (hg : Good h) {e : Effect} (he : e.Confined h.targetDir) : Good (h.emit e) := by
  refine ⟨hg.names, hg.download, hg.handle, fun x hx => ?_⟩
  rcases List.mem_append.mp hx with hx | hx
  · exact hg.log x hx
  · rw [List.mem_singleton.mp hx]
    exact he

theorem Good.setProgress (hg : Good h) {p : Progress}
    (hpath : p.downloadFilePath = "" ∨ p.downloadFilePath = h.progress.downloadFilePath)
    (hhandle : p.fileHandle = none ∨ p.fileHandle = h.progress.fileHandle) :
    Good (h.setProgress p) := by
  refine ⟨hg.names, fun hne => ?_, fun path hp => ?_, hg.log⟩
  · rcases hpath with hpath | hpath
    · exact absurd hpath hne
    · change Below h.targetDir.toList p.downloadFilePath.toList
      change p.downloadFilePath ≠ "" at hne
      rw [hpath] at hne ⊢
      exact hg.download hne
  · rcases hhandle with hhandle | hhandle
    · change p.fileHandle = some path at hp
      rw [hhandle] at hp
      cases hp
    · change p.fileHandle = some path at hp
      rw [hhandle] at hp
      exact hg.handle path hp

theorem Effect.confined_createDirAll (hp : Inside targetDir.toList path.toList) :
    (Effect.createDirAll path).Confined targetDir :=
  ⟨hp, fun _ hq hqp => hp.of_between hq hqp⟩

theorem Good.updateProgressCompleted (hg : Good h) : Good h.updateProgressCompleted := by
  unfold Handle.updateProgressCompleted
  split_ifs with hempty
  · exact hg
  · exact hg.emit (hg.download hempty).inside

theorem Good.removeProgressCompleted (hg : Good h) : Good h.removeProgressCompleted := by
  unfold Handle.removeProgressCompleted
  split_ifs
  · exact hg
  · exact hg.emit trivial

theorem Good.onCancelled (hg : Good h) : Good h.onCancelled := by
  have hclosed : Good (h.setProgress { h.progress with fileHandle := none }) :=
    hg.setProgress (.inr rfl) (.inl rfl)
  unfold Handle.onCancelled
  dsimp only
  split_ifs
  · exact hclosed
  · exact hclosed.emit trivial

theorem Good.setError (hg : Good h) (e : CliprdrError) :
    Good (h.setProgress { h.progress with error := some e }) :=
  hg.setProgress (.inr rfl) (.inr rfl)

theorem Good.onError (hg : Good h) (e : CliprdrError) : Good (h.onError e) :=
  (hg.setError e).onCancelled

theorem Good.renameDownload (hg : Good h) (fs : PasteFs) : Good (h.renameDownload fs) := by
  unfold Handle.renameDownload
  cases hdesc : h.files[usizeOfI32 h.progress.downloadFileIndex]? with
  | none => exact hg
  | some desc =>
    have hsafe := hg.names desc (List.mem_of_getElem? hdesc)
    dsimp only
    cases hpath : getNewFilename fs h.targetDir desc with
    | none => exact hg
    | some path =>
      have hin : Inside h.targetDir.toList path.toList := (below_getNewFilename hsafe hpath).inside
      have hrenamed : Good (h.emit (.rename h.progress.downloadFilePath path)) := hg.emit hin
      dsimp only
      split_ifs
      · have hopened : Good ((h.emit (.rename h.progress.downloadFilePath path)).emit (.openWrite path)) :=
          hrenamed.emit hin
        exact hopened.setProgress (.inl rfl) (.inr rfl)
      · exact hrenamed.setProgress (.inl rfl) (.inr rfl)

theorem Good.onDone (hg : Good h) (fs : PasteFs) : Good (h.onDone fs) := by
  have hattr := hg.updateProgressCompleted.removeProgressCompleted
  unfold Handle.onDone
  dsimp only
  generalize h.updateProgressCompleted.removeProgressCompleted = g at hattr
  cases hhandle : g.progress.fileHandle with
  | none => exact hattr
  | some path =>
    dsimp only
    split_ifs
    · exact hattr
    · have hflushed : Good (g.emit (.flush path fs.flush)) :=
        hattr.emit (hattr.handle path hhandle).inside
      have hclosed := hflushed.setProgress (p := { g.progress with fileHandle := none }) (.inr rfl)
        (.inl rfl)
      exact hclosed.renameDownload fs

theorem Good.onFinished (hg : Good h) (fs : PasteFs) : Good (h.onFinished fs) := by
  have hend : Good (if h.progress.error.isSome then h.onCancelled else h.onDone fs) := by
    split_ifs
    · exact hg.onCancelled
    · exact hg.onDone fs
  unfold Handle.onFinished
  dsimp only
  generalize (if h.progress.error.isSome = true then h.onCancelled else h.onDone fs) = g at hend ⊢
  split_ifs
  · exact hend.setError _
  · exact hend

theorem Good.createDownload (hg : Good h) (fs : PasteFs) {download : String}
    (hbelow : Below h.targetDir.toList download.toList) (size : Nat) :
    Good (h.createDownload fs download size) := by
  have hcreated : Good (h.emit (.createFile download)) := hg.emit hbelow.inside
  unfold Handle.createDownload
  dsimp only
  cases fs.createFile with
  | some e => exact hcreated.setError _
  | none =>
    have hopen : Good ((h.emit (.createFile download)).setProgress
        { (h.emit (.createFile download)).progress with
          downloadFileIndex := (h.emit (.createFile download)).progress.listIndex
          downloadFileSize := size
          downloadFilePath := download
          downloadFileCurrentSize := 0
          fileHandle := some download }) := by
      refine ⟨hcreated.names, fun _ => hbelow, fun path hpath => ?_, hcreated.log⟩
      cases hpath
      exact hbelow
    exact hopen.emit hbelow.inside

theorem Good.openNewWriter (hg : Good h) (fs : PasteFs) : Good (h.openNewWriter fs).2 := by
  unfold Handle.openNewWriter
  cases hfile : h.files[usizeOfI32 h.progress.listIndex]? with
  | none => exact hg
  | some file =>
    have hsafe := hg.names file (List.mem_of_getElem? hfile)
    dsimp only
    cases hdownload : getFirstFilename fs.used (join h.targetDir file.name ++ ".rddownload") file.kind with
    | none => exact hg
    | some download =>
      have hbelow := below_getFirstFilename (below_download hsafe) hdownload
      dsimp only
      cases hparent : UnixPath.parent download.toList with
      | none => exact hg
      | some parent =>
        have hin : Inside h.targetDir.toList (String.ofList parent).toList := by
          rw [String.toList_ofList]
          exact hbelow.parent hparent
        have hmade : Good (h.emit (.createDirAll (String.ofList parent))) :=
          hg.emit (Effect.confined_createDirAll hin)
        dsimp only
        split_ifs
        · exact hg.createDownload fs hbelow file.size
        · cases fs.createDirAll with
          | some e => exact hmade
          | none => exact hmade.createDownload fs hbelow file.size

theorem Good.advance (hg : Good h) (fs : Nat → PasteFs) (n : Nat) (i : Int) :
    Good (Handle.advance fs n i h).2 := by
  induction n generalizing h i with
  | zero => exact hg
  | succ n ih =>
    unfold Handle.advance
    cases hdesc : h.files[usizeOfI32 i]? with
    | none => exact hg
    | some desc =>
      have hsafe := hg.names desc (List.mem_of_getElem? hdesc)
      dsimp only
      cases desc.kind with
      | file =>
        dsimp only
        split_ifs
        · cases hpath : getNewFilename (fs n) h.targetDir desc with
          | none => exact ih hg (i + 1)
          | some path =>
            have hcreated : Good (h.emit (.createFile path)) :=
              hg.emit (below_getNewFilename hsafe hpath).inside
            exact ih hcreated (i + 1)
        · have hat : Good (h.setProgress { h.progress with listIndex := i, offset := 0 }) :=
            hg.setProgress (.inr rfl) (.inr rfl)
          exact hat.openNewWriter (fs n)
      | directory =>
        dsimp only
        split_ifs
        · exact ih hg (i + 1)
        · have hmade : Good (h.emit (.createDirAll (join h.targetDir desc.name))) :=
            hg.emit (Effect.confined_createDirAll hsafe.inside)
          exact ih hmade (i + 1)
      | symlink => exact ih hg (i + 1)

theorem Good.settle (hg : Good h) : Good h.settle := by
  unfold Handle.settle
  split_ifs
  · exact hg.setProgress (.inr rfl) (.inr rfl)
  · exact hg

theorem Good.settled {r : Except CliprdrError Unit × Handle} (hg : Good r.2) :
    Good (Handle.settled r).2 := by
  obtain ⟨e | _, k⟩ := r
  · exact hg
  · exact hg.settle

theorem Good.nextFile (hg : Good h) (fs : Nat → PasteFs) (done : PasteFs) (isStart : Bool) :
    Good (h.nextFile fs done isStart).2 := by
  have hdone : Good (if isStart then h else h.onDone done) := by
    split_ifs
    · exact hg
    · exact hg.onDone done
  -- the bounds of the loop are kept closed: to evaluate them is to count to `2 ^ 31`
  obtain ⟨n, i, heq⟩ : ∃ n i, h.nextFile fs done isStart =
      Handle.settled (Handle.advance fs n i (if isStart then h else h.onDone done)) := by
    unfold Handle.nextFile
    exact ⟨_, _, rfl⟩
  rw [heq]
  exact (hdone.advance fs n i).settled

theorem Good.continueFile (hg : Good h) (size : Nat) : Good (h.continueFile size) := by
  have hmoved : Good (h.setProgress { h.progress with
      offset := (h.progress.offset + size) % 2 ^ 64
      downloadFileCurrentSize := (h.progress.downloadFileCurrentSize + size) % 2 ^ 64 }) :=
    hg.setProgress (.inr rfl) (.inr rfl)
  exact hmoved.updateProgressCompleted.settle

theorem Good.updateNext (hg : Good h) (fs : Nat → PasteFs) (done : PasteFs) (size : Nat) :
    Good (h.updateNext fs done size).2 := by
  have hcounted : Good (h.setProgress
      { h.progress with currentSize := (h.progress.currentSize + size) % 2 ^ 64 }) :=
    hg.setProgress (.inr rfl) (.inr rfl)
  unfold Handle.updateNext
  dsimp only
  split_ifs
  · exact hg
  · exact hcounted.nextFile fs done _
  · exact hcounted.continueFile size

theorem Good.sendNext (hg : Good h) : Good h.sendNext := by
  have hsent : Good h.sendFileContentsRequest.2 := by
    unfold Handle.sendFileContentsRequest
    split_ifs
    · exact hg
    · cases h.files[usizeOfI32 h.progress.listIndex]? with
      | none => exact hg
      | some file => exact hg.emit trivial
  unfold Handle.sendNext
  generalize h.sendFileContentsRequest = r at hsent
  obtain ⟨e | _, k⟩ := r
  · exact hsent.onError e
  · exact hsent

theorem Good.handleFileContentsResponse (hg : Good h) (fs : Nat → PasteFs) (done : PasteFs)
    (failed : Option (Nat × Clipboard.FileIoError)) (data : Bytes) :
    Good (h.handleFileContentsResponse fs done failed data).2 := by
  unfold Handle.handleFileContentsResponse
  cases hfile : h.progress.fileHandle with
  | none => exact hg
  | some path =>
    have hin := (hg.handle path hfile).inside
    have hwritten : ∀ bytes, Good (h.emit (.write path bytes)) := fun _ => hg.emit hin
    cases failed with
    | some f => exact hwritten _
    | none => exact (hwritten data).updateNext fs done data.length

/-! ### Runs -/

namespace PasteTask

/-- The tasks there have been, the present one included. -/
def tasks (s : PasteTask) : List Handle := s.past ++ s.handle.toList

/-- Everything that any task has made, written or renamed to lies inside its directory. -/
def Confined (s : PasteTask) : Prop := ∀ h ∈ s.tasks, ∀ e ∈ h.log, e.Confined h.targetDir

def Inv (s : PasteTask) : Prop := ∀ h ∈ s.tasks, Good h

/-- Every name on a list that arrives leads to a place below the target directory. -/
def SafeNames (_ : PasteTask) : Event → Prop
  | .formatData targetDir pdu connId _ _ =>
    match Clipboard.parseFileDescriptors pdu connId with
    | .error _ => True
    | .ok files => ∀ d ∈ files, Safe targetDir d.name
  | _ => True

instance decidableSafeNames (s : PasteTask) : ∀ ev : Event, Decidable (SafeNames s ev)
  | .formatData targetDir pdu connId _ _ =>
    match h : Clipboard.parseFileDescriptors pdu connId with
    | .error _ => .isTrue (by simp only [SafeNames, h])
    | .ok files => decidable_of_iff (∀ d ∈ files, Safe targetDir d.name) (by simp only [SafeNames, h])
  | .contents .. => .isTrue trivial
  | .timeout .. => .isTrue trivial
  | .cancel => .isTrue trivial

variable {s : PasteTask}

theorem inv_iff : Inv s ↔ (∀ h ∈ s.past, Good h) ∧ ∀ h ∈ s.handle, Good h := by
  unfold Inv tasks
  rw [List.forall_mem_append]
  simp

theorem Inv.replace (hs : Inv s) {h : Handle} (hg : Good h) (retryCount : Nat) :
    Inv { s with handle := some h, retryCount } := by
  obtain ⟨hpast, -⟩ := inv_iff.mp hs
  refine inv_iff.mpr ⟨hpast, fun x hx => ?_⟩
  cases hx
  exact hg

theorem Inv.start (hs : Inv s) (fs : Nat → PasteFs) (done : PasteFs) {targetDir : String}
    {files : List FileDescription} (hsafe : ∀ d ∈ files, Safe targetDir d.name) :
    Inv (s.start fs done targetDir files) := by
  have hnew : Good (newHandle targetDir files) :=
    ⟨hsafe, fun hne => absurd rfl hne, fun path hp => (by cases hp), fun e he => (by cases he)⟩
  have hbegun := hnew.updateNext fs done 0
  unfold PasteTask.start
  dsimp only
  generalize ((newHandle targetDir files).updateNext fs done 0).2 = g at hbegun ⊢
  have hgood : Good (if g.isFinished then g.onFinished done else g.sendNext) := by
    split_ifs
    · exact hbegun.onFinished done
    · exact hbegun.sendNext
  generalize (if g.isFinished = true then g.onFinished done else g.sendNext) = k at hgood ⊢
  split_ifs
  · exact hs
  · refine inv_iff.mpr ⟨hs, fun x hx => ?_⟩
    cases hx
    exact hgood

theorem Inv.proceed (hs : Inv s) (finished : PasteFs) (retryCount : Nat) {h : Handle}
    (hg : Good h) : Inv (s.proceed finished retryCount h) := by
  unfold PasteTask.proceed
  split_ifs
  · exact hs.replace (hg.onFinished finished) 0
  · exact hs.replace hg.sendNext retryCount

theorem Inv.onContents (hs : Inv s) (connId msgFlags streamId : BitVec 32) (data : Bytes)
    (fs : Nat → PasteFs) (done finished : PasteFs)
    (failed : Option (Nat × Clipboard.FileIoError)) :
    Inv (s.onContents connId msgFlags streamId data fs done finished failed) := by
  unfold PasteTask.onContents
  cases hh : s.handle with
  | none => exact hs
  | some h =>
    have hg : Good h := (inv_iff.mp hs).2 h hh
    dsimp only
    split_ifs with hfin hstream hflags hretry
    · exact hs
    · exact hs
    · exact hs.proceed finished _ (hg.setError _)
    · exact hs.proceed finished _ hg
    · cases h.files[usizeOfI32 streamId.toInt]? with
      | none => exact hs
      | some file =>
        dsimp only
        split_ifs with hconn
        · exact hs
        · have hwritten := hg.handleFileContentsResponse fs done failed data
          generalize h.handleFileContentsResponse fs done failed data = r at hwritten
          obtain ⟨e | _, k⟩ := r
          · exact hs.proceed finished _ (hwritten.onError e)
          · exact hs.proceed finished _ hwritten

theorem Inv.onTimeout (hs : Inv s) (late : Bool) (finished : PasteFs) :
    Inv (s.onTimeout late finished) := by
  unfold PasteTask.onTimeout
  cases hh : s.handle with
  | none => exact hs
  | some h =>
    have hg : Good h := (inv_iff.mp hs).2 h hh
    dsimp only
    split_ifs
    · exact hs.replace ((hg.setError _).onFinished finished) 0
    · exact hs

theorem Inv.cancel (hs : Inv s) : Inv s.cancel := by
  obtain ⟨hpast, hhandle⟩ := inv_iff.mp hs
  refine inv_iff.mpr ⟨hpast, fun x hx => ?_⟩
  obtain ⟨h, hh, rfl⟩ := Option.map_eq_some_iff.mp hx
  have hmarked : Good (h.setProgress { h.progress with isCanceled := true }) :=
    (hhandle h hh).setProgress (.inr rfl) (.inr rfl)
  exact hmarked.onCancelled

theorem inv_step {ev : Event} (hs : Inv s) (hok : SafeNames s ev) : Inv (s.step ev) := by
  cases ev with
  | formatData targetDir pdu connId fs done =>
    dsimp only [step]
    dsimp only [SafeNames] at hok
    cases hparse : Clipboard.parseFileDescriptors pdu connId with
    | error e => exact hs
    | ok files =>
      rw [hparse] at hok
      exact hs.start fs done hok
  | contents connId msgFlags streamId data fs done finished failed =>
    exact hs.onContents connId msgFlags streamId data fs done finished failed
  | timeout late finished => exact hs.onTimeout late finished
  | cancel => exact hs.cancel

/-- In every run, whatever the file system answers: while every name on the lists leads to a
place below the target directory, all that is made, written or renamed to lies inside it. -/
theorem pastes_inside (evs : List Event) (hok : History.Guarded step SafeNames {} evs) :
    History.Throughout step Confined {} evs := by
  have hstart : Inv {} := fun h hh => (by cases hh)
  have hinv : History.Throughout step Inv {} evs :=
    History.throughout_of_guarded (fun s ev => inv_step) hstart hok
  exact History.throughout_imp (fun s hs h hh => (hs h hh).log) hinv

/-- A record of the list, its name in the Basic Multilingual Plane. -/
def record (attributes size : Nat) (name : String) : Bytes :=
  toLeBytes 4 Clipboard.flagsFdAttributes ++ List.replicate 32 0 ++ toLeBytes 4 attributes
    ++ List.replicate 28 0 ++ toLeBytes 4 size
    ++ name.toList.flatMap (fun c => toLeBytes 2 c.toNat)
    ++ List.replicate (520 - 2 * name.length) 0

def listOf (records : List Bytes) : Bytes := toLeBytes 4 records.length ++ records.flatten

/-- A directory and a file in it, which is fetched. -/
def fetched : List Event :=
  [.formatData "/tmp/t" (listOf [record 0x10 0 "d", record 0x80 3 "d\\a.txt"]) 1 (fun _ => {}) {},
   .contents 1 1 1 [1, 2, 3] (fun _ => {}) {} {} none]

theorem pastes_inside_fetched :
    .rename "/tmp/t/d/a.txt.rddownload" "/tmp/t/d/a.txt" ∈
        ((History.run step {} fetched).handle.map (·.log)).getD []
      ∧ History.Throughout step Confined {} fetched :=
  ⟨by decide +kernel, pastes_inside fetched (by decide +kernel)⟩

/-- A directory whose name leads out of the target. -/
def climbing : List Event :=
  [.formatData "/tmp/t" (listOf [record 0x10 0 "..\\evil"]) 1 (fun _ => {}) {}]

theorem climbing_made :
    (History.run step {} climbing).tasks.map (fun h => (h.targetDir, h.log)) =
      [("/tmp/t", [.createDirAll "/tmp/t/../evil"])] := by
  decide +kernel

theorem climbing_escapes : ¬ ∀ evs, History.Throughout step Confined {} evs := by
  intro hall
  have hlast : Confined (History.run step {} climbing) := History.throughout_last (hall climbing)
  have hmem : ("/tmp/t", [Effect.createDirAll "/tmp/t/../evil"]) ∈
      (History.run step {} climbing).tasks.map (fun h => (h.targetDir, h.log)) := by
    rw [climbing_made]
    exact List.mem_singleton_self _
  obtain ⟨h, hh, heq⟩ := List.mem_map.mp hmem
  obtain ⟨hdir, hlog⟩ := Prod.mk.inj heq
  have hin := hlast h hh (.createDirAll "/tmp/t/../evil") (by rw [hlog]; exact List.mem_singleton_self _)
  rw [hdir] at hin
  exact absurd hin.1 (by decide)

end PasteTask

end RustDesk.Paste
