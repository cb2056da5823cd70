import RustDesk.DeliveredFiles
import RustDesk.History

/-!
# Where partial files are seen

A write job under failing system calls, and what is found at the names of its files while it
runs. The content of a name is the old one or that of the source as long as `modify_time` only
ever meets complete downloads, and no block goes to a file that is already in place. Neither is
checked: `modify_time` runs whenever a file begins, also the first one, and a file that cannot
be begun leaves the stream of the one before it open under the new number.
-/

namespace RustDesk

/-- How the system calls of one `write` fail. What was written before a failure of the last one
is counted. -/
structure WriteIo where
  renameFails : Bool := false
  syncFails : Option String := none
  removeFails : Option String := none
  createFails : Option String := none
  writeFails : Option (Nat × String) := none
  deriving DecidableEq, Repr

namespace TransferJob

variable (host : Host) (job : TransferJob)

/-- `modify_time`, where the rename can fail. -/
def modifyTimeIo (renameFails : Bool) (disk : Disk) : Disk :=
  match job.currentPath host disk with
  | none => disk
  | some (e, path) =>
    let disk := disk.remove (path ++ ".digest")
    let disk := if renameFails then disk else disk.rename (path ++ ".download") path
    disk.setFileMtime path e.modifiedTime

/-- The open file, wherever it is after `modify_time`. -/
def renameStreamIo (renameFails : Bool) (disk : Disk) : Option DataStream :=
  if renameFails then job.dataStream else job.renameStream host disk

/-- Whether `sync_all` is called. -/
def syncs : Bool :=
  match job.dataStream with
  | some (.fileStream _) => true
  | _ => false

/-- The part of `write` that begins a file. -/
def beginFileIo (io : WriteIo) (p : String) (e : FileEntry) (fileNum : Int) (disk : Disk) :
    Option String × TransferJob × Disk :=
  let disk' := job.modifyTimeIo host io.renameFails disk
  let kept : TransferJob := { job with dataStream := job.renameStreamIo host io.renameFails disk }
  match if job.syncs then io.syncFails else none with
  | some err => (some err, kept, disk')
  | none =>
    let job : TransferJob := { kept with fileNum }
    let opened (path : String) : TransferJob :=
      { job with dataStream := some (.fileStream { path, pos := 0, writing := true }) }
    match job.type with
    | .printer =>
      match io.createFails with
      | some err => (some err, job, disk')
      | none => (none, opened p, disk'.put p { data := [], modified := host.now })
    | .generic =>
      match joinValidatedPath (host.fs disk') p e.name with
      | .error err => (some err, job, disk')
      | .ok path =>
        match if (disk' (path ++ ".digest")).isSome then io.removeFails else none with
        | some err => (some err, job, disk')
        | none =>
          let disk' := disk'.remove (path ++ ".digest")
          match io.createFails with
          | some err => (some err, job, disk')
          | none =>
            (none, opened (path ++ ".download"),
              (disk'.put (path ++ ".download") { data := [], modified := host.now }).put
                (path ++ ".digest") { data := host.digestJson job.digest, modified := host.now })

/-- The end of `write`, where `write_all` can fail part of the way. -/
def writeStreamIo (io : WriteIo) (block : FileTransferBlock) (disk : Disk) :
    Option String × TransferJob × Disk :=
  match io.writeFails with
  | none => job.writeStream host block disk
  | some (n, err) =>
    let tmp := (if block.compressed then host.decompress block.data else block.data).take n
    match job.dataStream with
    | some (.fileStream file) =>
      if file.writing then
        (some err,
          { job with dataStream := some (.fileStream { file with pos := file.pos + tmp.length }) },
          disk.writeAt file.path file.pos tmp host.now)
      else (some err, job, disk)
    | _ => job.writeStream host block disk

/-- `write` -/
def writeIo (io : WriteIo) (block : FileTransferBlock) (disk : Disk) :
    Option String × TransferJob × Disk :=
  if block.id ≠ job.id then (some "Wrong id", job, disk)
  else
    match job.dataSource with
    | .filePath p =>
      match job.files[usizeOfI32 block.fileNum]? with
      | none => (some "Wrong file number", job, disk)
      | some e =>
        if job.beginsFile block then
          match job.beginFileIo host io p e block.fileNum disk with
          | (some err, job, disk) => (some err, job, disk)
          | (none, job, disk) => job.writeStreamIo host io block disk
        else job.writeStreamIo host io block disk
    | .memoryCursor c =>
      let ds := job.dataStream.getD (.bufStream c 0)
      { job with dataStream := some ds }.writeStreamIo host io block disk

def removeDownloadFile (disk : Disk) : Disk :=
  match job.currentPath host disk with
  | none => disk
  | some (_, path) => (disk.remove (path ++ ".download")).remove (path ++ ".digest")

theorem modifyTimeIo_false (disk : Disk) :
    job.modifyTimeIo host false disk = job.modifyTime host disk := by
  rfl

theorem beginFileIo_none (p : String) (e : FileEntry) (fileNum : Int) (disk : Disk) :
    job.beginFileIo host {} p e fileNum disk = job.beginFile host p e fileNum disk := by
  unfold beginFileIo beginFile
  simp only [modifyTimeIo_false, ite_self]
  rfl

/-- When no call fails, this is the `write` of before. -/
theorem writeIo_none (block : FileTransferBlock) (disk : Disk) :
    job.writeIo host {} block disk = job.write host block disk := by
  unfold writeIo write
  simp only [beginFileIo_none]
  rfl

end TransferJob

/-! ### Runs -/

structure Receiving where
  job : Option TransferJob
  disk : Disk

inductive ReceiveEvent
  | block (block : FileTransferBlock) (io : WriteIo)
  | confirm (r : SendConfirm)
  | setDigest (size modified : Nat)
  | done (renameFails : Bool)
  | cancel

namespace Delivery

variable (c : Delivery) (content : String → Bytes) (before : Disk)

def receive (s : Receiving) (ev : ReceiveEvent) : Receiving :=
  match s.job with
  | none => s
  | some w =>
    match ev with
    | .block block io =>
      let r := w.writeIo c.receiver io block s.disk
      { job := some r.2.1, disk := r.2.2 }
    | .confirm r => { s with job := w.confirm (c.receiver.fs s.disk) r }
    | .setDigest size modified => { s with job := some (w.setDigest size modified) }
    | .done renameFails => { job := none, disk := w.modifyTimeIo c.receiver renameFails s.disk }
    | .cancel => { job := none, disk := w.removeDownloadFile c.receiver s.disk }

/-- A place beside the files of the job, where they are kept until they are complete. -/
def Beside (p : String) : Prop := ∃ k < c.files.length, p = c.download k ∨ p = c.digest k

/-- Each name has its old content or that of its source, and nothing but the files of the job
and what lies beside them has changed. -/
def Intact (disk : Disk) : Prop :=
  (∀ k < c.files.length,
    (disk (c.path k)).map DiskFile.data = (before (c.path k)).map DiskFile.data ∨
      (disk (c.path k)).map DiskFile.data = some (content (c.path k))) ∧
    ∀ p, ¬ c.Beside p → (∀ k < c.files.length, p ≠ c.path k) → disk p = before p

/-- No name of the job is where another one is kept. -/
def Apart : Prop := ∀ k < c.files.length, ¬ c.Beside (c.path k)

/-- The download of the file that the job is at is complete, if there is one. -/
def Ready (w : TransferJob) (disk : Disk) : Prop :=
  match w.currentPath c.receiver disk with
  | none => True
  | some (_, path) =>
    match disk (path ++ ".download") with
    | none => True
    | some file => file.data = content path

def NotInPlace (w : TransferJob) : Prop :=
  match w.dataStream with
  | some (.fileStream file) => ∀ k < c.files.length, file.path ≠ c.path k
  | _ => True

/-- A file begins, or the job ends, with a complete download only; and a block goes to a file
that is not in place yet. -/
def Proper (s : Receiving) (ev : ReceiveEvent) : Prop :=
  match s.job, ev with
  | some w, .block block io =>
    block.id = w.id → usizeOfI32 block.fileNum < c.files.length →
      if w.beginsFile block then io.renameFails = false → c.Ready content w s.disk
      else c.NotInPlace w
  | some w, .done renameFails => renameFails = false → c.Ready content w s.disk
  | _, _ => True

def Held (w : TransferJob) : Prop :=
  ∀ file, w.dataStream = some (.fileStream file) → file.writing = true →
    ∃ k < c.files.length, file.path = c.download k ∨ file.path = c.path k

structure Inv (s : Receiving) : Prop where
  intact : c.Intact content before s.disk
  writes : ∀ w, s.job = some w → c.Writes w
  held : ∀ w, s.job = some w → c.Held w

variable {c content before} {w : TransferJob} {disk disk' : Disk} {k : Nat}

instance decidableReady : Decidable (c.Ready content w disk) :=
  match hpath : w.currentPath c.receiver disk with
  | none => .isTrue (by rw [Ready, hpath]; trivial)
  | some (_, path) =>
    match hd : disk (path ++ ".download") with
    | none => .isTrue (by rw [Ready, hpath]; dsimp only; rw [hd]; trivial)
    | some file =>
      decidable_of_iff (file.data = content path) (by rw [Ready, hpath]; dsimp only; rw [hd])

instance decidableNotInPlace : Decidable (c.NotInPlace w) :=
  match hs : w.dataStream with
  | none => .isTrue (by rw [NotInPlace, hs]; trivial)
  | some (.bufStream _ _) => .isTrue (by rw [NotInPlace, hs]; trivial)
  | some (.fileStream file) =>
    decidable_of_iff (∀ k < c.files.length, file.path ≠ c.path k) (by rw [NotInPlace, hs])

instance decidableProper : ∀ (s : Receiving) (ev : ReceiveEvent), Decidable (c.Proper content s ev)
  | ⟨none, _⟩, .block _ _ => .isTrue trivial
  | ⟨none, _⟩, .done _ => .isTrue trivial
  | ⟨_, _⟩, .confirm _ => .isTrue (by unfold Proper; split <;> simp_all)
  | ⟨_, _⟩, .setDigest _ _ => .isTrue (by unfold Proper; split <;> simp_all)
  | ⟨_, _⟩, .cancel => .isTrue (by unfold Proper; split <;> simp_all)
  | ⟨some w, disk⟩, .block block io =>
    inferInstanceAs (Decidable (block.id = w.id → usizeOfI32 block.fileNum < c.files.length →
      if w.beginsFile block then io.renameFails = false → c.Ready content w disk
      else c.NotInPlace w))
  | ⟨some w, disk⟩, .done renameFails =>
    inferInstanceAs (Decidable (renameFails = false → c.Ready content w disk))

/-! ### What lies beside -/

def SameOff (c : Delivery) (disk disk' : Disk) : Prop := ∀ p, ¬ c.Beside p → disk' p = disk p

theorem SameOff.refl : c.SameOff disk disk := fun _ _ => rfl

theorem SameOff.trans {disk'' : Disk} (h : c.SameOff disk disk') (h' : c.SameOff disk' disk'') :
    c.SameOff disk disk'' :=
  fun p hp => (h' p hp).trans (h p hp)

theorem beside_download (hk : k < c.files.length) : c.Beside (c.download k) := ⟨k, hk, .inl rfl⟩

theorem beside_digest (hk : k < c.files.length) : c.Beside (c.digest k) := ⟨k, hk, .inr rfl⟩

theorem ne_of_beside {p q : String} (hp : ¬ c.Beside p) (hq : c.Beside q) : p ≠ q :=
  fun h => hp (h ▸ hq)

theorem sameOff_remove {q : String} (hq : c.Beside q) : c.SameOff disk (disk.remove q) :=
  fun _ hp => Disk.remove_of_ne (ne_of_beside hp hq)

theorem sameOff_put {q : String} (hq : c.Beside q) (file : DiskFile) : c.SameOff disk (disk.put q file) :=
  fun _ hp => Disk.put_of_ne file (ne_of_beside hp hq)

theorem sameOff_writeAt {q : String} (hq : c.Beside q) (pos now : Nat) (data : Bytes) :
    c.SameOff disk (disk.writeAt q pos data now) :=
  fun _ hp => Disk.writeAt_of_ne (ne_of_beside hp hq)

theorem Intact.sameOff (h : c.Intact content before disk) (ha : c.Apart)
    (hsame : c.SameOff disk disk') : c.Intact content before disk' := by
  refine ⟨fun k hk => ?_, fun p hp hne => ?_⟩
  · rw [hsame _ (ha k hk)]
    exact h.1 k hk
  · rw [hsame p hp]
    exact h.2 p hp hne

/-! ### Putting a file in place -/

theorem Writes.currentPath_cases (hw : c.Writes w) (hc : c.Valid) :
    w.currentPath c.receiver disk = none ∨
      ∃ k < c.files.length, w.currentPath c.receiver disk = some (c.entryAt k, c.path k) := by
  by_cases hlt : usizeOfI32 w.fileNum < c.files.length
  · exact .inr ⟨_, hlt, hw.currentPath hc rfl hlt⟩
  · left
    have hentry : w.entry = none := by
      rw [TransferJob.entry, hw.files]
      exact List.getElem?_eq_none (Nat.not_lt.mp hlt)
    simp only [TransferJob.currentPath, hw.type, hw.dataSource, hentry]

theorem Intact.at_path (h : c.Intact content before disk) (hk : k < c.files.length)
    (hother : ∀ p, p ≠ c.path k → ¬ c.Beside p → disk' p = disk p) (ha : c.Apart)
    (hdata : (disk' (c.path k)).map DiskFile.data = (disk (c.path k)).map DiskFile.data ∨
      (disk' (c.path k)).map DiskFile.data = some (content (c.path k))) :
    c.Intact content before disk' := by
  refine ⟨fun i hi => ?_, fun p hp hne => ?_⟩
  · by_cases hik : c.path i = c.path k
    · rw [hik]
      rcases hdata with hdata | hdata
      · rw [hdata]
        exact h.1 k hk
      · exact .inr hdata
    · rw [hother _ hik (ha i hi)]
      exact h.1 i hi
  · rw [hother p (hne k hk) hp]
    exact h.2 p hp hne

theorem intact_modifyTimeIo (hw : c.Writes w) (hc : c.Valid) (ha : c.Apart)
    (h : c.Intact content before disk) {renameFails : Bool}
    (hready : renameFails = false → c.Ready content w disk) :
    c.Intact content before (w.modifyTimeIo c.receiver renameFails disk) := by
  rcases hw.currentPath_cases hc with hpath | ⟨k, hk, hpath⟩
  · rw [TransferJob.modifyTimeIo, hpath]
    exact h
  · have hremoved : c.SameOff disk (disk.remove (c.digest k)) := sameOff_remove (beside_digest hk)
    have hne : c.download k ≠ c.digest k := download_ne_digest
    rw [TransferJob.modifyTimeIo, hpath]
    dsimp only
    change c.Intact content before
      ((if renameFails = true then disk.remove (c.digest k)
        else (disk.remove (c.digest k)).rename (c.download k) (c.path k)).setFileMtime (c.path k) _)
    apply h.at_path hk _ ha
    · rw [Disk.setFileMtime_data]
      split_ifs with hrename
      · exact .inl (congrArg _ (hremoved _ (ha k hk)))
      · have hcomplete := hready (Bool.eq_false_iff.mpr hrename)
        rw [Ready, hpath] at hcomplete
        dsimp only at hcomplete
        cases hd : disk (c.download k) with
        | none =>
          rw [Disk.rename_none (by rw [Disk.remove_of_ne hne, hd])]
          exact .inl (congrArg _ (hremoved _ (ha k hk)))
        | some file =>
          rw [Disk.rename_new (by rw [Disk.remove_of_ne hne, hd])]
          have hd' : disk (c.path k ++ ".download") = some file := hd
          rw [hd'] at hcomplete
          exact .inr (congrArg some hcomplete)
    · intro p hp hbeside
      rw [Disk.setFileMtime_of_ne _ hp]
      split_ifs
      · exact hremoved p hbeside
      · rw [Disk.rename_of_ne (ne_of_beside hbeside (beside_download hk)) hp]
        exact hremoved p hbeside

/-! ### Blocks -/

theorem Held.renamed (hh : c.Held w) (hw : c.Writes w) (hc : c.Valid) (renameFails : Bool) :
    c.Held { w with dataStream := w.renameStreamIo c.receiver renameFails disk } := by
  unfold TransferJob.renameStreamIo
  split_ifs
  · exact hh
  · intro file hfile hwriting
    have hfile' : w.renameStream c.receiver disk = some (.fileStream file) := hfile
    unfold TransferJob.renameStream at hfile'
    cases hs : w.dataStream with
    | none =>
      rw [hs] at hfile'
      cases hfile'
    | some ds =>
      cases ds with
      | bufStream data pos =>
        rw [hs] at hfile'
        cases hfile'
      | fileStream old =>
        rcases hw.currentPath_cases hc with hpath | ⟨k, hk, hpath⟩
        · rw [hs, hpath] at hfile'
          cases hfile'
          exact hh file hs hwriting
        · rw [hs, hpath] at hfile'
          dsimp only at hfile'
          split_ifs at hfile' with hold
          · cases hfile'
            exact ⟨k, hk, .inr rfl⟩
          · cases hfile'
            exact hh file hs hwriting

/-- What an operation of a write job leaves, when it does not touch a file in place. -/
structure Kept (c : Delivery) (disk : Disk) (r : Option String × TransferJob × Disk) : Prop where
  writes : c.Writes r.2.1
  held : c.Held r.2.1
  same : c.SameOff disk r.2.2

/-- A job that is about to write, or has failed to. -/
structure Begun (c : Delivery) (disk : Disk) (r : Option String × TransferJob × Disk) : Prop
    extends Kept c disk r where
  opened : r.1 = none → c.NotInPlace r.2.1

theorem begun_beginFileIo (hw : c.Writes w) (hc : c.Valid) (ha : c.Apart) (hh : c.Held w)
    (hk : k < c.files.length) (io : WriteIo) (fileNum : Int) (disk : Disk) :
    c.Begun (w.modifyTimeIo c.receiver io.renameFails disk)
      (w.beginFileIo c.receiver io c.base (c.entryAt k) fileNum disk) := by
  have hkept : c.Held { w with dataStream := w.renameStreamIo c.receiver io.renameFails disk } :=
    hh.renamed hw hc io.renameFails
  have hjoin : ∀ d : Disk, TransferJob.joinValidatedPath (c.receiver.fs d) c.base
      (c.entryAt k).name = .ok (c.path k) := fun _ => hc.join k hk
  have hfailed : ∀ (err : String) (w' : TransferJob) (d : Disk), c.Writes w' →
      w'.dataStream = w.renameStreamIo c.receiver io.renameFails disk →
      c.SameOff (w.modifyTimeIo c.receiver io.renameFails disk) d →
      c.Begun (w.modifyTimeIo c.receiver io.renameFails disk) (some err, w', d) :=
    fun err w' d hw' hs hd =>
      ⟨⟨hw', fun file hfile => hkept file (hs.symm.trans hfile), hd⟩, fun h => (by cases h)⟩
  have hremoved : ∀ d : Disk, c.SameOff d (d.remove (c.digest k)) :=
    fun _ => sameOff_remove (beside_digest hk)
  unfold TransferJob.beginFileIo
  dsimp only
  generalize (if w.syncs = true then io.syncFails else none) = sync
  cases sync with
  | some err => exact hfailed err _ _ ⟨hw.id, hw.type, hw.dataSource, hw.files⟩ rfl .refl
  | none =>
    simp only [hw.type, hjoin]
    split
    · exact hfailed _ _ _ ⟨hw.id, rfl, hw.dataSource, hw.files⟩ rfl .refl
    · cases io.createFails with
      | some err => exact hfailed err _ _ ⟨hw.id, rfl, hw.dataSource, hw.files⟩ rfl (hremoved _)
      | none =>
        refine ⟨⟨⟨hw.id, rfl, hw.dataSource, hw.files⟩, ?_, ?_⟩, fun _ => ?_⟩
        · intro file hfile _
          cases hfile
          exact ⟨k, hk, .inl rfl⟩
        · exact ((hremoved _).trans (sameOff_put (beside_download hk) _)).trans
            (sameOff_put (beside_digest hk) _)
        · intro i hi heq
          exact ha i hi (heq ▸ beside_download hk)

theorem Writes.of_eq (hw : c.Writes w) {w' : TransferJob} (hid : w'.id = w.id)
    (htype : w'.type = w.type) (hsource : w'.dataSource = w.dataSource) (hfiles : w'.files = w.files) :
    c.Writes w' :=
  ⟨hid.trans hw.id, htype.trans hw.type, hsource.trans hw.dataSource, hfiles.trans hw.files⟩

theorem kept_writeAt (hh : c.Held w) (hplace : c.NotInPlace w) {file : OpenFile}
    (hs : w.dataStream = some (.fileStream file)) (hwriting : file.writing = true)
    (err : Option String) {w' : TransferJob} (hw' : c.Writes w') {pos : Nat}
    (hs' : w'.dataStream = some (.fileStream { file with pos })) (data : Bytes) (now : Nat) :
    c.Kept disk (err, w', disk.writeAt file.path file.pos data now) := by
  obtain ⟨k, hk, hpath⟩ := hh file hs hwriting
  rw [NotInPlace, hs] at hplace
  have hdownload : file.path = c.download k := by
    rcases hpath with hpath | hpath
    · exact hpath
    · exact absurd hpath (hplace k hk)
  refine ⟨hw', fun file' hfile' _ => ?_, ?_⟩
  · cases hs'.symm.trans hfile'
    exact ⟨k, hk, .inl hdownload⟩
  · rw [hdownload]
    exact sameOff_writeAt (beside_download hk) _ _ _

theorem kept_writeStreamIo (hw : c.Writes w) (hh : c.Held w) (hplace : c.NotInPlace w)
    (io : WriteIo) (block : FileTransferBlock) (disk : Disk) :
    c.Kept disk (w.writeStreamIo c.receiver io block disk) := by
  have hsame : ∀ err : Option String, c.Kept disk (err, w, disk) := fun _ => ⟨hw, hh, .refl⟩
  have hplain : c.Kept disk (w.writeStream c.receiver block disk) := by
    unfold TransferJob.writeStream
    dsimp only
    cases hs : w.dataStream with
    | none => exact hsame _
    | some ds =>
      cases ds with
      | bufStream data pos =>
        exact ⟨hw.of_eq rfl rfl rfl rfl, fun file hfile => (by cases hfile), .refl⟩
      | fileStream file =>
        by_cases hwriting : file.writing = true
        · dsimp only
          rw [if_pos hwriting]
          apply kept_writeAt hh hplace hs hwriting
          · exact hw.of_eq rfl rfl rfl rfl
          · rfl
        · dsimp only
          rw [if_neg hwriting]
          exact hsame _
  unfold TransferJob.writeStreamIo
  cases io.writeFails with
  | none => exact hplain
  | some failure =>
    dsimp only
    cases hs : w.dataStream with
    | none => exact hplain
    | some ds =>
      cases ds with
      | bufStream data pos => exact hplain
      | fileStream file =>
        by_cases hwriting : file.writing = true
        · dsimp only
          rw [if_pos hwriting]
          apply kept_writeAt hh hplace hs hwriting
          · exact hw.of_eq rfl rfl rfl rfl
          · rfl
        · dsimp only
          rw [if_neg hwriting]
          exact hsame _

/-! ### The other operations -/

theorem kept_setStreamOffset (hw : c.Writes w) (hh : c.Held w) (hc : c.Valid) {n offset : Nat}
    {w' : TransferJob} (h : w.setStreamOffset (c.receiver.fs disk) n offset = some w') :
    c.Writes w' ∧ c.Held w' := by
  unfold TransferJob.setStreamOffset at h
  rw [hw.dataSource, hw.files] at h
  dsimp only at h
  cases hentry : c.files[n]? with
  | none =>
    rw [hentry] at h
    cases h
  | some e =>
    have hn : n < c.files.length := (List.getElem?_eq_some_iff.mp hentry).1
    have he : e = c.entryAt n := by
      rw [entryAt, List.getD_eq_getElem?_getD, hentry]
      rfl
    have hpath : w.resolveEntryPath (c.receiver.fs disk) c.base e.name = some (c.path n) := by
      have hjoin : TransferJob.joinValidatedPath (c.receiver.fs disk) c.base (c.entryAt n).name =
        .ok (c.path n) := hc.join n hn
      rw [he, TransferJob.resolveEntryPath, if_pos hw.type, hjoin]
      rfl
    rw [hentry] at h
    dsimp only at h
    rw [hpath] at h
    dsimp only [Host.fs_seek, Host.fs_openWrite] at h
    simp only [if_true, Option.isNone_none] at h
    split_ifs at h
    · cases h
      refine ⟨⟨hw.id, hw.type, rfl, rfl⟩, fun file hfile _ => ?_⟩
      cases hfile
      exact ⟨n, hn, .inl rfl⟩
    · cases h
      refine ⟨⟨hw.id, hw.type, rfl, rfl⟩, fun file hfile hwriting => ?_⟩
      cases hfile
      cases hwriting
    · cases h
      exact ⟨hw, hh⟩
    · cases h
      exact ⟨hw, hh⟩

theorem kept_confirm (hw : c.Writes w) (hh : c.Held w) (hc : c.Valid) {r : SendConfirm}
    {w' : TransferJob} (h : w.confirm (c.receiver.fs disk) r = some w') :
    c.Writes w' ∧ c.Held w' := by
  have hconfirmed : c.Writes (w.setFileConfirmed true) ∧ c.Held (w.setFileConfirmed true) :=
    ⟨hw.of_eq rfl rfl rfl rfl, hh⟩
  unfold TransferJob.confirm at h
  split_ifs at h with hnum
  · cases h
    exact ⟨hw, hh⟩
  · split at h
    · cases h
      exact ⟨hw.of_eq rfl rfl rfl rfl, fun file hfile => (by cases hfile)⟩
    · cases h
      exact hconfirmed
    · split_ifs at h
      · exact kept_setStreamOffset hconfirmed.1 hconfirmed.2 hc h
      · cases h
        exact hconfirmed
    · cases h
      exact ⟨hw, hh⟩

theorem sameOff_removeDownloadFile (hw : c.Writes w) (hc : c.Valid) (disk : Disk) :
    c.SameOff disk (w.removeDownloadFile c.receiver disk) := by
  rcases hw.currentPath_cases hc with hpath | ⟨k, hk, hpath⟩
  · rw [TransferJob.removeDownloadFile, hpath]
    exact .refl
  · rw [TransferJob.removeDownloadFile, hpath]
    exact (sameOff_remove (beside_download hk)).trans (sameOff_remove (beside_digest hk))

theorem intact_writeIo (hw : c.Writes w) (hh : c.Held w) (hc : c.Valid) (ha : c.Apart)
    (h : c.Intact content before disk) (io : WriteIo) (block : FileTransferBlock)
    (hok : block.id = w.id → usizeOfI32 block.fileNum < c.files.length →
      if w.beginsFile block then io.renameFails = false → c.Ready content w disk
      else c.NotInPlace w) :
    let r := w.writeIo c.receiver io block disk
    c.Intact content before r.2.2 ∧ c.Writes r.2.1 ∧ c.Held r.2.1 := by
  have hkept : ∀ {d r}, c.Intact content before d → c.Kept d r →
      c.Intact content before r.2.2 ∧ c.Writes r.2.1 ∧ c.Held r.2.1 :=
    fun hd hr => ⟨hd.sameOff ha hr.same, hr.writes, hr.held⟩
  have hsame : ∀ err, c.Kept disk (err, w, disk) := fun _ => ⟨hw, hh, .refl⟩
  dsimp only
  unfold TransferJob.writeIo
  rw [hw.dataSource, hw.files]
  dsimp only
  by_cases hid : block.id = w.id
  · rw [if_neg (not_not_intro hid)]
    by_cases hlt : usizeOfI32 block.fileNum < c.files.length
    · have hentry : c.files[usizeOfI32 block.fileNum]? = some (c.entryAt (usizeOfI32 block.fileNum)) := by
        exact Resumption.getElem?_getD {} hlt
      have hcond := hok hid hlt
      rw [hentry]
      dsimp only
      split_ifs at hcond ⊢ with hbegins
      · have hpromoted := intact_modifyTimeIo hw hc ha h hcond
        have hbegun := begun_beginFileIo hw hc ha hh hlt io block.fileNum disk
        generalize w.beginFileIo c.receiver io c.base (c.entryAt (usizeOfI32 block.fileNum))
          block.fileNum disk = r at hbegun
        obtain ⟨_ | err, w', disk'⟩ := r
        · have hstart := hpromoted.sameOff ha hbegun.same
          exact hkept hstart (kept_writeStreamIo hbegun.writes hbegun.held (hbegun.opened rfl) io block disk')
        · exact hkept hpromoted hbegun.toKept
      · exact hkept h (kept_writeStreamIo hw hh hcond io block disk)
    · rw [List.getElem?_eq_none (Nat.not_lt.mp hlt)]
      exact hkept h (hsame _)
  · rw [if_pos hid]
    exact hkept h (hsame _)

theorem inv_receive {s : Receiving} {ev : ReceiveEvent} (hc : c.Valid) (ha : c.Apart)
    (hs : c.Inv content before s) (hok : c.Proper content s ev) :
    c.Inv content before (c.receive s ev) := by
  unfold receive
  unfold Proper at hok
  cases hjob : s.job with
  | none => exact hs
  | some w =>
    have hw := hs.writes w hjob
    have hh := hs.held w hjob
    rw [hjob] at hok
    cases ev with
    | block block io =>
      obtain ⟨hintact, hw', hh'⟩ := intact_writeIo hw hh hc ha hs.intact io block hok
      refine ⟨hintact, fun x hx => ?_, fun x hx => ?_⟩
      · cases hx
        exact hw'
      · cases hx
        exact hh'
    | confirm r =>
      refine ⟨hs.intact, fun x hx => ?_, fun x hx => ?_⟩
      · exact (kept_confirm hw hh hc hx).1
      · exact (kept_confirm hw hh hc hx).2
    | setDigest size modified =>
      refine ⟨hs.intact, fun x hx => ?_, fun x hx => ?_⟩
      · cases hx
        exact hw.of_eq rfl rfl rfl rfl
      · cases hx
        exact hh
    | done renameFails =>
      refine ⟨intact_modifyTimeIo hw hc ha hs.intact hok, fun x hx => ?_, fun x hx => ?_⟩
      · cases hx
      · cases hx
    | cancel =>
      refine ⟨hs.intact.sameOff ha (sameOff_removeDownloadFile hw hc s.disk), fun x hx => ?_,
        fun x hx => ?_⟩
      · cases hx
      · cases hx

end Delivery

namespace FileTransfer

/-- What a receiver is given when nothing fails: the blocks of some turns of the sender. -/
def blocks (c : FileTransfer) (detection : Bool) (n : Nat) : List ReceiveEvent :=
  ((c.readJob detection).pulls (c.sender.fs c.source) n).1.map (.block · {})

theorem Sound.apart {c : FileTransfer} (hc : c.Sound) : c.Apart := by
  rintro k hk ⟨j, hj, hdownload | hdigest⟩
  · exact (hc.path_ne_beside hk hj).1 hdownload
  · exact (hc.path_ne_beside hk hj).2 hdigest

end FileTransfer

end RustDesk
