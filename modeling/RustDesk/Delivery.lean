import RustDesk.ResumedEnds

/-!
# Writing the files of a job

What `write` and `modify_time` do to the disk, for a write job whose names have passed
`set_files`. A file is written to its download; when the next file begins, or the job is over,
`modify_time` puts the download of the file that the job is at in its place, whether it is
complete or not.
-/

namespace RustDesk

/-- A write job: where its files go, and which they are. -/
structure Delivery where
  receiver : Host
  base : String
  files : List FileEntry
  id : Int

namespace Delivery

variable (c : Delivery)

def entryAt (k : Nat) : FileEntry := c.files.getD k {}

def path (k : Nat) : String :=
  TransferJob.join (c.receiver.fs fun _ => none) c.base (c.entryAt k).name

def download (k : Nat) : String := c.path k ++ ".download"

def digest (k : Nat) : String := c.path k ++ ".digest"

/-- The names have passed the checks; the numbers of the files are 32 bits. -/
structure Valid : Prop where
  length_lt : c.files.length < 2 ^ 31
  join : ∀ k < c.files.length, TransferJob.joinValidatedPath (c.receiver.fs fun _ => none) c.base
    (c.entryAt k).name = .ok (c.path k)

def payload (block : FileTransferBlock) : Bytes :=
  if block.compressed then c.receiver.decompress block.data else block.data

def promote (k : Nat) (disk : Disk) : Disk :=
  ((disk.remove (c.digest k)).rename (c.download k) (c.path k)).setFileMtime (c.path k)
    (c.entryAt k).modifiedTime

def begin (k : Nat) (digest : FileDigest) (disk : Disk) : Disk :=
  ((disk.remove (c.digest k)).put (c.download k) { data := [], modified := c.receiver.now }).put
    (c.digest k) { data := c.receiver.digestJson digest, modified := c.receiver.now }

def stream (k pos : Nat) : Option DataStream :=
  some (.fileStream { path := c.download k, pos, writing := true })

structure Writes (w : TransferJob) : Prop where
  id : w.id = c.id
  type : w.type = .generic
  dataSource : w.dataSource = .filePath c.base
  files : w.files = c.files

variable {c} {w : TransferJob} {block : FileTransferBlock} {disk : Disk} {k : Nat}

theorem Writes.entry (hw : c.Writes w) (hk : usizeOfI32 w.fileNum = k) (hlt : k < c.files.length) :
    w.entry = some (c.entryAt k) := by
  rw [TransferJob.entry, hw.files, hk]
  exact Resumption.getElem?_getD {} hlt

theorem Writes.currentPath (hw : c.Writes w) (hc : c.Valid) (hk : usizeOfI32 w.fileNum = k)
    (hlt : k < c.files.length) :
    w.currentPath c.receiver disk = some (c.entryAt k, c.path k) := by
  have hjoin : TransferJob.joinValidatedPath (c.receiver.fs disk) c.base (c.entryAt k).name =
      .ok (c.path k) := hc.join k hlt
  simp only [TransferJob.currentPath, hw.type, hw.dataSource, hw.entry hk hlt,
    TransferJob.resolveEntryPath, if_true, hjoin]
  rfl

theorem Writes.modifyTime (hw : c.Writes w) (hc : c.Valid) (hk : usizeOfI32 w.fileNum = k)
    (hlt : k < c.files.length) : w.modifyTime c.receiver disk = c.promote k disk := by
  simp only [TransferJob.modifyTime, hw.currentPath hc hk hlt]
  rfl

theorem Writes.modifyTime_end (hw : c.Writes w) (hk : c.files.length ≤ usizeOfI32 w.fileNum) :
    w.modifyTime c.receiver disk = disk := by
  have hentry : w.entry = none := by
    rw [TransferJob.entry, hw.files]
    exact List.getElem?_eq_none hk
  simp only [TransferJob.modifyTime, TransferJob.currentPath, hw.type, hw.dataSource, hentry]

theorem writeStream_open (path : String) (pos : Nat)
    (hs : w.dataStream = some (.fileStream { path, pos, writing := true })) :
    w.writeStream c.receiver block disk =
      (none,
        { w with
          dataStream := some (.fileStream
            { path, pos := pos + (c.payload block).length, writing := true })
          finishedSize := w.finishedSize + (c.payload block).length
          transferred := w.transferred + block.data.length },
        disk.writeAt path pos (c.payload block) c.receiver.now) := by
  simp only [TransferJob.writeStream, hs, if_true, payload]

theorem Writes.write_next (hw : c.Writes w) (hid : block.id = c.id)
    (hk : usizeOfI32 block.fileNum = k) (hlt : k < c.files.length) (hb : w.beginsFile block = false) :
    w.write c.receiver block disk = w.writeStream c.receiver block disk := by
  have hentry : w.files[usizeOfI32 block.fileNum]? = some (c.entryAt k) := by
    rw [hw.files, hk]
    exact Resumption.getElem?_getD {} hlt
  have hid' : block.id = w.id := hid.trans hw.id.symm
  simp only [TransferJob.write, hid', ne_eq, not_true_eq_false, if_false, hw.dataSource, hentry, hb]
  rfl

/-- A block that begins file `k`: the file that the job was at is put in place first. -/
theorem Writes.write_first (hw : c.Writes w) (hc : c.Valid) (hid : block.id = c.id)
    (hk : usizeOfI32 block.fileNum = k) (hlt : k < c.files.length) (hb : w.beginsFile block = true) :
    w.write c.receiver block disk =
      (none,
        { w with
          fileNum := block.fileNum
          dataStream := c.stream k (c.payload block).length
          finishedSize := w.finishedSize + (c.payload block).length
          transferred := w.transferred + block.data.length },
        (c.begin k w.digest (w.modifyTime c.receiver disk)).writeAt (c.download k) 0
          (c.payload block) c.receiver.now) := by
  have hentry : w.files[usizeOfI32 block.fileNum]? = some (c.entryAt k) := by
    rw [hw.files, hk]
    exact Resumption.getElem?_getD {} hlt
  have hid' : block.id = w.id := hid.trans hw.id.symm
  have hjoin : ∀ d : Disk, TransferJob.joinValidatedPath (c.receiver.fs d) c.base
      (c.entryAt k).name = .ok (c.path k) := fun _ => hc.join k hlt
  have hbegin : w.beginFile c.receiver c.base (c.entryAt k) block.fileNum disk =
      (none, { w with fileNum := block.fileNum, dataStream := c.stream k 0 },
        c.begin k w.digest (w.modifyTime c.receiver disk)) := by
    simp only [TransferJob.beginFile, hw.type, hjoin]
    rfl
  simp only [TransferJob.write, hid', ne_eq, not_true_eq_false, if_false, hw.dataSource, hentry, hb,
    if_true, hbegin]
  rw [writeStream_open (c.download k) 0 rfl, Nat.zero_add]
  rfl

/-! ### The places of a file -/

theorem path_ne_download : c.path k ≠ c.download k := by
  intro h
  have hlen := congrArg String.length h
  have hsuffix : ".download".length = 9 := by decide
  rw [download, String.length_append, hsuffix] at hlen
  omega

theorem path_ne_digest : c.path k ≠ c.digest k := by
  intro h
  have hlen := congrArg String.length h
  have hsuffix : ".digest".length = 7 := by decide
  rw [digest, String.length_append, hsuffix] at hlen
  omega

theorem download_ne_digest {j : Nat} : c.download j ≠ c.digest k := by
  intro h
  have hlast := congrArg (fun s => s.toList.getLast?) h
  simp [download, digest, String.toList_append] at hlast

theorem promote_of_ne {p : String} (hpath : p ≠ c.path k) (hdownload : p ≠ c.download k)
    (hdigest : p ≠ c.digest k) : c.promote k disk p = disk p := by
  rw [promote, Disk.setFileMtime_of_ne _ hpath, Disk.rename_of_ne hdownload hpath,
    Disk.remove_of_ne hdigest]

theorem begin_of_ne {p : String} {digest : FileDigest} (hdownload : p ≠ c.download k)
    (hdigest : p ≠ c.digest k) : c.begin k digest disk p = disk p := by
  rw [begin, Disk.put_of_ne _ hdigest, Disk.put_of_ne _ hdownload, Disk.remove_of_ne hdigest]

theorem begin_download {digest : FileDigest} :
    c.begin k digest disk (c.download k) = some { data := [], modified := c.receiver.now } := by
  rw [begin, Disk.put_of_ne _ download_ne_digest, Disk.put_self]

theorem promote_path {file : DiskFile} (h : disk (c.download k) = some file) :
    c.promote k disk (c.path k) =
      some { file with modified := (c.entryAt k).modifiedTime, subsec := 0 } := by
  have hrenamed : (disk.remove (c.digest k)).rename (c.download k) (c.path k) (c.path k) =
      some file := Disk.rename_new (by rw [Disk.remove_of_ne download_ne_digest, h])
  rw [promote, Disk.setFileMtime, hrenamed]
  exact Disk.put_self _

theorem promote_download : c.promote k disk (c.download k) = none := by
  have hne : c.download k ≠ c.path k := path_ne_download.symm
  rw [promote, Disk.setFileMtime_of_ne _ hne, Disk.rename, Disk.remove_of_ne download_ne_digest]
  cases h : disk (c.download k) with
  | none =>
    dsimp only
    rw [Disk.remove_of_ne download_ne_digest, h]
  | some file =>
    dsimp only
    rw [Disk.put_of_ne _ hne]
    exact Function.update_self _ _ _

theorem promote_digest : c.promote k disk (c.digest k) = none := by
  have hne : c.digest k ≠ c.path k := path_ne_digest.symm
  rw [promote, Disk.setFileMtime_of_ne _ hne, Disk.rename_of_ne download_ne_digest.symm hne]
  exact Function.update_self _ _ _

end Delivery

namespace TransferJob

/-- The answer of a peer that wants every file from its beginning, if the job waits for one. -/
def confirmed (job : TransferJob) : TransferJob :=
  if job.awaitsConfirmation then job.setFileConfirmed true else job

/-- One turn of a sender: `open_data_stream`, the confirmation, and `read`. -/
def pull (fs : FileSystem) (job : TransferJob) : Option FileTransferBlock × TransferJob :=
  match job.openDataStream fs with
  | (.ok false, job) =>
    match job.confirmed.read fs with
    | (.ok block, job) => (block, job)
    | (.error _, job) => (none, job)
  | (_, job) => (none, job)

def pulls (fs : FileSystem) : Nat → TransferJob → List FileTransferBlock × TransferJob
  | 0, job => ([], job)
  | n + 1, job =>
    let (block, job) := job.pull fs
    let (blocks, job) := pulls fs n job
    (block.toList ++ blocks, job)

end TransferJob

end RustDesk
