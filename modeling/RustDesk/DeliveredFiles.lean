import RustDesk.Delivery
import RustDesk.UnixPath
import RustDesk.BytesCodec

/-!
# A transfer delivers its files

The sender reads its files one after the other, a block at a time and an empty block at the end
of each; the receiver writes the blocks as they come and puts each file in place when it is at
the next one. The two are coupled by the number in the block only. When all blocks are written
and `modify_time` has been called once more, the files of the sender are at the receiver.
-/

namespace RustDesk

/-- A transfer: a write job, and the files as the sender has them. -/
structure FileTransfer extends Delivery where
  sender : Host
  source : Disk
  sourceBase : String
  sourceFiles : List FileEntry

namespace FileTransfer

variable (c : FileTransfer)

def sourcePath (k : Nat) : String :=
  TransferJob.join (c.sender.fs c.source) c.sourceBase (c.sourceFiles.getD k {}).name

def sourceFile (k : Nat) : DiskFile := (c.source (c.sourcePath k)).getD { data := [] }

def content (k : Nat) : Bytes := (c.sourceFile k).data

def sizeBefore (k : Nat) : Nat := ((List.range k).map fun i => (c.content i).length).sum

/-- A relative path is joined to a base by appending it, with a separator if there is need of
one. -/
def Appends (push : String → String → String) (base : String) (names : List String) : Prop :=
  ∃ sep, (sep = "" ∨ sep = "/" ∨ sep = "\\") ∧
    ∀ name ∈ names, name ≠ "" → push base name = base ++ sep ++ name

/-- The names are distinct, have passed the checks, and none is that of another file with a
suffix of the job; the files are at the sender, and the receiver can undo the compression. -/
structure Sound : Prop where
  length_lt : c.files.length < 2 ^ 31
  names : c.sourceFiles.map FileEntry.name = c.files.map FileEntry.name
  nodup : (c.files.map FileEntry.name).Nodup
  validated : ∀ e ∈ c.files, validateFileNameNoTraversal c.receiver.windows e.name = none
  noSymlinks : ∀ e ∈ c.files, TransferJob.validateNoSymlinkComponents
    (c.receiver.fs fun _ => none) c.base e.name = none
  unsuffixed : ∀ e ∈ c.files, ∀ e' ∈ c.files,
    e.name ≠ e'.name ++ ".download" ∧ e.name ≠ e'.name ++ ".digest"
  appends : Appends c.receiver.push c.base (c.files.map FileEntry.name)
  sourceExists : ∀ k < c.files.length, (c.source (c.sourcePath k)).isSome
  decompress_compress : ∀ data, c.receiver.decompress (c.sender.compress data) = data

variable {c} {i j k pos : Nat}

/-! ### Paths -/

theorem Sound.length_eq (hc : c.Sound) : c.sourceFiles.length = c.files.length := by
  simpa using congrArg List.length hc.names

theorem entryAt_mem (hk : k < c.files.length) : c.entryAt k ∈ c.files := by
  exact List.mem_of_getElem? (Resumption.getElem?_getD {} hk)

theorem Sound.valid (hc : c.Sound) : c.Valid where
  length_lt := hc.length_lt
  join k hk := by
    have hname := hc.validated _ (entryAt_mem hk)
    have hlinks := hc.noSymlinks _ (entryAt_mem hk)
    have hname' : validateFileNameNoTraversal (c.receiver.fs fun _ => none).windows
        (c.entryAt k).name = none := hname
    rw [TransferJob.joinValidatedPath, hname', hlinks]
    rfl

theorem Sound.source_eq (hc : c.Sound) (hk : k < c.files.length) :
    c.source (c.sourcePath k) = some (c.sourceFile k) := by
  obtain ⟨f, hf⟩ := Option.isSome_iff_exists.mp (hc.sourceExists k hk)
  rw [sourceFile, hf]
  rfl

theorem Sound.name_of_path (hc : c.Sound) (hi : i < c.files.length) (hj : j < c.files.length)
    {suffix : String} (hs : suffix = "" ∨ suffix = ".download" ∨ suffix = ".digest")
    (h : c.path i = c.path j ++ suffix) : (c.entryAt i).name = (c.entryAt j).name ++ suffix := by
  obtain ⟨sep, hsep, hpush⟩ := hc.appends
  have hpath : ∀ k < c.files.length, c.path k =
      if (c.entryAt k).name = "" then c.base else c.base ++ sep ++ (c.entryAt k).name := by
    intro k hk
    rw [Delivery.path, TransferJob.join]
    split_ifs with hempty
    · rfl
    · exact hpush _ (List.mem_map_of_mem (entryAt_mem hk)) hempty
  rw [hpath i hi, hpath j hj] at h
  have hlist := congrArg String.toList h
  apply String.toList_injective
  rw [String.toList_append]
  split_ifs at hlist with hempty hempty' hempty'
  · simpa [hempty, hempty'] using hlist
  · -- the base is no longer than what is joined to it
    have hname : (c.entryAt j).name.toList = [] := by
      simp only [String.toList_append, List.append_assoc, List.self_eq_append_right,
        List.append_eq_nil_iff] at hlist
      exact hlist.2.1
    exact absurd (String.toList_injective (by simpa using hname)) hempty'
  · -- a separator is not the beginning of a suffix
    have hcancel : sep.toList ++ (c.entryAt i).name.toList = suffix.toList := by
      simpa [String.toList_append] using hlist
    rw [hempty']
    rcases hsep with rfl | rfl | rfl
    · simpa using hcancel
    · rcases hs with rfl | rfl | rfl <;> simp at hcancel
    · rcases hs with rfl | rfl | rfl <;> simp at hcancel
  · simpa [String.toList_append] using hlist

def Place (c : FileTransfer) (k : Nat) (p : String) : Prop :=
  p = c.path k ∨ p = c.download k ∨ p = c.digest k

theorem place_path : c.Place k (c.path k) := .inl rfl

theorem place_download : c.Place k (c.download k) := .inr (.inl rfl)

theorem place_digest : c.Place k (c.digest k) := .inr (.inr rfl)

theorem entryAt_inj (hc : c.Sound) (hi : i < c.files.length) (hj : j < c.files.length)
    (h : (c.entryAt i).name = (c.entryAt j).name) : i = j := by
  have hname : ∀ k (hk : k < c.files.length), (c.files.map FileEntry.name)[k]? = some (c.entryAt k).name := by
    intro k hk
    rw [List.getElem?_map, Resumption.getElem?_getD {} hk]
    rfl
  have hi' : i < (c.files.map FileEntry.name).length := by simpa using hi
  apply (List.getElem?_inj hi' hc.nodup).mp
  rw [hname i hi, hname j hj, h]

theorem Sound.path_ne_beside (hc : c.Sound) (hi : i < c.files.length) (hj : j < c.files.length) :
    c.path i ≠ c.download j ∧ c.path i ≠ c.digest j := by
  obtain ⟨hdownload, hdigest⟩ := hc.unsuffixed _ (entryAt_mem hi) _ (entryAt_mem hj)
  exact ⟨fun h => hdownload (hc.name_of_path hi hj (.inr (.inl rfl)) h),
    fun h => hdigest (hc.name_of_path hi hj (.inr (.inr rfl)) h)⟩

theorem Sound.path_inj (hc : c.Sound) (hi : i < c.files.length) (hj : j < c.files.length)
    (h : c.path i = c.path j) : i = j := by
  have hname := hc.name_of_path hi hj (.inl rfl) (h.trans (String.append_empty).symm)
  exact entryAt_inj hc hi hj (hname.trans String.append_empty)

theorem Sound.place_inj (hc : c.Sound) (hi : i < c.files.length) (hj : j < c.files.length)
    {p : String} (h : c.Place i p) (h' : c.Place j p) : i = j := by
  have hbeside := fun {i j} hi hj => hc.path_ne_beside (i := i) (j := j) hi hj
  rcases h with rfl | rfl | rfl
  · rcases h' with h' | h' | h'
    · exact hc.path_inj hi hj h'
    · exact absurd h' (hbeside hi hj).1
    · exact absurd h' (hbeside hi hj).2
  · rcases h' with h' | h' | h'
    · exact absurd h'.symm (hbeside hj hi).1
    · exact hc.path_inj hi hj (String.append_left_inj _ |>.mp h')
    · exact absurd h' Delivery.download_ne_digest
  · rcases h' with h' | h' | h'
    · exact absurd h'.symm (hbeside hj hi).2
    · exact absurd h'.symm Delivery.download_ne_digest
    · exact hc.path_inj hi hj (String.append_left_inj _ |>.mp h')

/-! ### The sender -/

def opened (c : FileTransfer) (k pos : Nat) : Option DataStream :=
  some (.fileStream { path := c.sourcePath k, pos, writing := false })

def nextData (c : FileTransfer) (k pos : Nat) : Bytes := ((c.content k).drop pos).take bufSize

/-- The read job is at file `k` and has sent `pos` bytes of it. -/
structure Reading (c : FileTransfer) (job : TransferJob) (k pos : Nat) : Prop where
  id : job.id = c.id
  type : job.type = .generic
  dataSource : job.dataSource = .filePath c.sourceBase
  files : job.files = c.sourceFiles
  fileNum : job.fileNum = k
  finished : job.finishedSize = c.sizeBefore k + pos

structure Opening (c : FileTransfer) (job : TransferJob) (k : Nat) : Prop extends Reading c job k 0 where
  stream : job.dataStream = none

structure Sending (c : FileTransfer) (job : TransferJob) (k pos : Nat) : Prop
    extends Reading c job k pos where
  stream : job.dataStream = c.opened k pos
  confirmed : job.awaitsConfirmation = false

variable {job : TransferJob}

theorem Reading.entry (hr : c.Reading job k pos) (hc : c.Sound) (hk : k < c.files.length) :
    job.entry = some (c.sourceFiles.getD k {}) := by
  have hlt := hc.length_lt
  have hk' : k < c.sourceFiles.length := hc.length_eq.symm ▸ hk
  rw [TransferJob.entry, hr.fileNum, hr.files, usizeOfI32_natCast (by omega)]
  exact Resumption.getElem?_getD {} hk'

theorem Opening.turn_end (ho : c.Opening job c.files.length) (hc : c.Sound) :
    job.openDataStream (c.sender.fs c.source) = (.ok true, job) ∧
      job.pull (c.sender.fs c.source) = (none, job) := by
  have hlt := hc.length_lt
  have hentry : job.entry = none := by
    rw [TransferJob.entry, ho.fileNum, ho.files, usizeOfI32_natCast (by omega)]
    exact List.getElem?_eq_none (Nat.le_of_eq hc.length_eq)
  have hopen : job.openDataStream (c.sender.fs c.source) = (.ok true, job) := by
    simp only [TransferJob.openDataStream, ho.dataSource, hentry]
    rw [← ho.stream, ← ho.dataSource]
  exact ⟨hopen, by rw [TransferJob.pull, hopen]⟩

theorem awaits_confirmed : job.confirmed.awaitsConfirmation = false := by
  unfold TransferJob.confirmed
  split_ifs with h
  · simp [TransferJob.awaitsConfirmation, TransferJob.setFileConfirmed]
  · simpa using h

theorem Reading.confirmed (hr : c.Reading job k pos) (hs : job.dataStream = c.opened k pos) :
    c.Sending job.confirmed k pos := by
  refine ⟨?_, ?_, awaits_confirmed⟩
  · unfold TransferJob.confirmed
    split_ifs
    · exact ⟨hr.id, hr.type, hr.dataSource, hr.files, hr.fileNum, hr.finished⟩
    · exact hr
  · unfold TransferJob.confirmed
    split_ifs
    · exact hs
    · exact hs

theorem Opening.open (ho : c.Opening job k) (hc : c.Sound) (hk : k < c.files.length) :
    ∃ job', job.openDataStream (c.sender.fs c.source) = (.ok false, job') ∧
      c.Sending job'.confirmed k 0 := by
  have hname : (c.sender.fs c.source).openRead (TransferJob.join (c.sender.fs c.source) c.sourceBase
      (c.sourceFiles.getD k {}).name) = none := Host.fs_openRead (hc.source_eq hk)
  refine ⟨{ job with dataStream := c.opened k 0, fileConfirmed := false, fileIsWaiting := false }, ?_, ?_⟩
  · simp only [TransferJob.openDataStream, ho.dataSource, ho.entry hc hk, ho.stream, hname]
    rfl
  · exact Reading.confirmed ⟨ho.id, ho.type, ho.dataSource, ho.files, ho.fileNum, ho.finished⟩ rfl

theorem Sending.open (hs : c.Sending job k pos) (hc : c.Sound) (hk : k < c.files.length) :
    job.openDataStream (c.sender.fs c.source) = (.ok false, job) ∧ job.confirmed = job := by
  constructor
  · simp [TransferJob.openDataStream, hs.dataSource, hs.entry hc hk, hs.stream, opened]
  · rw [TransferJob.confirmed, hs.confirmed]
    rfl

structure Carries (c : FileTransfer) (block : FileTransferBlock) (k : Nat) (data : Bytes) : Prop where
  id : block.id = c.id
  fileNum : block.fileNum = k
  payload : c.payload block = data

theorem sizeBefore_succ : c.sizeBefore (k + 1) = c.sizeBefore k + (c.content k).length := by
  rw [sizeBefore, List.range_succ, List.map_append, List.sum_append]
  rfl

theorem Sending.carries_blockOf (hs : c.Sending job k pos) (hc : c.Sound) (hk : k < c.files.length)
    (name : Option String) (data : Bytes) :
    c.Carries (job.blockOf (c.sender.fs c.source) name data) k data := by
  have hlt := hc.length_lt
  have hnum : asI32 (usizeOfI32 (k : Int)) = k := by
    rw [usizeOfI32_natCast (by omega), asI32_natCast (by omega)]
  unfold TransferJob.blockOf
  split
  · exact ⟨hs.id, by simp only [hs.fileNum, hnum], rfl⟩
  · split_ifs
    · exact ⟨hs.id, by simp only [hs.fileNum, hnum], rfl⟩
    · exact ⟨hs.id, by simp only [hs.fileNum, hnum], hc.decompress_compress data⟩
    · exact ⟨hs.id, by simp only [hs.fileNum, hnum], rfl⟩

theorem length_nextData : (c.nextData k pos).length = min bufSize ((c.content k).length - pos) := by
  rw [nextData, List.length_take, List.length_drop]

theorem eq_length_of_nextData (hpos : pos ≤ (c.content k).length) (h : c.nextData k pos = []) :
    pos = (c.content k).length := by
  have hlen : 0 = min bufSize ((c.content k).length - pos) := by
    rw [← length_nextData, h]
    rfl
  have hbuf : bufSize = 131072 := by decide
  omega

/-- One `read`: the next bytes, or the end of the file. -/
theorem Sending.read (hs : c.Sending job k pos) (hc : c.Sound) (hk : k < c.files.length)
    (hpos : pos ≤ (c.content k).length) :
    ∃ block job', job.read (c.sender.fs c.source) = (.ok (some block), job') ∧
      c.Carries block k (c.nextData k pos) ∧
      (c.nextData k pos ≠ [] → c.Sending job' k (pos + (c.nextData k pos).length)) ∧
      (c.nextData k pos = [] → c.Opening job' (k + 1)) := by
  have hlt := hc.length_lt
  have hnum : asI32 (usizeOfI32 (k : Int)) = k := by
    rw [usizeOfI32_natCast (by omega), asI32_natCast (by omega)]
  have hloop : (DataStream.fileStream { path := c.sourcePath k, pos, writing := false }).readLoop
      (c.sender.fs c.source) bufSize [] = .ok (c.nextData k pos, .fileStream
        { path := c.sourcePath k
          pos := pos + (c.nextData k pos).length
          writing := false }) := DataStream.readLoop_disk (hc.source_eq hk) (bufSize - 2)
  simp only [TransferJob.read, hs.confirmed, hs.dataSource, hs.entry hc hk, TransferJob.readFrom,
    hs.stream, opened, hloop]
  cases hdata : c.nextData k pos with
  | nil =>
    have hend := eq_length_of_nextData hpos hdata
    have hnext : asI32 (job.fileNum + 1) = (k + 1 : Nat) := by
      rw [hs.fileNum]
      exact_mod_cast asI32_natCast (by omega)
    refine ⟨_, _, rfl, ⟨hs.id, by simp only [hs.fileNum, hnum], rfl⟩, fun h => absurd rfl h, fun _ => ⟨⟨hs.id, hs.type,
      hs.dataSource, hs.files, hnext, ?_⟩, rfl⟩⟩
    rw [sizeBefore_succ, Nat.add_zero, ← hend]
    exact hs.finished
  | cons a rest =>
    refine ⟨_, _, rfl, hs.carries_blockOf hc hk _ _, fun _ => ⟨⟨hs.id, hs.type, rfl, hs.files,
      hs.fileNum, ?_⟩, rfl, hs.confirmed⟩, fun h => absurd h (List.cons_ne_nil a rest)⟩
    rw [← Nat.add_assoc]
    exact congrArg (· + (a :: rest).length) hs.finished

/-- The sender has sent `pos` bytes of file `k`, and all files before. -/
def Sent (c : FileTransfer) (job : TransferJob) (k pos : Nat) : Prop :=
  k < c.files.length ∧ c.Sending job k pos ∨ pos = 0 ∧ c.Opening job k

/-- Where the sender is after the next block. -/
def Next (c : FileTransfer) (k pos : Nat) (P : Nat → Nat → Prop) : Prop :=
  (c.nextData k pos ≠ [] → P k (pos + (c.nextData k pos).length)) ∧
    (c.nextData k pos = [] → P (k + 1) 0)

theorem Sent.pull (h : c.Sent job k pos) (hc : c.Sound) (hk : k < c.files.length)
    (hpos : pos ≤ (c.content k).length) :
    ∃ block job', job.pull (c.sender.fs c.source) = (some block, job') ∧
      c.Carries block k (c.nextData k pos) ∧ c.Next k pos (c.Sent job') := by
  obtain ⟨job₁, hopen, hsending⟩ : ∃ job₁, job.openDataStream (c.sender.fs c.source) =
      (.ok false, job₁) ∧ c.Sending job₁.confirmed k pos := by
    rcases h with ⟨-, hs⟩ | ⟨rfl, ho⟩
    · obtain ⟨hopen, hconfirmed⟩ := hs.open hc hk
      exact ⟨job, hopen, hconfirmed.symm ▸ hs⟩
    · exact ho.open hc hk
  obtain ⟨block, job', hread, hcarries, hmore, hend⟩ := hsending.read hc hk hpos
  refine ⟨block, job', ?_, hcarries, fun h => .inl ⟨hk, hmore h⟩, fun h => .inr ⟨rfl, hend h⟩⟩
  rw [TransferJob.pull, hopen]
  dsimp only
  rw [hread]

theorem Sent.opening (h : c.Sent job c.files.length 0) : c.Opening job c.files.length := by
  rcases h with ⟨hlt, -⟩ | ⟨-, ho⟩
  · omega
  · exact ho

/-! ### The receiver -/

variable {before disk : Disk} {w : TransferJob}

/-- The file is in its place, and nothing is left beside it. -/
structure Placed (c : FileTransfer) (disk : Disk) (k : Nat) : Prop where
  path : disk (c.path k) = some { data := c.content k, modified := (c.entryAt k).modifiedTime }
  download : disk (c.download k) = none
  digest : disk (c.digest k) = none

def Elsewhere (c : FileTransfer) (before disk : Disk) : Prop :=
  ∀ p, (∀ k < c.files.length, ¬ c.Place k p) → disk p = before p

/-- The write job is at file `k` and has written `pos` bytes of it. -/
structure Holding (c : FileTransfer) (before : Disk) (w : TransferJob) (disk : Disk) (k pos : Nat) :
    Prop where
  lt : k < c.files.length
  writes : c.Writes w
  fileNum : w.fileNum = k
  stream : w.dataStream = c.stream k pos
  download : (disk (c.download k)).map DiskFile.data = some ((c.content k).take pos)
  placed : ∀ i < k, c.Placed disk i
  elsewhere : c.Elsewhere before disk
  finished : w.finishedSize = c.sizeBefore k + pos

structure Untouched (c : FileTransfer) (before : Disk) (w : TransferJob) (disk : Disk) : Prop where
  writes : c.Writes w
  fileNum : w.fileNum = 0
  stream : w.dataStream = none
  disk : disk = before
  finished : w.finishedSize = 0

/-- The receiver has got `pos` bytes of file `k`, and all files before. It is still at the file
before when nothing of file `k` has come. -/
def Got (c : FileTransfer) (before : Disk) (w : TransferJob) (disk : Disk) (k pos : Nat) : Prop :=
  c.Holding before w disk k pos ∨
    pos = 0 ∧ (k = 0 ∧ c.Untouched before w disk ∨
      ∃ j, k = j + 1 ∧ c.Holding before w disk j (c.content j).length)

theorem Placed.congr {disk' : Disk} (h : c.Placed disk k)
    (hsame : ∀ p, c.Place k p → disk' p = disk p) : c.Placed disk' k :=
  ⟨(hsame _ place_path).trans h.path, (hsame _ place_download).trans h.download,
    (hsame _ place_digest).trans h.digest⟩

theorem promote_elsewhere {p : String} (h : ¬ c.Place k p) : c.promote k disk p = disk p :=
  Delivery.promote_of_ne (fun hp => h (.inl hp)) (fun hp => h (.inr (.inl hp)))
    (fun hp => h (.inr (.inr hp)))

theorem begin_elsewhere {p : String} {digest : FileDigest} (h : ¬ c.Place k p) :
    c.begin k digest disk p = disk p :=
  Delivery.begin_of_ne (fun hp => h (.inr (.inl hp))) (fun hp => h (.inr (.inr hp)))

theorem writeAt_elsewhere {p : String} {pos now : Nat} {data : Bytes} (h : ¬ c.Place k p) :
    disk.writeAt (c.download k) pos data now p = disk p :=
  Disk.writeAt_of_ne fun hp => h (.inr (.inl hp))

theorem Holding.promote (hh : c.Holding before w disk j (c.content j).length) (hc : c.Sound) :
    w.modifyTime c.receiver disk = c.promote j disk ∧
      (∀ i < j + 1, c.Placed (c.promote j disk) i) ∧ c.Elsewhere before (c.promote j disk) := by
  have hlt := hc.length_lt
  have hj := hh.lt
  have hnum : usizeOfI32 w.fileNum = j := by
    rw [hh.fileNum, usizeOfI32_natCast (by omega)]
  obtain ⟨file, hfile, hdata⟩ := Option.map_eq_some_iff.mp hh.download
  rw [List.take_length] at hdata
  refine ⟨hh.writes.modifyTime hc.valid hnum hj, fun i hi => ?_, fun p hp => ?_⟩
  · by_cases hij : i = j
    · subst hij
      refine ⟨?_, Delivery.promote_download, Delivery.promote_digest⟩
      rw [Delivery.promote_path hfile, hdata]
    · apply (hh.placed i (by omega)).congr
      intro p hp
      exact promote_elsewhere fun hp' => hij (hc.place_inj (by omega) hj hp hp')
  · rw [promote_elsewhere (hp j hj)]
    exact hh.elsewhere p hp

/-- The first block of a file, on a disk where all files before are in place. -/
theorem begins (hw : c.Writes w) (hc : c.Sound) (hk : k < c.files.length)
    {block : FileTransferBlock} {data : Bytes} (hb : c.Carries block k data)
    (hbegins : w.beginsFile block = true) (hdata : data = (c.content k).take data.length)
    (hplaced : ∀ i < k, c.Placed (w.modifyTime c.receiver disk) i)
    (helse : c.Elsewhere before (w.modifyTime c.receiver disk))
    (hfinished : w.finishedSize = c.sizeBefore k) :
    ∃ w' disk', w.write c.receiver block disk = (none, w', disk') ∧
      c.Holding before w' disk' k data.length := by
  have hlt := hc.length_lt
  have hnum : usizeOfI32 block.fileNum = k := by
    rw [hb.fileNum, usizeOfI32_natCast (by omega)]
  have hwrite : w.write c.receiver block disk = _ := hw.write_first hc.valid hb.id hnum hk hbegins
  rw [hb.payload] at hwrite
  refine ⟨_, _, hwrite, hk, ⟨hw.id, hw.type, hw.dataSource, hw.files⟩, hb.fileNum, rfl, ?_, ?_, ?_, ?_⟩
  · rw [Disk.writeAt_self Delivery.begin_download, Option.map_some]
    dsimp only
    rw [← hdata]
    simp [PartialCopy.overwrite]
  · intro i hi
    apply (hplaced i hi).congr
    intro p hp
    have hp' : ¬ c.Place k p := fun hp' => absurd (hc.place_inj (by omega) hk hp hp') (by omega)
    rw [writeAt_elsewhere hp', begin_elsewhere hp']
  · intro p hp
    rw [writeAt_elsewhere (hp k hk), begin_elsewhere (hp k hk)]
    exact helse p hp
  · exact congrArg (· + data.length) hfinished

theorem nextData_take (hpos : pos ≤ (c.content k).length) :
    PartialCopy.overwrite 0 ((c.content k).take pos) pos (c.nextData k pos) =
      (c.content k).take (pos + (c.nextData k pos).length) := by
  have hcopy : PartialCopy.UpTo pos ((c.content k).take pos) (c.content k) :=
    PartialCopy.upTo_of_isPrefix (List.take_prefix _ _) (by rw [List.length_take]; omega)
  have hnext : PartialCopy.UpTo (pos + (c.nextData k pos).length)
      (PartialCopy.overwrite 0 ((c.content k).take pos) pos (c.nextData k pos)) (c.content k) :=
    hcopy.overwrite 0
  have hlen : (PartialCopy.overwrite 0 ((c.content k).take pos) pos (c.nextData k pos)).length =
      pos + (c.nextData k pos).length := by
    simp [PartialCopy.overwrite]
    omega
  have htake := hnext.take_eq
  rw [List.take_of_length_le] at htake
  · exact htake
  · exact Nat.le_of_eq hlen

theorem Holding.write (hh : c.Holding before w disk k pos) (hc : c.Sound)
    (hpos : pos ≤ (c.content k).length) {block : FileTransferBlock}
    (hb : c.Carries block k (c.nextData k pos)) :
    ∃ w' disk', w.write c.receiver block disk = (none, w', disk') ∧
      c.Holding before w' disk' k (pos + (c.nextData k pos).length) := by
  have hlt := hc.length_lt
  have hk := hh.lt
  have hnum : usizeOfI32 block.fileNum = k := by
    rw [hb.fileNum, usizeOfI32_natCast (by omega)]
  have hbegins : w.beginsFile block = false := by
    rw [TransferJob.beginsFile, hb.fileNum, hh.fileNum, hh.stream]
    simp [Delivery.stream]
  obtain ⟨file, hfile, hdata⟩ := Option.map_eq_some_iff.mp hh.download
  have hwrite : w.write c.receiver block disk = _ := hh.writes.write_next hb.id hnum hk hbegins
  rw [Delivery.writeStream_open (c.download k) pos hh.stream, hb.payload] at hwrite
  have hw := hh.writes
  refine ⟨_, _, hwrite, hk, ⟨hw.id, hw.type, hw.dataSource, hw.files⟩, hh.fileNum, rfl, ?_, ?_, ?_, ?_⟩
  · rw [Disk.writeAt_self hfile, hdata, Option.map_some, nextData_take hpos]
  · intro i hi
    apply (hh.placed i hi).congr
    intro p hp
    exact writeAt_elsewhere fun hp' => absurd (hc.place_inj (by omega) hk hp hp') (by omega)
  · intro p hp
    rw [writeAt_elsewhere (hp k hk)]
    exact hh.elsewhere p hp
  · rw [← Nat.add_assoc]
    exact congrArg (· + (c.nextData k pos).length) hh.finished

theorem Got.write (hg : c.Got before w disk k pos) (hc : c.Sound) (hk : k < c.files.length)
    (hpos : pos ≤ (c.content k).length) {block : FileTransferBlock}
    (hb : c.Carries block k (c.nextData k pos)) :
    ∃ w' disk', w.write c.receiver block disk = (none, w', disk') ∧
      c.Holding before w' disk' k (pos + (c.nextData k pos).length) := by
  have hlt := hc.length_lt
  have hfirst : c.nextData k 0 = (c.content k).take (c.nextData k 0).length := by
    simp [nextData]
  rcases hg with hh | ⟨rfl, ⟨rfl, hu⟩ | ⟨j, rfl, hh⟩⟩
  · exact hh.write hc hpos hb
  · have hnum : usizeOfI32 w.fileNum = 0 := by
      rw [hu.fileNum]
      rfl
    have hmodified : w.modifyTime c.receiver disk = c.promote 0 disk :=
      hu.writes.modifyTime hc.valid hnum hk
    rw [Nat.zero_add]
    apply begins hu.writes hc hk hb
    · rw [TransferJob.beginsFile, hu.stream]
      exact Bool.or_true _
    · exact hfirst
    · intro i hi
      omega
    · intro p hp
      rw [hmodified, promote_elsewhere (hp 0 hk), hu.disk]
    · exact hu.finished
  · obtain ⟨hmodified, hplaced, helse⟩ := hh.promote hc
    rw [Nat.zero_add]
    apply begins hh.writes hc hk hb
    · have hne : (j + 1 != j) = true := by simp
      rw [TransferJob.beginsFile, hb.fileNum, hh.fileNum, usizeOfI32_natCast (by omega),
        usizeOfI32_natCast (by omega), hne]
      exact Bool.true_or _
    · exact hfirst
    · rw [hmodified]
      exact hplaced
    · rw [hmodified]
      exact helse
    · rw [sizeBefore_succ]
      exact hh.finished

/-! ### The whole transfer -/

/-- The receiver writes the blocks, until one fails. -/
def writeAll (host : Host) :
    List FileTransferBlock → TransferJob → Disk → Option String × TransferJob × Disk
  | [], w, disk => (none, w, disk)
  | block :: blocks, w, disk =>
    match w.write host block disk with
    | (none, w, disk) => writeAll host blocks w disk
    | failed => failed

/-- The blocks that are still to come, counted generously. -/
def left (c : FileTransfer) (k pos : Nat) : Nat :=
  c.sizeBefore c.files.length - (c.sizeBefore k + pos) + (c.files.length - k)

theorem sizeBefore_mono (h : i ≤ j) : c.sizeBefore i ≤ c.sizeBefore j := by
  induction j with
  | zero =>
    obtain rfl : i = 0 := by omega
    exact Nat.le_refl _
  | succ j ih =>
    rcases Nat.lt_or_ge j i with hlt | hge
    · obtain rfl : i = j + 1 := by omega
      exact Nat.le_refl _
    · rw [sizeBefore_succ]
      exact Nat.le_add_right_of_le (ih hge)

theorem transfer_rest (hc : c.Sound) {n : Nat} (hk : k ≤ c.files.length)
    (hpos : pos ≤ (c.content k).length) (hend : k = c.files.length → pos = 0)
    (hn : c.left k pos ≤ n) (hs : c.Sent job k pos) (hg : c.Got before w disk k pos) :
    c.Opening (job.pulls (c.sender.fs c.source) n).2 c.files.length ∧
      ∃ w' disk', writeAll c.receiver (job.pulls (c.sender.fs c.source) n).1 w disk =
        (none, w', disk') ∧ c.Got before w' disk' c.files.length 0 := by
  induction n generalizing job w disk k pos with
  | zero =>
    obtain rfl : k = c.files.length := by
      unfold left at hn
      omega
    obtain rfl := hend rfl
    exact ⟨hs.opening, w, disk, rfl, hg⟩
  | succ n ih =>
    rcases Nat.lt_or_ge k c.files.length with hlt | hge
    · obtain ⟨block, job', hpull, hcarries, hmore, hnext⟩ := hs.pull hc hlt hpos
      obtain ⟨w', disk', hwrite, hholding⟩ := hg.write hc hlt hpos hcarries
      have hsize : c.sizeBefore (k + 1) ≤ c.sizeBefore c.files.length := sizeBefore_mono hlt
      rw [sizeBefore_succ] at hsize
      rw [TransferJob.pulls, hpull]
      dsimp only
      rw [Option.toList_some, List.singleton_append, writeAll, hwrite]
      by_cases hdata : c.nextData k pos = []
      · -- the end of the file: the receiver stays at it until the next one begins
        have hlen := eq_length_of_nextData hpos hdata
        have hfull : c.Holding before w' disk' k (c.content k).length := by
          simpa [hdata, ← hlen] using hholding
        apply ih (by omega) (Nat.zero_le _) (fun _ => rfl) _ (hnext hdata) (.inr ⟨rfl, .inr ⟨k, rfl, hfull⟩⟩)
        unfold left at hn ⊢
        rw [sizeBefore_succ]
        omega
      · have hlen := @length_nextData c k pos
        have hsome : 0 < (c.nextData k pos).length := List.length_pos_iff.mpr hdata
        apply ih hk (by omega) (by omega) _ (hmore hdata) (.inl hholding)
        unfold left at hn ⊢
        omega
    · obtain rfl : k = c.files.length := by omega
      obtain rfl := hend rfl
      have hturn := (hs.opening.turn_end hc).2
      have hnone : c.left c.files.length 0 ≤ n := by
        unfold left
        omega
      obtain ⟨hopening, hwritten⟩ := ih hk hpos hend hnone hs hg
      rw [TransferJob.pulls, hturn]
      exact ⟨hopening, hwritten⟩

def readJob (c : FileTransfer) (detection : Bool) : TransferJob where
  id := c.id
  dataSource := .filePath c.sourceBase
  files := c.sourceFiles
  enableOverwriteDetection := detection

def writeJob (c : FileTransfer) (detection : Bool) (digest : FileDigest) : TransferJob where
  id := c.id
  dataSource := .filePath c.base
  files := c.files
  enableOverwriteDetection := detection
  digest := digest

/-- A compression that is good for short runs of zeros. -/
def packZeros (data : Bytes) : Bytes :=
  if data = List.replicate data.length 0 ∧ data.length < 256 ^ 2 then 0 :: toLeBytes 2 data.length
  else 1 :: data

def unpackZeros : Bytes → Bytes
  | [] => []
  | tag :: rest => if tag = 0 then List.replicate (ofLeBytes rest) 0 else rest

theorem unpackZeros_packZeros (data : Bytes) : unpackZeros (packZeros data) = data := by
  unfold packZeros
  split_ifs with h
  · have hback := ofLeBytes_toLeBytes h.2
    change List.replicate (ofLeBytes (toLeBytes 2 data.length)) 0 = data
    rw [hback]
    exact h.1.symm
  · rfl

def packingHost : Host where
  push p name := String.ofList (UnixPath.push p.toList name.toList)
  fileName _ := none
  noSymlinkComponents _ _ := none
  compress := packZeros
  decompress := unpackZeros
  parseDigest _ := none
  digestJson _ := []

def zeroAndEmpty : FileTransfer where
  receiver := packingHost
  base := "/t"
  files := [{ name := "a", modifiedTime := 7 }, { name := "d/b", modifiedTime := 8 }]
  id := 1
  sender := packingHost
  source path :=
    if path = "/s/a" then some { data := List.replicate 8 0, modified := 7 }
    else if path = "/s/d/b" then some { data := [], modified := 8 } else none
  sourceBase := "/s"
  sourceFiles := [{ name := "a", size := 8, modifiedTime := 7 }, { name := "d/b", modifiedTime := 8 }]

theorem sound_zeroAndEmpty : zeroAndEmpty.Sound where
  length_lt := by decide
  names := by decide
  nodup := by decide
  validated := by decide
  noSymlinks := by decide
  unsuffixed := by decide
  appends := ⟨"/", by decide, by decide⟩
  sourceExists := by decide
  decompress_compress := unpackZeros_packZeros

end FileTransfer

end RustDesk
