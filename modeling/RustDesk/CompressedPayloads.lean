import RustDesk.TransferWrite
import RustDesk.TerminalSession

/-!
# Payloads that are compressed where that helps

Two senders compress what they send when the result is shorter: the reader of a file
transfer, and the terminal service. The compressor may fail, and `compress` returns nothing
then. Nothing is always shorter, so the flag is set and the payload is lost.
-/

namespace RustDesk

/-- What is relied on: what was compressed can be decompressed, and nothing decompresses to
nothing, or not at all. -/
structure Zstd.Sound (z : Zstd) : Prop where
  undoes : ∀ data packed, z.encode data = some packed → z.decode packed = some data
  empty : ∀ data, z.decode [] = some data → data = []

namespace Zstd

variable {z : Zstd} {data : Bytes}

theorem Sound.decompress_compress (hz : z.Sound) (h : z.encode data ≠ none) :
    z.decompress (z.compress data) = data := by
  obtain ⟨packed, hpacked⟩ := Option.ne_none_iff_exists'.mp h
  rw [compress, hpacked, Option.getD_some, decompress, hz.undoes data packed hpacked,
    Option.getD_some]

theorem Sound.decompress_nil (hz : z.Sound) : z.decompress [] = [] := by
  unfold decompress
  cases hdecode : z.decode [] with
  | none => rfl
  | some data => exact hz.empty data hdecode

theorem compress_failed (h : z.encode data = none) : z.compress data = [] := by
  rw [compress, h, Option.getD_none]

/-- The choice that both senders make: the payload and its flag. -/
def pack (z : Zstd) (data : Bytes) : Bytes × Bool :=
  if (z.compress data).length < data.length then (z.compress data, true) else (data, false)

/-- What the receiver makes of a payload and its flag. -/
def unpack (z : Zstd) (payload : Bytes × Bool) : Bytes :=
  if payload.2 then z.decompress payload.1 else payload.1

theorem unpack_pack_iff (hz : z.Sound) (hdata : data ≠ []) :
    z.unpack (z.pack data) = data ↔ z.encode data ≠ none := by
  constructor
  · rintro hsame hfailed
    have hshort : (z.compress data).length < data.length := by
      rw [compress_failed hfailed]
      exact List.length_pos_iff.mpr hdata
    rw [pack, if_pos hshort, unpack, if_pos rfl, compress_failed hfailed,
      hz.decompress_nil] at hsame
    exact hdata hsame.symm
  · intro h
    unfold pack
    split
    · rw [unpack, if_pos rfl, hz.decompress_compress h]
    · rfl

end Zstd

open Zstd

variable {z : Zstd}

/-! ### Terminal output -/

theorem output_createTerminalDataResponse (z : Zstd) (terminalId : Int) (data : Bytes) :
    (createTerminalDataResponse z terminalId data).output z terminalId =
      if data.length > compressThreshold then z.unpack (z.pack data) else data := by
  unfold createTerminalDataResponse
  split
  · dsimp only
    unfold pack
    split
    · simp [TerminalResponse.output, unpack]
    · simp [TerminalResponse.output, unpack]
  · simp [TerminalResponse.output]

theorem terminal_payload_iff (hz : z.Sound) (terminalId : Int) (data : Bytes) :
    (createTerminalDataResponse z terminalId data).output z terminalId = data ↔
      (data.length > compressThreshold → z.encode data ≠ none) := by
  rw [output_createTerminalDataResponse]
  by_cases hlong : data.length > compressThreshold
  · have hne : data ≠ [] := by
      rintro rfl
      exact absurd hlong (by decide)
    rw [if_pos hlong, unpack_pack_iff hz hne]
    exact ⟨fun h _ => h, fun h => h hlong⟩
  · rw [if_neg hlong]
    exact iff_of_true rfl fun h => absurd h hlong

/-! ### File blocks -/

namespace TransferJob

variable {fs : FileSystem} {job job' : TransferJob} {block : FileTransferBlock} {buf : Bytes}

/-- The bytes that `read` gets from its stream. -/
def rawBlock (fs : FileSystem) (job : TransferJob) : Option Bytes :=
  match job.dataStream with
  | none => none
  | some ds =>
    match ds.readLoop fs bufSize [] with
    | .error _ => none
    | .ok (buf, _) => some buf

/-- What `write` puts into the file. -/
def received (z : Zstd) (block : FileTransferBlock) : Bytes :=
  z.unpack (block.data, block.compressed)

/-- Whether `read` compresses the bytes: they are those of a file whose name does not say
that it is compressed already. -/
def Packs (fs : FileSystem) (job : TransferJob) (buf : Bytes) : Prop :=
  buf ≠ [] ∧ ∃ p e, job.dataSource = .filePath p ∧ job.entry = some e ∧
    isCompressedFile (job.readName fs p e) = false

/-- The name `read` decides by; none for a memory cursor. -/
def sourceName (fs : FileSystem) (job : TransferJob) : Option String :=
  match job.dataSource with
  | .filePath p => job.entry.map (job.readName fs p)
  | .memoryCursor _ => none

theorem packs_iff : job.Packs fs buf ↔
    buf ≠ [] ∧ ∃ name, job.sourceName fs = some name ∧ isCompressedFile name = false := by
  unfold Packs sourceName
  refine and_congr_right fun _ => ?_
  cases job.dataSource with
  | filePath p => cases job.entry <;> simp
  | memoryCursor data => simp

theorem received_blockOf (hfs : fs.compress = z.compress) (name : Option String) (buf : Bytes) :
    received z (job.blockOf fs name buf) =
      if ∃ n, name = some n ∧ isCompressedFile n = false then z.unpack (z.pack buf) else buf := by
  unfold blockOf
  cases name with
  | none => simp [received, unpack]
  | some n =>
    dsimp only
    cases hname : isCompressedFile n with
    | true => simp [received, unpack, hname]
    | false =>
      have hpacks : ∃ m, some n = some m ∧ isCompressedFile m = false := ⟨n, rfl, hname⟩
      rw [if_neg Bool.false_ne_true, if_pos hpacks, hfs]
      unfold pack
      split
      · rfl
      · rfl

/-- The ways in which `read` returns a block. -/
theorem read_block (h : job.read fs = (.ok (some block), job')) :
    ∃ buf, job.rawBlock fs = some buf ∧
      ((buf = [] ∧ block.data = [] ∧ block.compressed = false) ∨
        (buf ≠ [] ∧ block = job.blockOf fs (job.sourceName fs) buf)) := by
  have hfrom : ∀ name, job.readFrom fs name = (.ok (some block), job') →
      ∃ buf, job.rawBlock fs = some buf ∧
        ((buf = [] ∧ block.data = [] ∧ block.compressed = false) ∨
          (buf ≠ [] ∧ block = job.blockOf fs name buf)) := by
    intro name hread
    unfold readFrom at hread
    unfold rawBlock
    cases hds : job.dataStream with
    | none => simp [hds] at hread
    | some ds =>
      rw [hds] at hread
      dsimp only at hread ⊢
      cases hloop : ds.readLoop fs bufSize [] with
      | error err => simp [hloop] at hread
      | ok r =>
        obtain ⟨buf, ds'⟩ := r
        rw [hloop] at hread
        dsimp only at hread ⊢
        refine ⟨buf, rfl, ?_⟩
        by_cases hnil : buf = []
        · left
          cases name with
          | none => simp [hnil] at hread
          | some n =>
            simp only [hnil, List.isEmpty_nil, if_true, Option.isNone_some, Bool.false_eq_true,
              if_false, Prod.mk.injEq, Except.ok.injEq, Option.some.injEq] at hread
            rw [← hread.1]
            exact ⟨hnil, rfl, rfl⟩
        · right
          have hempty : buf.isEmpty = false := by simpa using hnil
          simp only [hempty, Bool.false_eq_true, if_false, Prod.mk.injEq, Except.ok.injEq,
            Option.some.injEq] at hread
          exact ⟨hnil, hread.1.symm⟩
  unfold read at h
  split at h
  · simp at h
  · unfold sourceName
    cases hsource : job.dataSource with
    | filePath p =>
      rw [hsource] at h
      cases hentry : job.entry with
      | none => simp [hentry] at h
      | some e =>
        rw [hentry] at h
        exact hfrom _ h
    | memoryCursor data =>
      rw [hsource] at h
      exact hfrom none h

theorem file_payload_iff (hz : z.Sound) (hfs : fs.compress = z.compress)
    (h : job.read fs = (.ok (some block), job')) :
    ∃ buf, job.rawBlock fs = some buf ∧
      (received z block = buf ↔ (job.Packs fs buf → z.encode buf ≠ none)) := by
  obtain ⟨buf, hraw, hblock⟩ := read_block h
  refine ⟨buf, hraw, ?_⟩
  rcases hblock with ⟨rfl, hdata, hflag⟩ | ⟨hne, rfl⟩
  · rw [received, hdata, hflag]
    exact iff_of_true rfl fun hpacks => absurd rfl hpacks.1
  · rw [received_blockOf hfs, packs_iff]
    by_cases hpacks : ∃ n, job.sourceName fs = some n ∧ isCompressedFile n = false
    · rw [if_pos hpacks, unpack_pack_iff hz hne]
      exact ⟨fun h _ => h, fun h => h ⟨hne, hpacks⟩⟩
    · rw [if_neg hpacks]
      exact iff_of_true rfl fun hno => absurd hno.2 hpacks

/-- The receiver of a block writes what `received` says. -/
theorem writeStream_received {host : Host} (hhost : host.decompress = z.decompress)
    {file : OpenFile} (hds : job.dataStream = some (.fileStream file)) (hw : file.writing = true)
    (disk : Disk) :
    (job.writeStream host block disk).2.2 =
      disk.writeAt file.path file.pos (received z block) host.now := by
  unfold writeStream
  rw [hds, hhost]
  simp [hw, received, unpack]

/-- The receiver gets what the sender had exactly when the compressor, where it is used, does
not fail. -/
theorem compressed_payload_iff (z : Zstd) (hz : z.Sound) :
    (∀ (fs : FileSystem) (job job' : TransferJob) (block : FileTransferBlock),
      fs.compress = z.compress → job.read fs = (.ok (some block), job') →
      ∃ buf, job.rawBlock fs = some buf ∧
        (received z block = buf ↔ (job.Packs fs buf → z.encode buf ≠ none))) ∧
    ∀ (terminalId : Int) (data : Bytes),
      (createTerminalDataResponse z terminalId data).output z terminalId = data ↔
        (data.length > compressThreshold → z.encode data ≠ none) :=
  ⟨fun _ _ _ _ hfs h => file_payload_iff hz hfs h, terminal_payload_iff hz⟩

theorem compressed_payload_stored :
    (createTerminalDataResponse Zstd.stored 1 (List.replicate 513 7)).output Zstd.stored 1 =
      List.replicate 513 7 := by
  have hsound : Zstd.stored.Sound := ⟨fun _ _ h => h.symm, fun _ h => (Option.some.inj h).symm⟩
  exact ((compressed_payload_iff Zstd.stored hsound).2 1 _).mpr fun _ => nofun

/-- A compressor that could not be made. -/
def failing : Zstd where
  encode _ := none
  decode packed := if packed = [] then some [] else none

/-- A system with one file, of three bytes. -/
def threeBytes : FileSystem where
  push p _ := p
  fileName _ := none
  noSymlinkComponents _ _ := none
  fileExists _ := true
  openRead _ := none
  openWrite _ := none
  seek _ := true
  metadata _ := .ok (0, 3)
  read file _ := .ok ([1, 2, 3].drop file.pos)
  compress := failing.compress

def threeBytesJob : TransferJob :=
  { id := 1
    dataSource := .filePath "/a"
    files := [{ name := "b", size := 3 }]
    dataStream := some (.fileStream { path := "/a/b", pos := 0, writing := false }) }

theorem payload_lost :
    threeBytesJob.rawBlock threeBytes = some [1, 2, 3] ∧
    (∃ block job', threeBytesJob.read threeBytes = (.ok (some block), job') ∧
      received failing block = []) ∧
    (createTerminalDataResponse failing 1 (List.replicate 513 7)).output failing 1 = [] := by
  refine ⟨rfl, ⟨_, _, rfl, rfl⟩, ?_⟩
  have hlong : (List.replicate 513 (7 : UInt8)).length > compressThreshold := by
    rw [List.length_replicate]
    decide
  have hpack : failing.pack (List.replicate 513 7) = ([], true) := if_pos (by
    rw [List.length_replicate]
    exact Nat.zero_lt_succ _)
  rw [output_createTerminalDataResponse, if_pos hlong, hpack]
  rfl

end TransferJob

end RustDesk
