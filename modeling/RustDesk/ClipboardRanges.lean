import RustDesk.ClipboardFiles

/-!
# Ranges of clipboard files

A range of a remote file is asked for in a message whose fields are all of 32 bits with a
sign. The FUSE reader and the paste task of macOS cut the offset in two; the side that serves
the file puts the two halves together again. Each half is widened with its sign there, and
the sign of the lower half covers the upper one.
-/

namespace RustDesk.Clipboard

/-- The message `read_node` sends for a read of `size` bytes at an `i64`. -/
def readNode (streamId index : BitVec 32) (offset : BitVec 64) (size : BitVec 32) : ClipboardFile :=
  let cbRequested := size
  let nPositionHigh := (offset.sshiftRight 32).setWidth 32
  let nPositionLow := (offset &&& 0xFFFFFFFF).setWidth 32
  .fileContentsRequest streamId index 2 nPositionLow nPositionHigh cbRequested false 0

/-- The message `send_file_contents_request` sends for the file of the given size; its
progress is a `u64`. -/
def sendFileContentsRequest (listIndex : BitVec 32) (fileSize offset : BitVec 64) : ClipboardFile :=
  let cbRequested := min blockSize (fileSize - offset).toNat
  let nPositionHigh := (offset >>> 32).setWidth 32
  let nPositionLow := (offset &&& 0xFFFFFFFF).setWidth 32
  .fileContentsRequest listIndex listIndex 2 nPositionLow nPositionHigh
    (BitVec.ofNat 32 cbRequested) false 0

namespace ClipFiles

/-- What a request is taken for by the side that serves it. -/
def requested : ClipboardFile → Option FileContentsRequest
  | .fileContentsRequest streamId listIndex dwFlags low high cb _ _ =>
    contentsRequest streamId listIndex dwFlags low high cb
  | _ => none

/-- A message that reaches the side that serves the files, and how its calls on the files
end. -/
structure Call where
  connId : BitVec 32
  message : ClipboardFile
  io : FileIo := {}
  next : FileIo := {}
  deriving DecidableEq, Repr

variable (disk : FileData) (isFile : String → Bool)

/-- `read_file_contents` is called for a request and for nothing else. -/
def answer (s : ClipFiles) (call : Call) : ClipFiles × List Reply :=
  match call.message with
  | .fileContentsRequest streamId listIndex dwFlags low high cb _ _ =>
    s.readFileContents disk isFile call.io call.next call.connId streamId listIndex dwFlags low high cb
  | _ => (s, [])

def step (s : ClipFiles) (call : Call) : ClipFiles := (s.answer disk isFile call).1

def Fresh (s : ClipFiles) : Prop := ∀ f ∈ s.fileList, f.handle = none ∧ f.offset = 0

variable {disk isFile}

/-- `Asks o n m streamId index`: the message `m` asks for `n` bytes at `o`, as one of the two
readers writes it. -/
inductive Asks (o : BitVec 64) (n : Nat) : ClipboardFile → BitVec 32 → BitVec 32 → Prop
  | fuse (streamId index : BitVec 32) :
      Asks o n (readNode streamId index o (BitVec.ofNat 32 n)) streamId index
  | macos (listIndex : BitVec 32) (fileSize : BitVec 64) : o.toNat ≤ fileSize.toNat →
      n = min blockSize (fileSize.toNat - o.toNat) →
      Asks o n (sendFileContentsRequest listIndex fileSize o) listIndex listIndex

/-- A range arrives as it was asked for, and is answered with the bytes that the file has
there, whatever was requested before. -/
structure Exact (o : BitVec 64) (n : Nat) : Prop where
  arrives : ∀ m streamId index, Asks o n m streamId index →
    requested m = some (.range streamId (asU64 index).toNat o.toNat n)
  served : ∀ m streamId index, Asks o n m streamId index →
    ∀ (disk : FileData) (isFile : String → Bool) (s : ClipFiles) (calls : List Call)
      (connId : BitVec 32) (f : LocalFile), Fresh s →
      s.fileList[(asU64 index).toNat]? = some f → f.isDir = false →
      f.size = (disk.data f.path).length → o.toNat ≤ f.size →
      ((History.run (step disk isFile) s calls).answer disk isFile { connId, message := m }).2.getLast? =
        some (.answer (.ok (.fileContentsResponse 1 streamId
          (((disk.data f.path).drop o.toNat).take n))))

/-! ### The bits of the offset -/

theorem bit_high (o : BitVec 64) {i : Nat} (hi : i < 64) :
    (asU64 ((o >>> 32).setWidth 32) <<< 32).getLsbD i = (decide (32 ≤ i) && o.getLsbD i) := by
  simp only [asU64, BitVec.getLsbD_shiftLeft, BitVec.getLsbD_signExtend, BitVec.getLsbD_setWidth,
    BitVec.getLsbD_ushiftRight]
  by_cases h : 32 ≤ i
  · have hback : 32 + (i - 32) = i := by omega
    have hlow : i - 32 < 32 := by omega
    have hwide : i - 32 < 64 := by omega
    simp [h, hback, hlow, hwide, hi]
  · simp [h]

theorem bit_low (o : BitVec 64) {i : Nat} (hi : i < 64) :
    (asU64 ((o &&& 0xFFFFFFFF).setWidth 32)).getLsbD i =
      if i < 32 then o.getLsbD i else o.getLsbD 31 := by
  have hones : ∀ j < 32, (0xFFFFFFFF : BitVec 64).getLsbD j = true := by decide
  have hmask : ∀ j < 32, (o &&& 0xFFFFFFFF).getLsbD j = o.getLsbD j := by
    intro j hj
    rw [BitVec.getLsbD_and, hones j hj, Bool.and_true]
  rw [asU64, BitVec.getLsbD_signExtend, BitVec.msb_setWidth, hmask 31 (by decide)]
  split_ifs with h
  · rw [BitVec.getLsbD_setWidth, hmask i h]
    simp [hi, h]
  · simp [hi]

theorem high_sshiftRight (o : BitVec 64) :
    (o.sshiftRight 32).setWidth 32 = (o >>> 32).setWidth 32 := by
  apply BitVec.eq_of_getLsbD_eq
  intro i hi
  have hin : 32 + i < 64 := by omega
  have hup : ¬ 64 ≤ i := by omega
  simp only [BitVec.getLsbD_setWidth, BitVec.getLsbD_sshiftRight, BitVec.getLsbD_ushiftRight, hin,
    hup, if_true]
  simp

/-- The two halves make the offset again exactly when the lower one has no sign. -/
theorem join_iff (o : BitVec 64) (ho : o.toNat < 2 ^ 63) :
    (asU64 ((o >>> 32).setWidth 32) <<< 32) ||| asU64 ((o &&& 0xFFFFFFFF).setWidth 32) = o ↔
      o.toNat.testBit 31 = false := by
  change _ ↔ o.getLsbD 31 = false
  have htop : o.getLsbD 63 = false := Nat.testBit_lt_two_pow ho
  constructor
  · intro h
    have hbit := congrArg (BitVec.getLsbD · 63) h
    simp only [BitVec.getLsbD_or, bit_high o (show 63 < 64 by decide),
      bit_low o (show 63 < 64 by decide), htop] at hbit
    simpa using hbit
  · intro h
    apply BitVec.eq_of_getLsbD_eq
    intro i hi
    rw [BitVec.getLsbD_or, bit_high o hi, bit_low o hi, h]
    by_cases hlow : i < 32
    · have hhigh : ¬ 32 ≤ i := by omega
      simp [hlow, hhigh]
    · have hhigh : 32 ≤ i := by omega
      simp [hlow, hhigh]

theorem length_exact {n : Nat} (hn : n ≤ blockSize) : (asU64 (BitVec.ofNat 32 n)).toNat = n := by
  unfold blockSize at hn
  have hmsb : (BitVec.ofNat 32 n).msb = false := by
    rw [BitVec.msb_eq_decide, BitVec.toNat_ofNat, decide_eq_false_iff_not]
    omega
  rw [asU64, BitVec.signExtend_eq_setWidth_of_msb_false hmsb, BitVec.toNat_setWidth,
    BitVec.toNat_ofNat]
  omega

theorem requested_asks {o : BitVec 64} {n : Nat} {m : ClipboardFile} {streamId index : BitVec 32}
    (hn : n ≤ blockSize) (h : Asks o n m streamId index) :
    requested m = some (.range streamId (asU64 index).toNat
      ((asU64 ((o >>> 32).setWidth 32) <<< 32) |||
        asU64 ((o &&& 0xFFFFFFFF).setWidth 32)).toNat n) := by
  cases h with
  | fuse streamId index =>
    simp only [requested, readNode, contentsRequest, high_sshiftRight, length_exact hn]
    rfl
  | macos listIndex fileSize hle hmin =>
    have hsub : (fileSize - o).toNat = fileSize.toNat - o.toNat := BitVec.toNat_sub_of_le hle
    simp only [requested, sendFileContentsRequest, contentsRequest, hsub, ← hmin, length_exact hn]
    rfl

/-! ### The files between two requests -/

theorem step_kept (s : ClipFiles) (call : Call) :
    AllKept s.fileList (s.step disk isFile call).fileList := by
  unfold step answer readFileContents
  split
  · split
    · exact AllKept.refl _
    · rename_i request hreq
      exact serveFileContents_kept disk call.io call.next call.connId
        (contentsRequest_offset hreq) s
  · exact AllKept.refl _

theorem run_kept (s : ClipFiles) (calls : List Call) :
    AllKept s.fileList (History.run (step disk isFile) s calls).fileList := by
  induction calls generalizing s with
  | nil => exact AllKept.refl _
  | cons call calls ih => exact (step_kept s call).trans (ih (s.step disk isFile call))

theorem Fresh.positioned {s : ClipFiles} (h : Fresh s) {f : LocalFile} (hf : f ∈ s.fileList) :
    f.Positioned := by
  obtain ⟨hhandle, hoffset⟩ := h f hf
  rw [LocalFile.Positioned, hhandle, hoffset]
  rfl

theorem answer_range {s : ClipFiles} {m : ClipboardFile} {streamId connId : BitVec 32}
    {fileIdx offset n : Nat} (h : requested m = some (.range streamId fileIdx offset n)) :
    (s.answer disk isFile { connId, message := m }).2.getLast? =
      some (s.serveFileContents disk {} {} connId (.range streamId fileIdx offset n)).2 := by
  cases m with
  | fileContentsRequest =>
    simp only [requested] at h
    simp [answer, readFileContents, h]
  | fileContentsResponse => cases h
  | files => cases h

/-- For every offset below 2⁶³ and every size up to the block size: a range arrives as it was
asked for, and its bytes are those of the file, exactly when bit 31 of the offset is zero. -/
theorem exact_iff (o : BitVec 64) (ho : o.toNat < 2 ^ 63) (n : Nat) (hn : n ≤ blockSize) :
    Exact o n ↔ o.toNat.testBit 31 = false := by
  rw [← join_iff o ho]
  constructor
  · intro h
    have harrives := h.arrives _ _ _ (.fuse 0 0)
    rw [requested_asks hn (.fuse 0 0)] at harrives
    simp only [Option.some.injEq, FileContentsRequest.range.injEq, true_and, and_true] at harrives
    exact BitVec.eq_of_toNat_eq harrives
  · intro h
    have harrives : ∀ m streamId index, Asks o n m streamId index →
        requested m = some (.range streamId (asU64 index).toNat o.toNat n) := by
      intro m streamId index hm
      rw [requested_asks hn hm, h]
    refine ⟨harrives, ?_⟩
    intro m streamId index hm disk isFile s calls connId f hfresh hf hfile hsize hoff
    obtain ⟨g, hg, hkept⟩ := @run_kept disk isFile s calls _ f hf
    have hid := hkept.identity
    simp only [LocalFile.identity, Prod.mk.injEq] at hid
    obtain ⟨hpath, hsame, hdir⟩ := hid
    have hpos := hkept.positioned (hfresh.positioned (List.mem_of_getElem? hf))
    have hbound : n < 2 ^ 63 := by
      unfold blockSize at hn
      omega
    rw [answer_range (harrives m streamId index hm), ← hpath]
    congr 1
    apply serveFileContents_range disk connId streamId hg hpos
    · rw [hdir, hfile]
    · rw [hsame, hpath, hsize]
    · omega
    · omega

theorem exact_five_gib : Exact 0x140000000 4096 :=
  (exact_iff 0x140000000 (by decide) 4096 (by decide)).mpr (by decide)

/-- The offset 2³¹ arrives as one that no file reaches. -/
theorem two_gib_not_exact :
    ¬ ∀ (o : BitVec 64) (n : Nat), o.toNat < 2 ^ 63 → n ≤ blockSize → Exact o n := by
  intro h
  have harrives := (h 0x80000000 4096 (by decide) (by decide)).arrives _ _ _ (.fuse 0 0)
  exact absurd harrives (by decide)

end ClipFiles

end RustDesk.Clipboard
