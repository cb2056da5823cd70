import RustDesk.FileDescriptors
import RustDesk.UnixPath
import Mathlib.Data.List.Forall2

/-!
# The list of clipboard files, written and read back

`as_bin` writes the record of one file and `build_file_list_pdu` the message; the other
side reads it with `parse_file_descriptors`. The record has its fields at fixed places, so
reading a field back means to cut the record where the writer put it together.
-/

namespace RustDesk.Clipboard

def flagsFdSize : Nat := 0x40
def flagsFdProgressui : Nat := 0x4000

/-- A file with what the list tells of it; the time is in nanoseconds since 1970. The
path was opened, so it has no zero in it. -/
structure ListedFile extends LocalFile where
  relativeRoot : String
  lastWriteTime : Int
  perm : Nat
  readOnly : Bool := false
  hidden : Bool := false
  system : Bool := false
  archive : Bool := false
  normal : Bool := false
  size_lt : size < 2 ^ 64
  perm_lt : perm < 2 ^ 32
  path_noNul : '\x00' ∉ path.toList

/-- The UTF-16 units of a character. -/
def utf16Char (c : Char) : List Nat :=
  if c.toNat < 0x10000 then [c.toNat]
  else [0xD800 + (c.toNat - 0x10000) / 0x400, 0xDC00 + (c.toNat - 0x10000) % 0x400]

def encodeUtf16 (cs : List Char) : List Nat := cs.flatMap utf16Char

/-- The bytes of a `WString<LE>`. -/
def utf16LeBytes (cs : List Char) : Bytes := (encodeUtf16 cs).flatMap (toLeBytes 2)

namespace ListedFile

/-- `strip_prefix(&self.relative_root).unwrap_or(&self.path)` -/
def relativeName (f : ListedFile) : List Char :=
  (UnixPath.stripPrefix f.path.toList f.relativeRoot.toList).getD f.path.toList

def fileAttributes (f : ListedFile) : Nat :=
  (if f.readOnly then 0x1 else 0) ||| (if f.hidden then 0x2 else 0) |||
  (if f.system then 0x4 else 0) ||| (if f.isDir then 0x10 else 0) |||
  (if f.archive then 0x20 else 0) ||| (if f.normal then 0x80 else 0)

/-- `duration_since(UNIX_EPOCH).unwrap_or_default()` is zero for an earlier time. -/
def win32Time (f : ListedFile) : Nat :=
  f.lastWriteTime.toNat % 2 ^ 64 / 100 + ldapEpochDelta

def asBin (f : ListedFile) : Bytes :=
  let name := utf16LeBytes f.relativeName
  toLeBytes 4 (flagsFdSize ||| flagsFdLastWrite ||| flagsFdAttributes ||| flagsFdProgressui |||
    flagsFdUnixMode) ++
  List.replicate 32 0 ++ toLeBytes 4 f.fileAttributes ++
  List.replicate 12 0 ++ toLeBytes 4 f.perm ++
  toLeBytes 8 f.win32Time ++
  toLeBytes 4 (f.size / 2 ^ 32) ++ toLeBytes 4 (f.size % 2 ^ 32) ++
  (name ++ List.replicate (520 - name.length) 0)

end ListedFile

def buildFileListPdu (files : List ListedFile) : Bytes :=
  toLeBytes 4 files.length ++ files.flatMap ListedFile.asBin

/-! ### Names -/

theorem utf16Units_toLeBytes {units : List Nat} (h : ∀ u ∈ units, u < 0x10000) (k : Nat) :
    utf16Units (units.flatMap (toLeBytes 2) ++ List.replicate (2 * k) 0) =
      units ++ List.replicate k 0 := by
  induction units with
  | nil =>
    induction k with
    | zero => rfl
    | succ k ih =>
      rw [show 2 * (k + 1) = 2 * k + 1 + 1 by omega]
      simp only [List.flatMap_nil, List.nil_append, List.replicate_succ, utf16Units] at ih ⊢
      rw [ih]
      rfl
  | cons u units ih =>
    obtain ⟨hu, hunits⟩ := List.forall_mem_cons.mp h
    have hpair : ∀ rest, utf16Units (toLeBytes 2 u ++ rest) = u :: utf16Units rest := by
      intro rest
      have hle := ofLeBytes_toLeBytes (k := 2) (n := u) (by omega)
      simp only [toLeBytes, ofLeBytes] at hle
      simp only [toLeBytes, List.cons_append, List.nil_append, utf16Units]
      congr 1
    rw [List.flatMap_cons, List.append_assoc, hpair, ih hunits, List.cons_append]

theorem char_range (c : Char) : c.toNat < 0xD800 ∨ 0xE000 ≤ c.toNat ∧ c.toNat < 0x110000 := by
  have h := c.valid
  simp only [UInt32.isValidChar, Nat.isValidChar] at h
  change c.val.toNat < 0xD800 ∨ 0xE000 ≤ c.val.toNat ∧ c.val.toNat < 0x110000
  omega

theorem utf16Char_lt (c : Char) : ∀ u ∈ utf16Char c, u < 0x10000 := by
  have hc := char_range c
  unfold utf16Char
  split_ifs with h
  · intro u hu
    rwa [List.mem_singleton.mp hu]
  · simp only [List.mem_cons, List.not_mem_nil, or_false]
    rintro u (hu | hu)
    · omega
    · omega

theorem encodeUtf16_lt (cs : List Char) : ∀ u ∈ encodeUtf16 cs, u < 0x10000 := by
  intro u hu
  obtain ⟨c, -, hc⟩ := List.mem_flatMap.mp hu
  exact utf16Char_lt c u hc

theorem decodeUtf16_unit {u : Nat} (h : u < 0xD800 ∨ 0xE000 ≤ u) (units : List Nat) :
    decodeUtf16 (u :: units) = (decodeUtf16 units).map (Char.ofNat u :: ·) := by
  rw [decodeUtf16.eq_def]
  exact if_pos h

theorem decodeUtf16_pair {u v : Nat} (hu : 0xD800 ≤ u ∧ u < 0xDC00) (hv : 0xDC00 ≤ v ∧ v < 0xE000)
    (units : List Nat) : decodeUtf16 (u :: v :: units) = (decodeUtf16 units).map
      (Char.ofNat (0x10000 + (u - 0xD800) * 0x400 + (v - 0xDC00)) :: ·) := by
  rw [decodeUtf16.eq_def]
  dsimp only
  rw [if_neg (by omega), if_neg (by omega), if_pos hv]

theorem decodeUtf16_utf16Char (c : Char) (units : List Nat) :
    decodeUtf16 (utf16Char c ++ units) = (decodeUtf16 units).map (c :: ·) := by
  have hc := char_range c
  unfold utf16Char
  split_ifs with h
  · rw [List.singleton_append, decodeUtf16_unit (by omega), Char.ofNat_toNat]
  · have hback : 0x10000 + (0xD800 + (c.toNat - 0x10000) / 0x400 - 0xD800) * 0x400 +
        (0xDC00 + (c.toNat - 0x10000) % 0x400 - 0xDC00) = c.toNat := by
      omega
    rw [List.cons_append, List.cons_append, List.nil_append,
      decodeUtf16_pair (by omega) (by omega), hback, Char.ofNat_toNat]

theorem decodeUtf16_encodeUtf16 (cs : List Char) (k : Nat) :
    decodeUtf16 (encodeUtf16 cs ++ List.replicate k 0) = some (cs ++ List.replicate k '\x00') := by
  induction cs with
  | nil =>
    induction k with
    | zero => rfl
    | succ k ih =>
      simp only [encodeUtf16, List.flatMap_nil, List.nil_append] at ih ⊢
      rw [List.replicate_succ, decodeUtf16_unit (by omega), ih, List.replicate_succ]
      rfl
  | cons c cs ih =>
    rw [encodeUtf16, List.flatMap_cons, List.append_assoc, decodeUtf16_utf16Char]
    rw [encodeUtf16] at ih
    rw [ih]
    rfl

theorem unixName_padded {cs : List Char} (hback : '\\' ∉ cs) (hnul : '\x00' ∉ cs) (k : Nat) :
    unixName (cs ++ List.replicate k '\x00') = String.ofList cs := by
  have hcs : cs.map (fun c => if c = '\\' then '/' else c) = cs := by
    conv_rhs => rw [← List.map_id cs]
    apply List.map_congr_left
    intro c hc
    refine if_neg ?_
    rintro rfl
    exact hback hc
  have hdrop : cs.reverse.dropWhile (fun c => decide (c = '\x00')) = cs.reverse := by
    rcases hr : cs.reverse with _ | ⟨c, rest⟩
    · rfl
    · have hc : c ∈ cs := List.mem_reverse.mp (hr ▸ List.mem_cons_self)
      have hne : c ≠ '\x00' := by
        rintro rfl
        exact hnul hc
      exact List.dropWhile_cons_of_neg (by simpa using hne)
  unfold unixName
  rw [List.map_append, List.map_replicate, if_neg (by decide), hcs, List.reverse_append,
    List.reverse_replicate, List.dropWhile_append_of_pos (by simp), hdrop, List.reverse_reverse]

/-! ### The record -/

/-- A number that stands behind `front` in a record reads back. -/
theorem field_eq (front : Bytes) {record : Bytes} {start n v : Nat}
    (h : front ++ toLeBytes n v <+: record) (hs : front.length = start) (hv : v < 256 ^ n) :
    field record start n = v := by
  obtain ⟨back, rfl⟩ := h
  unfold field
  rw [← hs, List.append_assoc, List.drop_left, List.take_left' (length_toLeBytes n v),
    ofLeBytes_toLeBytes hv]

theorem length_utf16LeBytes (cs : List Char) :
    (utf16LeBytes cs).length = 2 * (encodeUtf16 cs).length := by
  unfold utf16LeBytes
  induction encodeUtf16 cs with
  | nil => rfl
  | cons u units ih => simp [ih]; omega

namespace ListedFile

variable {f : ListedFile}

theorem fileAttributes_lt (f : ListedFile) : f.fileAttributes < 256 ^ 4 := by
  unfold fileAttributes
  split_ifs <;> decide +kernel

theorem hasFlag_directory (f : ListedFile) : hasFlag f.fileAttributes 0x10 = f.isDir := by
  have h : ∀ readOnly hidden system isDir archive normal : Bool,
      hasFlag ((if readOnly then 0x1 else 0) ||| (if hidden then 0x2 else 0) |||
        (if system then 0x4 else 0) ||| (if isDir then 0x10 else 0) |||
        (if archive then 0x20 else 0) ||| (if normal then 0x80 else 0)) 0x10 = isDir := by
    decide
  exact h _ _ _ _ _ _

theorem noNul_relativeName (f : ListedFile) : '\x00' ∉ f.relativeName := by
  unfold relativeName
  cases h : UnixPath.stripPrefix f.path.toList f.relativeRoot.toList with
  | none => exact f.path_noNul
  | some q =>
    intro hc
    rcases UnixPath.mem_stripPrefix h hc with hc | hc | hc
    · exact f.path_noNul hc
    · exact absurd hc (by decide)
    · exact absurd hc (by decide)

/-- The name has no more than the 260 units of its block. -/
def NameFits (f : ListedFile) : Prop := (encodeUtf16 f.relativeName).length ≤ 260

theorem length_asBin (h : f.NameFits) : f.asBin.length = 592 := by
  have hname := length_utf16LeBytes f.relativeName
  unfold NameFits at h
  simp only [asBin, List.length_append, length_toLeBytes, List.length_replicate]
  omega

/-- The block of the name decodes to the name and the zeros behind it. -/
theorem decode_name (h : (encodeUtf16 f.relativeName).length ≤ 259) :
    decodeUtf16 (utf16Units ((f.asBin.drop 72).take 520)) = some (f.relativeName ++
      List.replicate (260 - (encodeUtf16 f.relativeName).length) '\x00') := by
  have hname := length_utf16LeBytes f.relativeName
  have hblock : (f.asBin.drop 72).take 520 = utf16LeBytes f.relativeName ++
      List.replicate (520 - (utf16LeBytes f.relativeName).length) 0 := by
    unfold asBin
    dsimp only
    rw [List.drop_left' (by simp), List.take_of_length_le]
    rw [List.length_append, List.length_replicate]
    omega
  rw [hblock, show 520 - (utf16LeBytes f.relativeName).length =
    2 * (260 - (encodeUtf16 f.relativeName).length) by omega, utf16LeBytes,
    utf16Units_toLeBytes (encodeUtf16_lt _), decodeUtf16_encodeUtf16]

/-- The name fits into its block, and no component of it has the separator of Windows. -/
def Listable (f : ListedFile) : Prop :=
  (encodeUtf16 f.relativeName).length ≤ 259 ∧ '\\' ∉ f.relativeName

instance (f : ListedFile) : Decidable f.Listable := inferInstanceAs (Decidable (_ ∧ _))

theorem Listable.nameFits (h : f.Listable) : f.NameFits := h.1.trans (by decide)

/-- What the reader makes of the record. -/
def describe (connId : BitVec 32) (f : ListedFile) : FileDescription where
  connId := connId
  name := String.ofList f.relativeName
  kind := if f.isDir then .directory else .file
  lastModified := f.lastWriteTime.toNat % 2 ^ 64 / 100 * 100
  size := f.size
  perm := f.perm % 2 ^ 16

theorem fields (f : ListedFile) :
    field f.asBin 0 4 = 0x406c ∧ field f.asBin 36 4 = f.fileAttributes ∧
    field f.asBin 52 4 = f.perm ∧ field f.asBin 56 8 = f.win32Time ∧
    field f.asBin 64 4 = f.size / 2 ^ 32 ∧ field f.asBin 68 4 = f.size % 2 ^ 32 := by
  have hsize := f.size_lt
  have htime : f.win32Time < 256 ^ 8 := by
    unfold win32Time ldapEpochDelta
    omega
  let flags := toLeBytes 4 (flagsFdSize ||| flagsFdLastWrite ||| flagsFdAttributes |||
    flagsFdProgressui ||| flagsFdUnixMode)
  refine ⟨?_, ?_, ?_, ?_, ?_, ?_⟩
  · refine field_eq [] ?_ rfl (by decide)
    simp only [asBin, List.append_assoc]
    exact List.prefix_append _ _
  · refine field_eq (flags ++ List.replicate 32 0) ?_ (by simp [flags]) f.fileAttributes_lt
    simp only [asBin, flags, List.append_assoc, List.prefix_append_right_inj]
    exact List.prefix_append _ _
  · refine field_eq (flags ++ List.replicate 32 0 ++ toLeBytes 4 f.fileAttributes ++
      List.replicate 12 0) ?_ (by simp [flags]) f.perm_lt
    simp only [asBin, flags, List.append_assoc, List.prefix_append_right_inj]
    exact List.prefix_append _ _
  · refine field_eq (flags ++ List.replicate 32 0 ++ toLeBytes 4 f.fileAttributes ++
      List.replicate 12 0 ++ toLeBytes 4 f.perm) ?_ (by simp [flags]) htime
    simp only [asBin, flags, List.append_assoc, List.prefix_append_right_inj]
    exact List.prefix_append _ _
  · refine field_eq (flags ++ List.replicate 32 0 ++ toLeBytes 4 f.fileAttributes ++
      List.replicate 12 0 ++ toLeBytes 4 f.perm ++ toLeBytes 8 f.win32Time) ?_
      (by simp [flags]) (by omega)
    simp only [asBin, flags, List.append_assoc, List.prefix_append_right_inj]
    exact List.prefix_append _ _
  · refine field_eq (flags ++ List.replicate 32 0 ++ toLeBytes 4 f.fileAttributes ++
      List.replicate 12 0 ++ toLeBytes 4 f.perm ++ toLeBytes 8 f.win32Time ++
      toLeBytes 4 (f.size / 2 ^ 32)) ?_ (by simp [flags]) (by omega)
    simp only [asBin, flags, List.append_assoc, List.prefix_append_right_inj]
    exact List.prefix_append _ _

theorem parse_asBin (connId : BitVec 32) (h : f.Listable) :
    parseFileDescriptor connId f.asBin = .ok (f.describe connId) := by
  obtain ⟨hlen, hback⟩ := h
  obtain ⟨hflags, hattributes, hperm, htime, hhigh, hlow⟩ := f.fields
  have hattr : hasFlag 0x406c flagsFdAttributes = true := by decide
  have hwrite : hasFlag 0x406c flagsFdLastWrite = true := by decide
  have hmode : hasFlag 0x406c flagsFdUnixMode = true := by decide
  have hmodified : (f.win32Time - ldapEpochDelta) * 100 % 2 ^ 64 =
      f.lastWriteTime.toNat % 2 ^ 64 / 100 * 100 := by
    unfold win32Time
    omega
  have hle : ldapEpochDelta ≤ f.win32Time := Nat.le_add_left _ _
  have hsize : f.size / 2 ^ 32 * 2 ^ 32 + f.size % 2 ^ 32 = f.size := Nat.div_add_mod' _ _
  unfold parseFileDescriptor describe
  dsimp only
  rw [decode_name hlen, hflags, hattributes, hperm, htime, hhigh, hlow]
  dsimp only
  rw [hattr, hwrite, hmode, hasFlag_directory, unixName_padded hback f.noNul_relativeName, hsize,
    hmodified]
  simp [hle]

end ListedFile

/-! ### The list -/

theorem parseRecords_flatMap (connId : BitVec 32) : ∀ files : List ListedFile,
    (∀ f ∈ files, f.Listable) → parseRecords connId files.length (files.flatMap ListedFile.asBin) =
      .ok (files.map (ListedFile.describe connId))
  | [], _ => rfl
  | f :: files, h => by
    obtain ⟨hlist, hfiles⟩ := List.forall_mem_cons.mp h
    have hf := ListedFile.length_asBin hlist.nameFits
    rw [List.length_cons, List.flatMap_cons, parseRecords, List.take_left' hf,
      ListedFile.parse_asBin connId hlist, List.drop_left' hf]
    dsimp only
    rw [parseRecords_flatMap connId files hfiles]
    rfl

theorem length_flatMap_asBin {files : List ListedFile} (h : ∀ f ∈ files, f.NameFits) :
    (files.flatMap ListedFile.asBin).length = 592 * files.length := by
  induction files with
  | nil => rfl
  | cons f files ih =>
    obtain ⟨hf, hfiles⟩ := List.forall_mem_cons.mp h
    rw [List.flatMap_cons, List.length_append, ListedFile.length_asBin hf, ih hfiles, List.length_cons]
    omega

theorem parse_buildFileListPdu (connId : BitVec 32) (files : List ListedFile)
    (hcount : files.length < 2 ^ 32) (h : ∀ f ∈ files, f.Listable) :
    parseFileDescriptors (buildFileListPdu files) connId =
      .ok (files.map (ListedFile.describe connId)) := by
  have hlen := length_flatMap_asBin fun f hf => (h f hf).nameFits
  have hfield : field (buildFileListPdu files) 0 4 = files.length :=
    field_eq [] (List.prefix_append _ _) rfl (by omega)
  have hdrop : (buildFileListPdu files).drop 4 = files.flatMap ListedFile.asBin :=
    List.drop_left' (length_toLeBytes _ _)
  unfold parseFileDescriptors
  dsimp only
  rw [hfield, hdrop, hlen, if_neg (by simp [buildFileListPdu])]
  split
  · next h0 =>
    rw [List.eq_nil_of_length_eq_zero h0.2]
    rfl
  · rw [if_neg (by simp)]
    exact parseRecords_flatMap connId files h

/-- A descriptor tells of a file what the file is: the time is rounded down to 100 ns after
`clamp` was applied to it. -/
def Describes (clamp : Int → Int) (f : ListedFile) (d : FileDescription) : Prop :=
  d.name.toList = f.relativeName ∧ d.kind = (if f.isDir then .directory else .file) ∧
  d.size = f.size ∧ d.perm = f.perm % 2 ^ 16 ∧
  (d.lastModified : Int) = clamp f.lastWriteTime / 100 * 100

/-- The list is read back with as many descriptors, in the same order. -/
def ReadsBack (clamp : Int → Int) (files : List ListedFile) : Prop :=
  ∀ connId, ∃ descs, parseFileDescriptors (buildFileListPdu files) connId = .ok descs ∧
    List.Forall₂ (Describes clamp) files descs

theorem describes_describe (connId : BitVec 32) {f : ListedFile}
    (h : f.lastWriteTime < 2 ^ 64) : Describes (max 0) f (f.describe connId) := by
  refine ⟨String.toList_ofList, rfl, rfl, rfl, ?_⟩
  dsimp only [ListedFile.describe]
  omega

theorem clipboardFileList_readsBack (files : List ListedFile) (hcount : files.length < 2 ^ 32)
    (hnames : ∀ f ∈ files, f.Listable) (htimes : ∀ f ∈ files, f.lastWriteTime < 2 ^ 64) :
    ReadsBack (max 0) files := by
  intro connId
  refine ⟨_, parse_buildFileListPdu connId files hcount hnames, ?_⟩
  rw [List.forall₂_map_right_iff, List.forall₂_same]
  intro f hf
  exact describes_describe connId (htimes f hf)

/-- A file of the year 1990 in a directory, listed from above the directory. -/
def letter : ListedFile where
  path := "/home/me/docs/letter.txt"
  size := 5000000000
  relativeRoot := "/home/me"
  lastWriteTime := 631152000123456789
  perm := 0o100644
  normal := true
  size_lt := by decide
  perm_lt := by decide
  path_noNul := by decide

theorem clipboardFileList_readsBack_letter : letter.relativeName = "docs/letter.txt".toList ∧
    ReadsBack (max 0) [letter] :=
  ⟨by decide, clipboardFileList_readsBack [letter] (by decide) (by decide +kernel) (by decide)⟩

/-- The same file, last written one nanosecond before 1970. -/
def oldLetter : ListedFile := { letter with lastWriteTime := -1 }

theorem clipboardFileList_oldLetter : oldLetter.Listable ∧ ¬ ReadsBack id [oldLetter] := by
  have hlist : oldLetter.Listable := by decide +kernel
  refine ⟨hlist, fun h => ?_⟩
  obtain ⟨descs, hparse, hdescs⟩ := h 0
  have hok := parse_buildFileListPdu 0 [oldLetter] (by decide) (by simpa using hlist)
  rw [hok, Except.ok.injEq] at hparse
  rw [← hparse, List.map_singleton, List.forall₂_cons] at hdescs
  have htime := hdescs.1.2.2.2.2
  exact absurd htime (by decide)

end RustDesk.Clipboard
