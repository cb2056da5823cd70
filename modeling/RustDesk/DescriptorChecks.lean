import RustDesk.FileListPdu

/-!
# Where the records of files panic

The writer pads a name by a subtraction and the reader multiplies a time that the peer chose. Both
are written here with the checks of Rust, so that an operation that leaves its type, or a byte that
is not there, gives no result at all. Without the checks of a debug build the subtraction asks for a
buffer that cannot be had and the product wraps. A `usize` has 64 bits.
-/

namespace RustDesk.Clipboard

/-! ### Operations with their checks -/

def checkedSub (a b : Nat) : Option Nat := if b ≤ a then some (a - b) else none

/-- The result of a sum or a product of `u64`. -/
def checkedU64 (n : Nat) : Option Nat := if n < 2 ^ 64 then some n else none

/-- `get_u32_le` and `get_u64_le`. -/
def getLe (k : Nat) (bytes : Bytes) : Option (Nat × Bytes) :=
  if bytes.length < k then none else some (ofLeBytes (bytes.take k), bytes.drop k)

def advance (k : Nat) (bytes : Bytes) : Option Bytes :=
  if bytes.length < k then none else some (bytes.drop k)

/-- `&bytes[..k]` -/
def sliceTo (k : Nat) (bytes : Bytes) : Option Bytes :=
  if bytes.length < k then none else some (bytes.take k)

/-! ### The code with the checks -/

def ListedFile.asBinChecked (f : ListedFile) : Option Bytes := do
  let win32Time ← checkedU64 (f.lastWriteTime.toNat % 2 ^ 64 / 100 + ldapEpochDelta)
  let name := utf16LeBytes f.relativeName
  let padding ← checkedSub 520 name.length
  some
    (toLeBytes 4 (flagsFdSize ||| flagsFdLastWrite ||| flagsFdAttributes ||| flagsFdProgressui |||
      flagsFdUnixMode) ++
    List.replicate 32 0 ++ toLeBytes 4 f.fileAttributes ++
    List.replicate 12 0 ++ toLeBytes 4 f.perm ++
    toLeBytes 8 win32Time ++
    toLeBytes 4 (f.size / 2 ^ 32) ++ toLeBytes 4 (f.size % 2 ^ 32) ++
    (name ++ List.replicate padding 0))

/-- The loop of `build_file_list_pdu`, which puts each record behind what is there. -/
def putRecords : List ListedFile → Bytes → Option Bytes
  | [], data => some data
  | f :: files, data => do
    let record ← f.asBinChecked
    putRecords files (data ++ record)

def buildFileListPduChecked (files : List ListedFile) : Option Bytes :=
  putRecords files (toLeBytes 4 files.length)

/-- The time of a record in nanoseconds since 1970. -/
def lastModifiedChecked (flags lastWriteTime : Nat) : Option Nat :=
  if hasFlag flags flagsFdLastWrite ∧ ldapEpochDelta ≤ lastWriteTime then do
    let sinceEpoch ← checkedSub lastWriteTime ldapEpochDelta
    checkedU64 (sinceEpoch * 100)
  else some 0

/-- `parse_file_descriptor`, with what is left of the bytes. -/
def parseFileDescriptorChecked (connId : BitVec 32) (bytes : Bytes) :
    Option (Except CliprdrError FileDescription × Bytes) := do
  let (flags, bytes) ← getLe 4 bytes
  let bytes ← advance 32 bytes
  let (attributes, bytes) ← getLe 4 bytes
  let bytes ← advance 12 bytes
  let (mode, bytes) ← getLe 4 bytes
  let (lastWriteTime, bytes) ← getLe 8 bytes
  let (sizeHigh, bytes) ← getLe 4 bytes
  let (sizeLow, bytes) ← getLe 4 bytes
  let rest ← advance 520 bytes
  let block ← sliceTo 520 bytes
  match decodeUtf16 (utf16Units block) with
  | none => some (.error .conversionFailure, rest)
  | some cs =>
    if !hasFlag flags flagsFdAttributes then
      some (.error (.invalidRequest "file description must have valid attributes"), rest)
    else do
      let size ← checkedU64 (sizeHigh * 2 ^ 32 + sizeLow)
      let lastModified ← lastModifiedChecked flags lastWriteTime
      some
        (.ok
          { connId
            name := unixName cs
            kind := if hasFlag attributes 0x10 then .directory else .file
            lastModified
            size
            perm := if hasFlag flags flagsFdUnixMode then mode % 2 ^ 16 else permOf attributes },
          rest)

def parseRecordsChecked (connId : BitVec 32) :
    Nat → Bytes → Option (Except CliprdrError (List FileDescription))
  | 0, _ => some (.ok [])
  | n + 1, data => do
    match ← parseFileDescriptorChecked connId data with
    | (.error e, _) => some (.error e)
    | (.ok desc, rest) =>
      match ← parseRecordsChecked connId n rest with
      | .error e => some (.error e)
      | .ok descs => some (.ok (desc :: descs))

def parseFileDescriptorsChecked (pdu : Bytes) (connId : BitVec 32) :
    Option (Except CliprdrError (List FileDescription)) :=
  if pdu.length < 4 then
    some (.error (.invalidRequest "file descriptor request with infficient length"))
  else do
    let (count, data) ← getLe 4 pdu
    if data.length = 0 ∧ count = 0 then some (.ok [])
    else do
      let length ← checkedU64 (592 * count)
      if data.length ≠ length then
        some (.error (.invalidRequest "file descriptor request with invalid length"))
      else parseRecordsChecked connId count data

/-! ### The writer -/

theorem checkedU64_of_lt {n : Nat} (h : n < 2 ^ 64) : checkedU64 n = some n := if_pos h

namespace ListedFile

variable {f : ListedFile} {record : Bytes}

theorem asBinChecked_iff : f.asBinChecked = some record ↔ f.NameFits ∧ record = f.asBin := by
  have hname := length_utf16LeBytes f.relativeName
  have htime : f.lastWriteTime.toNat % 2 ^ 64 / 100 + ldapEpochDelta < 2 ^ 64 := by
    unfold ldapEpochDelta
    omega
  unfold asBinChecked NameFits
  rw [checkedU64_of_lt htime]
  by_cases hfits : (encodeUtf16 f.relativeName).length ≤ 260
  · have hpad : checkedSub 520 (utf16LeBytes f.relativeName).length =
        some (520 - (utf16LeBytes f.relativeName).length) := if_pos (by omega)
    dsimp only [Option.bind_eq_bind, Option.bind_some]
    rw [hpad]
    dsimp only [Option.bind_some]
    rw [Option.some_inj]
    exact ⟨fun h => ⟨hfits, h.symm⟩, fun h => h.2.symm⟩
  · have hpad : checkedSub 520 (utf16LeBytes f.relativeName).length = none := if_neg (by omega)
    dsimp only [Option.bind_eq_bind, Option.bind_some]
    rw [hpad]
    exact ⟨nofun, fun h => absurd h.1 hfits⟩

end ListedFile

theorem putRecords_iff {files : List ListedFile} {data pdu : Bytes} :
    putRecords files data = some pdu ↔
      (∀ f ∈ files, f.NameFits) ∧ pdu = data ++ files.flatMap ListedFile.asBin := by
  induction files generalizing data with
  | nil => simp [putRecords, eq_comm]
  | cons f files ih =>
    rw [putRecords, Option.bind_eq_bind, Option.bind_eq_some_iff]
    simp only [ListedFile.asBinChecked_iff, ih, List.forall_mem_cons, List.flatMap_cons]
    constructor
    · rintro ⟨record, ⟨hf, rfl⟩, hfiles, rfl⟩
      exact ⟨⟨hf, hfiles⟩, List.append_assoc _ _ _⟩
    · rintro ⟨⟨hf, hfiles⟩, rfl⟩
      exact ⟨f.asBin, ⟨hf, rfl⟩, hfiles, (List.append_assoc _ _ _).symm⟩

/-- Records of one length stand one behind the other. -/
theorem drop_flatMap_asBin {files : List ListedFile} (h : ∀ f ∈ files, f.NameFits) {i : Nat}
    {f : ListedFile} (hf : files[i]? = some f) :
    ((files.flatMap ListedFile.asBin).drop (592 * i)).take 592 = f.asBin := by
  induction files generalizing i with
  | nil => cases hf
  | cons g files ih =>
    obtain ⟨hg, hfiles⟩ := List.forall_mem_cons.mp h
    have hlen := ListedFile.length_asBin hg
    rw [List.flatMap_cons]
    cases i with
    | zero =>
      obtain rfl := Option.some.inj hf
      exact List.take_left' hlen
    | succ i =>
      rw [show 592 * (i + 1) = g.asBin.length + 592 * i by omega, List.drop_length_add_append]
      exact ih hfiles hf

/-! ### The reader -/

section Cursor

/-! Behind the first `n` bytes. -/

variable {bytes : Bytes} {n k : Nat} {α : Type} (h : n + k ≤ bytes.length)

include h

theorem bind_getLe (f : Nat × Bytes → Option α) :
    (getLe k (bytes.drop n) >>= f) = f (field bytes n k, bytes.drop (n + k)) := by
  unfold getLe
  rw [List.length_drop, if_neg (by omega), List.drop_drop]
  rfl

theorem bind_advance (f : Bytes → Option α) :
    (advance k (bytes.drop n) >>= f) = f (bytes.drop (n + k)) := by
  unfold advance
  rw [List.length_drop, if_neg (by omega), List.drop_drop]
  rfl

theorem bind_sliceTo (f : Bytes → Option α) :
    (sliceTo k (bytes.drop n) >>= f) = f ((bytes.drop n).take k) := by
  unfold sliceTo
  rw [List.length_drop, if_neg (by omega)]
  rfl

end Cursor

/-- The name of a record decodes and its attributes are valid. -/
def Readable (record : Bytes) : Prop :=
  (decodeUtf16 (utf16Units ((record.drop 72).take 520))).isSome ∧
    hasFlag (field record 0 4) flagsFdAttributes = true

/-- The time, if it counts, is one of the next 584 years after 1970. -/
def TimeFits (record : Bytes) : Prop :=
  hasFlag (field record 0 4) flagsFdLastWrite = true →
    field record 56 8 ≤ ldapEpochDelta + 184467440737095516

variable {connId : BitVec 32} {bytes : Bytes}

theorem field_take {m start n : Nat} (h : start + n ≤ m) :
    field (bytes.take m) start n = field bytes start n := by
  unfold field
  rw [List.drop_take, List.take_take, min_eq_left (by omega)]

theorem parseFileDescriptor_ok_iff {record : Bytes} :
    (∃ desc, parseFileDescriptor connId record = .ok desc) ↔ Readable record := by
  constructor
  · rintro ⟨desc, hparse⟩
    have h := parseFileDescriptor_ok hparse
    exact ⟨h.name, h.attributes⟩
  · rintro ⟨hname, hflag⟩
    obtain ⟨cs, hcs⟩ := Option.isSome_iff_exists.mp hname
    unfold parseFileDescriptor
    dsimp only
    rw [hcs, hflag]
    exact ⟨_, rfl⟩

theorem checkedU64_hundredfold {n v : Nat} :
    checkedU64 (n * 100) = some v ↔ n ≤ 184467440737095516 ∧ v = n * 100 % 2 ^ 64 := by
  have hmax : n * 100 < 2 ^ 64 ↔ n ≤ 184467440737095516 := by omega
  rw [← hmax]
  unfold checkedU64
  by_cases hlt : n * 100 < 2 ^ 64
  · rw [if_pos hlt, Nat.mod_eq_of_lt hlt, Option.some_inj]
    constructor
    · intro h
      exact ⟨hlt, h.symm⟩
    · intro h
      exact h.2.symm
  · rw [if_neg hlt]
    constructor
    · exact nofun
    · intro h
      exact absurd h.1 hlt

theorem lastModifiedChecked_iff {flags time v : Nat} :
    lastModifiedChecked flags time = some v ↔
      (hasFlag flags flagsFdLastWrite = true → time ≤ ldapEpochDelta + 184467440737095516) ∧
      v = if hasFlag flags flagsFdLastWrite ∧ ldapEpochDelta ≤ time then
        (time - ldapEpochDelta) * 100 % 2 ^ 64 else 0 := by
  unfold lastModifiedChecked
  by_cases hlast : hasFlag flags flagsFdLastWrite = true ∧ ldapEpochDelta ≤ time
  · obtain ⟨hflag, hle⟩ := hlast
    have hsub : checkedSub time ldapEpochDelta = some (time - ldapEpochDelta) := if_pos hle
    rw [if_pos ⟨hflag, hle⟩, if_pos ⟨hflag, hle⟩, hsub, Option.bind_eq_bind, Option.bind_some,
      checkedU64_hundredfold, Nat.sub_le_iff_le_add']
    simp only [hflag, true_implies]
  · rw [if_neg hlast, if_neg hlast, Option.some_inj]
    constructor
    · intro h
      refine ⟨fun hflag => ?_, h.symm⟩
      have hlt : time < ldapEpochDelta := Nat.not_le.mp fun hle => hlast ⟨hflag, hle⟩
      exact hlt.le.trans (Nat.le_add_right _ _)
    · intro h
      exact h.2.symm

/-- The bytes of one record suffice for every field; only the time is left to be checked. -/
theorem parseFileDescriptorChecked_eq (h : 592 ≤ bytes.length) :
    parseFileDescriptorChecked connId bytes =
      match parseFileDescriptor connId (bytes.take 592) with
      | .error e => some (.error e, bytes.drop 592)
      | .ok desc => (lastModifiedChecked (field bytes 0 4) (field bytes 56 8)).map
          fun lastModified => (.ok { desc with lastModified }, bytes.drop 592) := by
  have hname : ((bytes.take 592).drop 72).take 520 = (bytes.drop 72).take 520 := by
    rw [List.drop_take, List.take_take, min_self]
  have hhigh := field_lt bytes 64 4
  have hlow := field_lt bytes 68 4
  have hsize : field bytes 64 4 * 2 ^ 32 + field bytes 68 4 < 2 ^ 64 := by omega
  -- The reader starts behind the first zero bytes.
  change parseFileDescriptorChecked connId (bytes.drop 0) = _
  unfold parseFileDescriptorChecked parseFileDescriptor
  simp (disch := omega) only [↓bind_getLe, ↓bind_advance, ↓bind_sliceTo, field_take, hname]
  cases decodeUtf16 (utf16Units ((bytes.drop 72).take 520)) with
  | none => rfl
  | some cs =>
    cases hasFlag (field bytes 0 4) flagsFdAttributes with
    | false => rfl
    | true =>
      dsimp only [Bool.not_true, Bool.false_eq_true, if_false]
      rw [checkedU64_of_lt hsize]
      cases lastModifiedChecked (field bytes 0 4) (field bytes 56 8) with
      | none => rfl
      | some lastModified => rfl

theorem parseFileDescriptorChecked_some (h : 592 ≤ bytes.length)
    (hfits : Readable (bytes.take 592) → TimeFits (bytes.take 592)) :
    parseFileDescriptorChecked connId bytes =
      some (parseFileDescriptor connId (bytes.take 592), bytes.drop 592) := by
  rw [parseFileDescriptorChecked_eq h]
  cases hparse : parseFileDescriptor connId (bytes.take 592) with
  | error e => rfl
  | ok desc =>
    have htime := hfits (parseFileDescriptor_ok_iff.mp ⟨desc, hparse⟩)
    have hmodified := (parseFileDescriptor_ok hparse).lastModified
    unfold TimeFits at htime
    rw [field_take (by omega), field_take (by omega)] at htime hmodified
    dsimp only
    rw [lastModifiedChecked_iff.mpr ⟨htime, hmodified⟩]
    rfl

theorem parseFileDescriptorChecked_none (h : 592 ≤ bytes.length)
    (hread : Readable (bytes.take 592)) (hfits : ¬ TimeFits (bytes.take 592)) :
    parseFileDescriptorChecked connId bytes = none := by
  obtain ⟨desc, hparse⟩ : ∃ desc, parseFileDescriptor connId (bytes.take 592) = .ok desc :=
    parseFileDescriptor_ok_iff.mpr hread
  rw [parseFileDescriptorChecked_eq h, hparse]
  dsimp only
  cases hmodified : lastModifiedChecked (field bytes 0 4) (field bytes 56 8) with
  | none => rfl
  | some v =>
    have htime := (lastModifiedChecked_iff.mp hmodified).1
    unfold TimeFits at hfits
    rw [field_take (by omega), field_take (by omega)] at hfits
    exact absurd htime hfits

/-- Record `i` behind the number of the records. -/
def recordAt (data : Bytes) (i : Nat) : Bytes := (data.drop (592 * i)).take 592

/-- Every record that is come to, all before it being readable, has a time that fits. -/
def TimesFit (n : Nat) (data : Bytes) : Prop :=
  ∀ i < n, (∀ j ≤ i, Readable (recordAt data j)) → TimeFits (recordAt data i)

theorem timesFit_succ {n : Nat} {data : Bytes} :
    TimesFit (n + 1) data ↔ (Readable (data.take 592) → TimeFits (data.take 592)) ∧
      (Readable (data.take 592) → TimesFit n (data.drop 592)) := by
  have hfirst : recordAt data 0 = data.take 592 := rfl
  have hnext : ∀ i, recordAt (data.drop 592) i = recordAt data (i + 1) := by
    intro i
    unfold recordAt
    rw [List.drop_drop, show 592 + 592 * i = 592 * (i + 1) by omega]
  unfold TimesFit
  simp only [hnext]
  constructor
  · intro h
    constructor
    · intro hread
      exact h 0 (by omega) fun j hj => by rwa [Nat.le_zero.mp hj]
    · intro hread i hi hall
      refine h (i + 1) (by omega) fun j hj => ?_
      cases j with
      | zero => exact hread
      | succ j => exact hall j (by omega)
  · rintro ⟨hzero, hsucc⟩ i hi hall
    have hread : Readable (data.take 592) := hall 0 (by omega)
    cases i with
    | zero => exact hzero hread
    | succ i => exact hsucc hread i (by omega) fun j hj => hall (j + 1) (by omega)

theorem parseRecordsChecked_some {n : Nat} {data : Bytes} (h : 592 * n ≤ data.length)
    (hfits : TimesFit n data) :
    parseRecordsChecked connId n data = some (parseRecords connId n data) := by
  induction n generalizing data with
  | zero => rfl
  | succ n ih =>
    obtain ⟨hzero, hsucc⟩ := timesFit_succ.mp hfits
    unfold parseRecordsChecked parseRecords
    rw [parseFileDescriptorChecked_some (by omega) hzero, Option.bind_eq_bind, Option.bind_some]
    cases hparse : parseFileDescriptor connId (data.take 592) with
    | error e => rfl
    | ok desc =>
      have hread := parseFileDescriptor_ok_iff.mp ⟨desc, hparse⟩
      have hrest : 592 * n ≤ (data.drop 592).length := by
        rw [List.length_drop]
        omega
      dsimp only
      rw [ih hrest (hsucc hread), Option.bind_eq_bind, Option.bind_some]
      cases parseRecords connId n (data.drop 592) with
      | error e => rfl
      | ok descs => rfl

theorem parseRecordsChecked_none {n : Nat} {data : Bytes} (h : 592 * n ≤ data.length)
    (hfits : ¬ TimesFit n data) : parseRecordsChecked connId n data = none := by
  induction n generalizing data with
  | zero => exact absurd (fun i hi => absurd hi (Nat.not_lt_zero i)) hfits
  | succ n ih =>
    rw [timesFit_succ] at hfits
    unfold parseRecordsChecked
    by_cases hread : Readable (data.take 592)
    · by_cases hzero : TimeFits (data.take 592)
      · obtain ⟨desc, hparse⟩ : ∃ desc, parseFileDescriptor connId (data.take 592) = .ok desc :=
          parseFileDescriptor_ok_iff.mpr hread
        have hrest : 592 * n ≤ (data.drop 592).length := by
          rw [List.length_drop]
          omega
        have hsucc : ¬ TimesFit n (data.drop 592) :=
          fun hsucc => hfits ⟨fun _ => hzero, fun _ => hsucc⟩
        rw [parseFileDescriptorChecked_some (by omega) fun _ => hzero, Option.bind_eq_bind,
          Option.bind_some, hparse]
        dsimp only
        rw [ih hrest hsucc]
        rfl
      · rw [parseFileDescriptorChecked_none (by omega) hread hzero]
        rfl
    · exact absurd ⟨fun h => absurd h hread, fun h => absurd h hread⟩ hfits

/-- A list of the length that it announces has times that fit. -/
def PduTimesFit (pdu : Bytes) : Prop :=
  pdu.length = 4 + 592 * field pdu 0 4 → TimesFit (field pdu 0 4) (pdu.drop 4)

/-- A list of another length is refused before a record is read. -/
theorem parseFileDescriptorsChecked_eq (pdu : Bytes) (connId : BitVec 32) :
    parseFileDescriptorsChecked pdu connId =
      if pdu.length = 4 + 592 * field pdu 0 4 then
        parseRecordsChecked connId (field pdu 0 4) (pdu.drop 4)
      else some (parseFileDescriptors pdu connId) := by
  unfold parseFileDescriptorsChecked parseFileDescriptors
  by_cases hshort : pdu.length < 4
  · rw [if_pos hshort, if_pos hshort, if_neg (by omega)]
  · have hcount := field_lt pdu 0 4
    have hlength : 592 * field pdu 0 4 < 2 ^ 64 := by omega
    have hdata : (pdu.drop 4).length = pdu.length - 4 := List.length_drop
    rw [if_neg hshort, if_neg hshort]
    change (getLe 4 (pdu.drop 0) >>= _) = _
    rw [bind_getLe (by omega)]
    dsimp only
    rw [checkedU64_of_lt hlength, Option.bind_eq_bind, Option.bind_some, hdata]
    by_cases hempty : pdu.length - 4 = 0 ∧ field pdu 0 4 = 0
    · rw [if_pos hempty, if_pos hempty, if_pos (by omega), hempty.2]
      rfl
    · rw [if_neg hempty, if_neg hempty]
      by_cases hfull : pdu.length = 4 + 592 * field pdu 0 4
      · rw [if_neg (by omega), if_pos hfull]
      · rw [if_pos (by omega), if_neg hfull, if_pos (by omega)]

theorem parseFileDescriptorsChecked_iff {pdu : Bytes} :
    (∃ r, parseFileDescriptorsChecked pdu connId = some r) ↔ PduTimesFit pdu := by
  rw [parseFileDescriptorsChecked_eq]
  unfold PduTimesFit
  by_cases hfull : pdu.length = 4 + 592 * field pdu 0 4
  · have hdata : 592 * field pdu 0 4 ≤ (pdu.drop 4).length := by
      rw [List.length_drop]
      omega
    rw [if_pos hfull]
    constructor
    · rintro ⟨r, hr⟩ -
      by_contra hfits
      rw [parseRecordsChecked_none hdata hfits] at hr
      cases hr
    · intro h
      exact ⟨_, parseRecordsChecked_some hdata (h hfull)⟩
  · rw [if_neg hfull]
    exact ⟨fun _ h => absurd h hfull, fun _ => ⟨_, rfl⟩⟩

/-! ### The records -/

/-- The list is written, and record `i` of it is the 592 bytes from 4 + 592 · `i` on. -/
def WritesRecords (files : List ListedFile) : Prop :=
  ∃ pdu, buildFileListPduChecked files = some pdu ∧ pdu.length = 4 + 592 * files.length ∧
    ∀ i f, files[i]? = some f → ∃ record, f.asBinChecked = some record ∧ record.length = 592 ∧
      (pdu.drop (4 + 592 * i)).take 592 = record

theorem writesRecords_iff {files : List ListedFile} :
    WritesRecords files ↔ ∀ f ∈ files, f.NameFits := by
  constructor
  · rintro ⟨pdu, hpdu, -⟩
    exact (putRecords_iff.mp hpdu).1
  · intro h
    refine ⟨_, putRecords_iff.mpr ⟨h, rfl⟩, ?_, fun i f hf => ?_⟩
    · rw [List.length_append, length_toLeBytes, length_flatMap_asBin h]
    · have hfits := h f (List.mem_of_getElem? hf)
      refine ⟨f.asBin, ListedFile.asBinChecked_iff.mpr ⟨hfits, rfl⟩,
        ListedFile.length_asBin hfits, ?_⟩
      have hcount : (toLeBytes 4 files.length).length = 4 := length_toLeBytes 4 files.length
      rw [show 4 + 592 * i = (toLeBytes 4 files.length).length + 592 * i by rw [hcount],
        List.drop_length_add_append]
      exact drop_flatMap_asBin h hf

theorem descriptor_records (files : List ListedFile) (pdu : Bytes) (connId : BitVec 32) :
    (WritesRecords files ↔ ∀ f ∈ files, f.NameFits) ∧
      ((∃ r, parseFileDescriptorsChecked pdu connId = some r) ↔ PduTimesFit pdu) :=
  ⟨writesRecords_iff, parseFileDescriptorsChecked_iff⟩

/-- Below the root `/r` the name has 301 units. -/
def deepPath : List Char :=
  ['/', 'r', '/'] ++ List.replicate 200 'a' ++ ['/'] ++ List.replicate 100 'b'

theorem deepFile_perm_lt : 0o100644 < 2 ^ 32 := by decide

def deepFile : ListedFile where
  path := String.ofList deepPath
  size := 1
  relativeRoot := "/r"
  lastWriteTime := 0
  perm := 0o100644
  normal := true
  size_lt := by decide
  perm_lt := deepFile_perm_lt
  path_noNul := by
    rw [String.toList_ofList]
    decide +kernel

/-- One record whose time is the largest of 64 bits. -/
def lastRecord : Bytes :=
  [1, 0, 0, 0] ++ ([0x24, 0, 0, 0] ++ List.replicate 52 0 ++ List.replicate 8 0xFF ++
    List.replicate 528 0)

theorem descriptor_records_panic : ¬ WritesRecords [deepFile] ∧
    parseFileDescriptorsChecked lastRecord 0 = none := by
  constructor
  · intro h
    have hfits := writesRecords_iff.mp h deepFile List.mem_cons_self
    have hpath : deepFile.path.toList = deepPath := String.toList_ofList
    unfold ListedFile.NameFits ListedFile.relativeName at hfits
    rw [hpath] at hfits
    revert hfits
    decide +kernel
  · decide +kernel

end RustDesk.Clipboard
