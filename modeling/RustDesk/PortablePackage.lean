import RustDesk.CustomServerName
import RustDesk.PermanentPassword
import RustDesk.PeerNames
import RustDesk.Utf8Text

/-!
# The portable package

A script packs the files of the program into one block of data, which is built into an executable; that
executable unpacks the files into a directory of Windows and runs the program there. The script is written in
Python and the executable in Rust. Texts are their UTF-8 bytes, and `none` is an exception or a panic.

Which place of the file system a path below the directory names is left open, as is how each write ends. Of
the directories that are made on the way nothing is said.
-/

namespace RustDesk.PortablePackage

open PermanentPassword Utf8Text

/-! ### The script -/

/-- The compressor at a level, and the hash of a file in hexadecimal digits. -/
structure Tools where
  compress : Bytes → Bytes
  decompress : Bytes → Bytes
  md5 : Bytes → List Char

/-- `"rustdesk"` -/
def identifier : Bytes := [114, 117, 115, 116, 100, 101, 115, 107]

/-- `to_bytes`, with four bytes and the highest first. -/
def toBytes (n : Nat) : Option Bytes := if n < 256 ^ 4 then some (toLeBytes 4 n).reverse else none

/-- What `write_package_metadata` writes for a file. -/
def writeEntry (tools : Tools) (file : List Char × Bytes) : Option Bytes := do
  let pathLength ← toBytes (text file.1).length
  let dataLength ← toBytes (tools.compress file.2).length
  some (pathLength ++ (text file.1 ++ (dataLength ++ (tools.compress file.2 ++ text (tools.md5 file.2)))))

def writePackageMetadata (tools : Tools) (folder : List (List Char × Bytes)) (exe : List Char) :
    Option Bytes := do
  let entries ← folder.mapM (writeEntry tools)
  some (identifier ++ (entries.flatten ++ (identifier ++ text exe)))

/-! ### The executable -/

def identifierLength : Nat := 8

def md5Length : Nat := 32

structure BinaryData where
  md5Code : Bytes
  raw : Bytes
  path : Bytes
  deriving DecidableEq, Repr

/-- The slice of the next `n` bytes. -/
def cut (n : Nat) (data : Bytes) : Option (Bytes × Bytes) :=
  if n ≤ data.length then some (data.take n, data.drop n) else none

/-- `from_be_bytes` -/
def length (bytes : Bytes) : Nat := ofLeBytes bytes.reverse

/-- A turn of the loop that reads a file. -/
def readData (data : Bytes) : Option (BinaryData × Bytes) :=
  (cut 4 data).bind fun (pathLength, data) =>
  (cut (length pathLength) data).bind fun (path, data) =>
  (cut 4 data).bind fun (fileLength, data) =>
  (cut (length fileLength) data).bind fun (raw, data) =>
  (cut md5Length data).map fun (md5Code, data) => ({ md5Code, raw, path := fromUtf8Lossy path }, data)

theorem length_cut {n : Nat} {data front rest : Bytes} (h : cut n data = some (front, rest)) :
    rest.length + n = data.length := by
  unfold cut at h
  split_ifs at h with hn
  cases h
  rw [List.length_drop, Nat.sub_add_cancel hn]

theorem length_readData {data rest : Bytes} {file : BinaryData} (h : readData data = some (file, rest)) :
    rest.length < data.length := by
  simp only [readData, Option.bind_eq_some_iff, Option.map_eq_some_iff, Prod.exists, Prod.mk.injEq] at h
  obtain ⟨_, _, hfirst, _, _, hpath, _, _, hsecond, _, _, hraw, _, _, hmd5, -, rfl⟩ := h
  have := length_cut hfirst
  have := length_cut hpath
  have := length_cut hsecond
  have := length_cut hraw
  have := length_cut hmd5
  omega

/-- The loop, and what is left for the name of the executable. -/
def readFiles (data : Bytes) : Option (List BinaryData × Bytes) :=
  match cut identifierLength data with
  | none => none
  | some (iden, exe) =>
    if fromUtf8Lossy iden = identifier then some ([], exe)
    else
      match _h : readData data with
      | none => none
      | some (file, rest) => (readFiles rest).map fun (files, exe) => (file :: files, exe)
termination_by data.length
decreasing_by exact length_readData _h

/-- `BinaryReader::read` -/
def read (data : Bytes) : Option (List BinaryData × Bytes) :=
  if data.length > identifierLength then
    (cut identifierLength data).bind fun (iden, rest) =>
      if fromUtf8Lossy iden = identifier then
        (readFiles rest).map fun (files, exe) => (files, fromUtf8Lossy exe)
      else none
  else none

/-- What is at a place of the file system: a file, or a directory or file that can not be read as one. -/
inductive Entry
  | file (content : Bytes)
  | unreadable
  deriving DecidableEq, Repr

/-- `fs::read(..).unwrap_or_default()` -/
def Entry.read : Entry → Bytes
  | .file content => content
  | .unreadable => []

abbrev Directory (ι : Type) := ι → Option Entry

/-- How a write ends; an error is ignored, whatever is left then. -/
inductive Outcome
  | written
  | failed (left : Option Entry)
  deriving DecidableEq, Repr

def appMetadataConfig : Bytes := text "meta.toml".toList

def metaLinePrefixTimestamp : List Char := "timestamp = ".toList

def winTopmostInjectedProcessExe : Bytes := text "RuntimeBroker_rustdesk.exe".toList

/-- What is found and what happens when the executable starts: `broker` is the `RuntimeBroker.exe` of the
system, `undeletable` says what can not be removed, and the writes end as `outcomes`, `metaOutcome` and
`copyOutcome` say. -/
structure Start (ι : Type) where
  clear : Bool := false
  broker : Option Bytes := none
  undeletable : ι → Bool := fun _ => false
  outcomes : List Outcome := []
  metaOutcome : Outcome := .written
  copyOutcome : Outcome := .written

/-- `str::lines` -/
def lines (s : List Char) : List (List Char) :=
  let parts := s.splitOn '\n'
  let ended := parts.dropLast.map fun line => if line.getLast? = some '\r' then line.dropLast else line
  ended ++ parts.getLast?.toList.filter (· ≠ [])

/-- `str::parse::<u64>` -/
def parseU64 (s : List Char) : Option Nat :=
  let digits := match s with
    | '+' :: digits => digits
    | digits => digits
  if digits.isEmpty || !digits.all Char.isDigit then none
  else
    let n := Nat.ofDigitChars 10 digits 0
    if n < 2 ^ 64 then some n else none

/-- The first line with a timestamp that can be parsed. -/
def firstTimestamp (content : List Char) : Option Nat :=
  (lines content).findSome? fun line =>
    if metaLinePrefixTimestamp.isPrefixOf line then
      parseU64 (CustomServerName.replace metaLinePrefixTimestamp [] line)
    else none

/-- `str::from_utf8` -/
def fromUtf8? (bytes : Bytes) : Option (List Char) :=
  if fromUtf8 bytes then some (PeerConfig.lossyText bytes) else none

/-- The timestamp of the executable, with zero for none. -/
def timestamp (appMetadata : Bytes) : Nat := ((fromUtf8? appMetadata).bind firstTimestamp).getD 0

section

variable {ι : Type} [DecidableEq ι] (tools : Tools) (place : Bytes → ι)

def write (dir : Directory ι) (k : ι) (content : Bytes) : Outcome → Directory ι
  | .written => Function.update dir k (some (.file content))
  | .failed left => Function.update dir k left

def readToString (dir : Directory ι) (k : ι) : Option (List Char) :=
  match dir k with
  | some (.file content) => fromUtf8? content
  | _ => none

/-- The timestamp comes with the answer. -/
def isTimestampMatches (appMetadata : Bytes) (dir : Directory ι) : Bool × Nat :=
  let ts := timestamp appMetadata
  if ts = 0 then (true, ts)
  else ((readToString dir (place appMetadataConfig)).bind firstTimestamp = some ts, ts)

/-- A file that is there already stays, if it has the right hash. -/
def writeToFile (dir : Directory ι) (file : BinaryData) (o : Outcome) : Directory ι :=
  match dir (place file.path) with
  | some e =>
    if text (tools.md5 e.read) = fromUtf8Lossy file.md5Code then dir
    else write dir (place file.path) (tools.decompress file.raw) o
  | none => write dir (place file.path) (tools.decompress file.raw) o

def writeFiles : List BinaryData → List Outcome → Directory ι → Directory ι
  | [], _, dir => dir
  | file :: files, outcomes, dir =>
    writeFiles files outcomes.tail (writeToFile tools place dir file (outcomes.headD .written))

def writeMeta (ts : Nat) (o : Outcome) (dir : Directory ι) : Directory ι :=
  if ts ≠ 0 then
    write dir (place appMetadataConfig) (text (metaLinePrefixTimestamp ++ Nat.toDigits 10 ts)) o
  else dir

def copyRuntimeBroker (broker : Option Bytes) (o : Outcome) (dir : Directory ι) : Directory ι :=
  let k := place winTopmostInjectedProcessExe
  match broker with
  | none => dir
  | some src =>
    match dir k with
    | some (.file tgt) => if tools.md5 src = tools.md5 tgt then dir else write dir k src o
    | _ => write dir k src o

def removeDirAll (undeletable : ι → Bool) (dir : Directory ι) : Directory ι :=
  fun k => if undeletable k then dir k else none

/-- The directory is cleared when the user asks for it, or for another version. -/
def Clears (appMetadata : Bytes) (s : Start ι) (dir : Directory ι) : Bool :=
  s.clear || !(isTimestampMatches place appMetadata dir).1

/-- The directory as the files are about to be written. -/
def cleared (appMetadata : Bytes) (s : Start ι) (dir : Directory ι) : Directory ι :=
  if Clears place appMetadata s dir then removeDirAll s.undeletable dir else dir

/-- `setup`, and the place of the program that is run then. The timestamp is not looked at when the user asks
to clear the directory. -/
def setup (files : List BinaryData) (exe appMetadata : Bytes) (s : Start ι) (dir : Directory ι) :
    Directory ι × ι :=
  let ts := if s.clear then 0 else (isTimestampMatches place appMetadata dir).2
  let dir := cleared place appMetadata s dir
  let dir := writeFiles tools place files s.outcomes dir
  let dir := writeMeta place ts s.metaOutcome dir
  (copyRuntimeBroker tools place s.broker s.copyOutcome dir, place exe)

end

/-! ### What is written is read -/

section

variable {tools : Tools} {file : List Char × Bytes}

/-- The entry that is read for a file. -/
def binaryData (tools : Tools) (file : List Char × Bytes) : BinaryData where
  md5Code := text (tools.md5 file.2)
  raw := tools.compress file.2
  path := text file.1

theorem cut_append {n : Nat} {front : Bytes} (h : front.length = n) (rest : Bytes) :
    cut n (front ++ rest) = some (front, rest) := by
  have hle : n ≤ (front ++ rest).length := by
    rw [List.length_append, h]
    exact Nat.le_add_right n _
  unfold cut
  rw [if_pos hle, List.take_left' h, List.drop_left' h]

theorem toBytes_eq_some {n : Nat} {bytes : Bytes} (h : toBytes n = some bytes) :
    n < 256 ^ 4 ∧ bytes = (toLeBytes 4 n).reverse := by
  unfold toBytes at h
  split_ifs at h with hn
  exact ⟨hn, (Option.some.inj h).symm⟩

theorem length_toBytes {n : Nat} {bytes : Bytes} (h : toBytes n = some bytes) :
    bytes.length = 4 ∧ length bytes = n := by
  obtain ⟨hn, rfl⟩ := toBytes_eq_some h
  refine ⟨?_, ?_⟩
  · rw [List.length_reverse, length_toLeBytes]
  · rw [length, List.reverse_reverse]
    exact ofLeBytes_toLeBytes hn

theorem writeEntry_eq_some {bytes : Bytes} (h : writeEntry tools file = some bytes) :
    ∃ pathLength dataLength, toBytes (text file.1).length = some pathLength ∧
      toBytes (tools.compress file.2).length = some dataLength ∧
      bytes = pathLength ++ (text file.1 ++
        (dataLength ++ (tools.compress file.2 ++ text (tools.md5 file.2)))) := by
  simp only [writeEntry, Option.bind_eq_bind, Option.bind_eq_some_iff, Option.some.injEq] at h
  obtain ⟨pathLength, hpath, dataLength, hdata, hbytes⟩ := h
  exact ⟨pathLength, dataLength, hpath, hdata, hbytes.symm⟩

theorem readData_writeEntry (hmd5 : (text (tools.md5 file.2)).length = md5Length) {bytes : Bytes}
    (h : writeEntry tools file = some bytes) (rest : Bytes) :
    readData (bytes ++ rest) = some (binaryData tools file, rest) := by
  obtain ⟨pathLength, dataLength, hpath, hdata, rfl⟩ := writeEntry_eq_some h
  obtain ⟨hpath4, hpathLength⟩ := length_toBytes hpath
  obtain ⟨hdata4, hdataLength⟩ := length_toBytes hdata
  have hpathCut := cut_append hpathLength.symm
  have hdataCut := cut_append hdataLength.symm
  unfold readData binaryData
  simp only [List.append_assoc]
  rw [cut_append hpath4, Option.bind_some, hpathCut, Option.bind_some, cut_append hdata4, Option.bind_some,
    hdataCut, Option.bind_some, cut_append hmd5, Option.map_some, PeerConfig.fromUtf8Lossy_text]

/-- The first byte of a length is not that of the identifier. -/
theorem head_toBytes {n : Nat} (hn : n < 0x72000000) {bytes : Bytes} (h : toBytes n = some bytes) :
    ∃ first rest, bytes = first :: rest ∧ first < 0x72 := by
  obtain ⟨-, rfl⟩ := toBytes_eq_some h
  refine ⟨UInt8.ofNat (n / 256 / 256 / 256), _, rfl, ?_⟩
  rw [UInt8.lt_iff_toNat_lt, UInt8.toNat_ofNat_of_lt' (by change _ < 256; omega)]
  change _ < 0x72
  omega

theorem fromUtf8Lossy_ne_identifier {first : UInt8} (h : first < 0x72) (rest : Bytes) :
    fromUtf8Lossy (first :: rest) ≠ identifier := by
  have hascii : first < 0x80 := UInt8.lt_trans h (by decide)
  have hhead : fromUtf8Lossy (first :: rest) = first :: utf8Chunks true 0 rest := by
    simp only [fromUtf8Lossy, utf8Chunks, utf8Chunk, if_pos hascii]
  rw [hhead]
  intro heq
  rw [(List.cons.inj heq).1] at h
  exact absurd h (by decide)

theorem fromUtf8Lossy_identifier : fromUtf8Lossy identifier = identifier := by decide

theorem readFiles_identifier (exe : Bytes) : readFiles (identifier ++ exe) = some ([], exe) := by
  rw [readFiles, cut_append (n := identifierLength) rfl]
  dsimp only
  rw [if_pos fromUtf8Lossy_identifier]

theorem head_writeEntry (hpath : (text file.1).length < 0x72000000)
    (hmd5 : (text (tools.md5 file.2)).length = md5Length) {bytes : Bytes}
    (h : writeEntry tools file = some bytes) :
    identifierLength ≤ bytes.length ∧ ∃ first rest, bytes = first :: rest ∧ first < 0x72 := by
  obtain ⟨pathLength, dataLength, hlength, -, rfl⟩ := writeEntry_eq_some h
  obtain ⟨first, rest, rfl, hfirst⟩ := head_toBytes hpath hlength
  refine ⟨?_, first, _, rfl, hfirst⟩
  unfold md5Length at hmd5
  unfold identifierLength
  simp only [List.length_append, hmd5]
  omega

/-- The loop reads an entry, as no entry begins with the identifier. -/
theorem readFiles_writeEntry (hpath : (text file.1).length < 0x72000000)
    (hmd5 : (text (tools.md5 file.2)).length = md5Length) {bytes : Bytes}
    (h : writeEntry tools file = some bytes) (rest : Bytes) :
    readFiles (bytes ++ rest) =
      (readFiles rest).map fun (files, exe) => (binaryData tools file :: files, exe) := by
  have hread := readData_writeEntry hmd5 h rest
  obtain ⟨hlong, first, others, rfl, hfirst⟩ := head_writeEntry hpath hmd5 h
  have hfits : identifierLength ≤ (first :: others ++ rest).length :=
    hlong.trans (by rw [List.length_append]; exact Nat.le_add_right _ _)
  have hother : fromUtf8Lossy ((first :: others ++ rest).take identifierLength) ≠ identifier :=
    fromUtf8Lossy_ne_identifier hfirst _
  rw [readFiles, cut, if_pos hfits]
  dsimp only
  rw [if_neg hother]
  split
  · rename_i hnone
    rw [hread] at hnone
    cases hnone
  · rename_i hsome
    rw [hread] at hsome
    cases hsome
    rfl

/-- The paths are shorter than 1.9 GB, and the hash has 32 digits. -/
structure Packable (tools : Tools) (folder : List (List Char × Bytes)) : Prop where
  path : ∀ file ∈ folder, (text file.1).length < 0x72000000
  md5 : ∀ file ∈ folder, (text (tools.md5 file.2)).length = md5Length

theorem readFiles_mapM {folder : List (List Char × Bytes)} (hfolder : Packable tools folder)
    {entries : List Bytes} (h : folder.mapM (writeEntry tools) = some entries) (exe : Bytes) :
    readFiles (entries.flatten ++ (identifier ++ exe)) = some (folder.map (binaryData tools), exe) := by
  induction folder generalizing entries with
  | nil =>
    rw [List.mapM_nil] at h
    cases h
    exact readFiles_identifier exe
  | cons file folder ih =>
    rw [List.mapM_cons] at h
    simp only [Option.bind_eq_bind, Option.bind_eq_some_iff, Option.pure_def, Option.some.injEq] at h
    obtain ⟨bytes, hbytes, rest, hrest, rfl⟩ := h
    have hothers : Packable tools folder :=
      ⟨fun file hfile => hfolder.path file (List.mem_cons_of_mem _ hfile),
        fun file hfile => hfolder.md5 file (List.mem_cons_of_mem _ hfile)⟩
    rw [List.flatten_cons, List.append_assoc,
      readFiles_writeEntry (hfolder.path file List.mem_cons_self) (hfolder.md5 file List.mem_cons_self) hbytes,
      ih hothers hrest]
    rfl

/-- What the script writes is read back. -/
theorem read_writePackageMetadata {folder : List (List Char × Bytes)} (hfolder : Packable tools folder)
    {exe : List Char} {data : Bytes} (h : writePackageMetadata tools folder exe = some data) :
    read data = some (folder.map (binaryData tools), text exe) := by
  simp only [writePackageMetadata, Option.bind_eq_bind, Option.bind_eq_some_iff, Option.some.injEq] at h
  obtain ⟨entries, hentries, rfl⟩ := h
  have hlong : (identifier ++ (entries.flatten ++ (identifier ++ text exe))).length > identifierLength := by
    simp only [List.length_append, identifier, identifierLength, List.length_cons, List.length_nil]
    omega
  rw [read, if_pos hlong, cut_append (n := identifierLength) rfl, Option.bind_some]
  dsimp only
  rw [if_pos fromUtf8Lossy_identifier, readFiles_mapM hfolder hentries, Option.map_some]
  dsimp only
  rw [PeerConfig.fromUtf8Lossy_text]

theorem text_injective {chars chars' : List Char} (h : text chars = text chars') : chars = chars' := by
  rw [← PeerConfig.lossyText_text chars, h, PeerConfig.lossyText_text]

end

section

variable {ι : Type} {place : Bytes → ι} {dir : Directory ι}

/-! ### The timestamp -/

theorem fromUtf8?_text (chars : List Char) : fromUtf8? (text chars) = some chars := by
  unfold fromUtf8?
  rw [if_pos ((fromUtf8_iff _).mpr (isText_text chars)), PeerConfig.lossyText_text]

theorem firstTimestamp_lt {content : List Char} {ts : Nat} (h : firstTimestamp content = some ts) :
    ts < 2 ^ 64 := by
  obtain ⟨line, -, hline⟩ := List.exists_of_findSome?_eq_some h
  split_ifs at hline with hstarts
  unfold parseU64 at hline
  dsimp only at hline
  split_ifs at hline with hdigits hlt
  obtain rfl := Option.some.inj hline
  exact hlt

theorem timestamp_lt (appMetadata : Bytes) : timestamp appMetadata < 2 ^ 64 := by
  unfold timestamp
  cases hts : (fromUtf8? appMetadata).bind firstTimestamp with
  | none => decide
  | some ts =>
    obtain ⟨content, -, hcontent⟩ := Option.bind_eq_some_iff.mp hts
    exact firstTimestamp_lt hcontent

theorem replace_prefix_nil {digits : List Char} (h : ∀ c ∈ digits, c.isDigit = true) :
    CustomServerName.replace metaLinePrefixTimestamp [] digits = digits := by
  induction digits with
  | nil =>
    rw [CustomServerName.replace]
  | cons c digits ih =>
    have hother : ¬ (metaLinePrefixTimestamp.isPrefixOf (c :: digits) = true ∧ metaLinePrefixTimestamp ≠ []) := by
      rintro ⟨hstarts, -⟩
      obtain ⟨rest, hrest⟩ := List.isPrefixOf_iff_prefix.mp hstarts
      have hdigit := h c List.mem_cons_self
      obtain rfl : 't' = c := (List.cons.inj hrest).1
      exact absurd hdigit (by decide)
    rw [CustomServerName.replace, if_neg hother, ih fun d hd => h d (List.mem_cons_of_mem _ hd)]

theorem replace_prefix {digits : List Char} (h : ∀ c ∈ digits, c.isDigit = true) :
    CustomServerName.replace metaLinePrefixTimestamp [] (metaLinePrefixTimestamp ++ digits) = digits := by
  have hwhole : metaLinePrefixTimestamp ++ digits = 't' :: ("imestamp = ".toList ++ digits) := rfl
  have hstarts : metaLinePrefixTimestamp.isPrefixOf ('t' :: ("imestamp = ".toList ++ digits)) = true ∧
      metaLinePrefixTimestamp ≠ [] :=
    ⟨List.isPrefixOf_iff_prefix.mpr ⟨digits, hwhole⟩, by decide⟩
  rw [hwhole, CustomServerName.replace, if_pos hstarts]
  exact replace_prefix_nil h

theorem parseU64_toDigits {n : Nat} (h : n < 2 ^ 64) : parseU64 (Nat.toDigits 10 n) = some n := by
  have hdigits : ∀ c ∈ Nat.toDigits 10 n, c.isDigit = true :=
    fun c hc => Nat.isDigit_of_mem_toDigits (by decide) (by decide) hc
  have hall : (Nat.toDigits 10 n).all Char.isDigit = true := List.all_eq_true.mpr hdigits
  have hsign : (match Nat.toDigits 10 n with
      | '+' :: digits => digits
      | digits => digits) = Nat.toDigits 10 n := by
    split
    · rename_i hplus
      have hdigit := hdigits '+' (hplus ▸ List.mem_cons_self)
      exact absurd hdigit (by decide)
    · rfl
  have hempty : (Nat.toDigits 10 n).isEmpty = false := List.isEmpty_eq_false_iff.mpr Nat.toDigits_ne_nil
  unfold parseU64
  rw [hsign]
  simp only [hempty, hall, Bool.not_true, Bool.or_self, Bool.false_eq_true, if_false,
    Nat.ofDigitChars_ten_toDigits, if_pos h]

theorem lines_of_not_mem {line : List Char} (hline : line ≠ []) (h : '\n' ∉ line) : lines line = [line] := by
  unfold lines
  rw [List.splitOn_eq_singleton h]
  simp [hline]

/-- The line that is written for a timestamp is the one that is looked for. -/
theorem firstTimestamp_toDigits {ts : Nat} (h : ts < 2 ^ 64) :
    firstTimestamp (metaLinePrefixTimestamp ++ Nat.toDigits 10 ts) = some ts := by
  have hdigits : ∀ c ∈ Nat.toDigits 10 ts, c.isDigit = true :=
    fun c hc => Nat.isDigit_of_mem_toDigits (by decide) (by decide) hc
  have hnewline : '\n' ∉ metaLinePrefixTimestamp ++ Nat.toDigits 10 ts := by
    intro hmem
    rcases List.mem_append.mp hmem with hmem | hmem
    · exact absurd hmem (by decide)
    · exact absurd (hdigits _ hmem) (by decide)
  have hstarts : metaLinePrefixTimestamp.isPrefixOf (metaLinePrefixTimestamp ++ Nat.toDigits 10 ts) = true :=
    List.isPrefixOf_iff_prefix.mpr (List.prefix_append _ _)
  have hline : metaLinePrefixTimestamp ++ Nat.toDigits 10 ts ≠ [] :=
    List.append_ne_nil_of_left_ne_nil (by decide) _
  unfold firstTimestamp
  rw [lines_of_not_mem hline hnewline, List.findSome?_cons, if_pos hstarts, replace_prefix hdigits,
    parseU64_toDigits h]

theorem isTimestampMatches_snd (appMetadata : Bytes) (dir : Directory ι) :
    (isTimestampMatches place appMetadata dir).2 = timestamp appMetadata := by
  unfold isTimestampMatches
  dsimp only
  split_ifs
  · rfl
  · rfl

/-- The contents of `meta.toml`. -/
def Stamped (place : Bytes → ι) (ts : Nat) (dir : Directory ι) : Prop :=
  ts ≠ 0 → dir (place appMetadataConfig) = some (.file (text (metaLinePrefixTimestamp ++ Nat.toDigits 10 ts)))

theorem isTimestampMatches_stamped {appMetadata : Bytes} (h : Stamped place (timestamp appMetadata) dir) :
    (isTimestampMatches place appMetadata dir).1 = true := by
  unfold isTimestampMatches
  dsimp only
  split_ifs with hzero
  · rfl
  · have hread : readToString dir (place appMetadataConfig) =
        some (metaLinePrefixTimestamp ++ Nat.toDigits 10 (timestamp appMetadata)) := by
      unfold readToString
      rw [h hzero]
      exact fromUtf8?_text _
    have hfirst := firstTimestamp_toDigits (timestamp_lt appMetadata)
    dsimp only
    rw [hread, Option.bind_some, hfirst]
    exact decide_eq_true rfl

end

/-! ### What is read is unpacked -/

section

variable {ι : Type} {tools : Tools} {place : Bytes → ι} {dir : Directory ι} {k : ι}

/-- What is at a place with the hash of a content is a file with this content. -/
def Distinguished (tools : Tools) (dir : Directory ι) (k : ι) (content : Bytes) : Prop :=
  ∀ e, dir k = some e → tools.md5 e.read = tools.md5 content → e = .file content

theorem distinguished_cleared {appMetadata content : Bytes} {s : Start ι} (h : Distinguished tools dir k content) :
    Distinguished tools (cleared place appMetadata s dir) k content := by
  unfold cleared removeDirAll
  intro e he
  split_ifs at he with hclears
  · dsimp only at he
    split_ifs at he
    exact h e he
  · exact h e he

end

section

variable {ι : Type} [DecidableEq ι] {tools : Tools} {place : Bytes → ι} {dir : Directory ι} {k : ι}
  {file : List Char × Bytes} {folder : List (List Char × Bytes)}

theorem write_other {other : ι} (h : k ≠ other) (content : Bytes) (o : Outcome) :
    write dir other content o k = dir k := by
  cases o with
  | written => exact Function.update_of_ne h _ _
  | failed left => exact Function.update_of_ne h _ _

theorem write_written (dir : Directory ι) (k : ι) (content : Bytes) :
    write dir k content .written k = some (.file content) := Function.update_self _ _ _

/-- Writing what is there already changes nothing. -/
theorem write_same {content : Bytes} (h : dir k = some (.file content)) :
    write dir k content .written = dir := by
  rw [write, ← h]
  exact Function.update_eq_self k dir

/-! The files. -/

theorem writeToFile_other {data : BinaryData} (h : k ≠ place data.path) (o : Outcome) :
    writeToFile tools place dir data o k = dir k := by
  unfold writeToFile
  cases dir (place data.path) with
  | none => exact write_other h _ o
  | some e =>
    dsimp only
    split_ifs
    · rfl
    · exact write_other h _ o

theorem writeToFile_self (hlossless : tools.decompress (tools.compress file.2) = file.2)
    (hfile : Distinguished tools dir (place (text file.1)) file.2) :
    writeToFile tools place dir (binaryData tools file) .written (place (text file.1)) =
      some (.file file.2) := by
  have hwritten : write dir (place (text file.1)) (tools.decompress (tools.compress file.2)) .written
      (place (text file.1)) = some (.file file.2) := by
    rw [hlossless]
    exact write_written dir _ _
  unfold writeToFile binaryData
  dsimp only
  cases hfound : dir (place (text file.1)) with
  | none => exact hwritten
  | some e =>
    dsimp only
    split_ifs with hsame
    · have hmd5 : text (tools.md5 e.read) = text (tools.md5 file.2) :=
        hsame.trans (PeerConfig.fromUtf8Lossy_text _)
      rw [hfound, hfile e hfound (text_injective hmd5)]
    · exact hwritten

/-- A file that is there is skipped. -/
theorem writeToFile_same (h : dir (place (text file.1)) = some (.file file.2)) (o : Outcome) :
    writeToFile tools place dir (binaryData tools file) o = dir := by
  have hsame : text (tools.md5 (Entry.file file.2).read) = fromUtf8Lossy (text (tools.md5 file.2)) :=
    (PeerConfig.fromUtf8Lossy_text _).symm
  unfold writeToFile binaryData
  dsimp only
  rw [h]
  exact if_pos hsame

theorem writeFiles_other (h : ∀ file ∈ folder, k ≠ place (text file.1)) (outcomes : List Outcome)
    (dir : Directory ι) :
    writeFiles tools place (folder.map (binaryData tools)) outcomes dir k = dir k := by
  induction folder generalizing outcomes dir with
  | nil => rfl
  | cons file folder ih =>
    have hfile : k ≠ place (binaryData tools file).path := h file List.mem_cons_self
    rw [List.map_cons, writeFiles, ih fun other hother => h other (List.mem_cons_of_mem _ hother)]
    exact writeToFile_other hfile _

theorem writeFiles_same (h : ∀ file ∈ folder, dir (place (text file.1)) = some (.file file.2))
    (outcomes : List Outcome) :
    writeFiles tools place (folder.map (binaryData tools)) outcomes dir = dir := by
  induction folder generalizing outcomes with
  | nil => rfl
  | cons file folder ih =>
    rw [List.map_cons, writeFiles, writeToFile_same (h file List.mem_cons_self)]
    exact ih (fun other hother => h other (List.mem_cons_of_mem _ hother)) _

/-- The places of the files are different, and not those that `setup` writes itself. -/
structure Placed (place : Bytes → ι) (folder : List (List Char × Bytes)) : Prop where
  nodup : (folder.map fun file => place (text file.1)).Nodup
  not_meta : ∀ file ∈ folder, place (text file.1) ≠ place appMetadataConfig
  not_broker : ∀ file ∈ folder, place (text file.1) ≠ place winTopmostInjectedProcessExe
  apart : place appMetadataConfig ≠ place winTopmostInjectedProcessExe

/-- Every file that can be written or is there has its contents after the loop; no later file has its place. -/
theorem writeFiles_file (hlossless : ∀ content, tools.decompress (tools.compress content) = content)
    (hplaces : (folder.map fun file => place (text file.1)).Nodup) {outcomes : List Outcome}
    (hdir : ∀ file ∈ folder, Distinguished tools dir (place (text file.1)) file.2) {i : Nat}
    (hfile : folder[i]? = some file)
    (hwritten : outcomes.getD i .written = .written ∨ dir (place (text file.1)) = some (.file file.2)) :
    writeFiles tools place (folder.map (binaryData tools)) outcomes dir (place (text file.1)) =
      some (.file file.2) := by
  induction folder generalizing outcomes dir i with
  | nil => cases hfile
  | cons first folder ih =>
    rw [List.map_cons, List.nodup_cons] at hplaces
    obtain ⟨hfirst, hrest⟩ := hplaces
    have hothers : ∀ other ∈ folder, place (text other.1) ≠ place (text first.1) := by
      intro other hother heq
      exact hfirst (heq ▸ List.mem_map_of_mem (f := fun file => place (text file.1)) hother)
    rw [List.map_cons, writeFiles]
    cases i with
    | zero =>
      obtain rfl : first = file := Option.some.inj hfile
      rw [writeFiles_other fun other hother => (hothers other hother).symm]
      rcases hwritten with hwritten | hthere
      · have hhead : outcomes.headD .written = .written := by
          cases outcomes with
          | nil => rfl
          | cons o outcomes => exact hwritten
        rw [hhead]
        exact writeToFile_self (hlossless first.2) (hdir first List.mem_cons_self)
      · rw [writeToFile_same hthere]
        exact hthere
    | succ i =>
      have hplace : place (text file.1) ≠ place (binaryData tools first).path :=
        hothers file (List.mem_of_getElem? hfile)
      have htail : outcomes.tail.getD i .written = .written ∨
          writeToFile tools place dir (binaryData tools first) (outcomes.headD .written)
            (place (text file.1)) = some (.file file.2) := by
        refine hwritten.imp (fun hwritten => ?_) fun hthere => (writeToFile_other hplace _).trans hthere
        cases outcomes with
        | nil => rfl
        | cons o outcomes => exact hwritten
      refine ih hrest (fun other hother e he => ?_) hfile htail
      have hplace : place (text other.1) ≠ place (binaryData tools first).path := hothers other hother
      rw [writeToFile_other hplace] at he
      exact hdir other (List.mem_cons_of_mem _ hother) e he

/-! `meta.toml` -/

theorem writeMeta_other (h : k ≠ place appMetadataConfig) (ts : Nat) (o : Outcome) :
    writeMeta place ts o dir k = dir k := by
  unfold writeMeta
  split_ifs
  · exact write_other h _ o
  · rfl

theorem stamped_writeMeta (place : Bytes → ι) (ts : Nat) (dir : Directory ι) :
    Stamped place ts (writeMeta place ts .written dir) := by
  intro hts
  rw [writeMeta, if_pos hts]
  exact write_written dir _ _

theorem writeMeta_same {ts : Nat} (h : Stamped place ts dir) : writeMeta place ts .written dir = dir := by
  unfold writeMeta
  split_ifs with hts
  · exact write_same (h hts)
  · rfl

/-! The copy of `RuntimeBroker.exe`. -/

theorem copyRuntimeBroker_other (h : k ≠ place winTopmostInjectedProcessExe) (broker : Option Bytes)
    (o : Outcome) : copyRuntimeBroker tools place broker o dir k = dir k := by
  unfold copyRuntimeBroker
  cases broker with
  | none => rfl
  | some src =>
    dsimp only
    cases dir (place winTopmostInjectedProcessExe) with
    | none => exact write_other h _ o
    | some e =>
      cases e with
      | unreadable => exact write_other h _ o
      | file tgt =>
        dsimp only
        split_ifs
        · rfl
        · exact write_other h _ o

theorem copyRuntimeBroker_self {src : Bytes}
    (h : Distinguished tools dir (place winTopmostInjectedProcessExe) src) :
    copyRuntimeBroker tools place (some src) .written dir (place winTopmostInjectedProcessExe) =
      some (.file src) := by
  unfold copyRuntimeBroker
  dsimp only
  cases hfound : dir (place winTopmostInjectedProcessExe) with
  | none => exact write_written dir _ _
  | some e =>
    cases e with
    | unreadable => exact write_written dir _ _
    | file tgt =>
      dsimp only
      split_ifs with hsame
      · rw [hfound, h _ hfound hsame.symm]
      · exact write_written dir _ _

theorem copyRuntimeBroker_same {broker : Option Bytes}
    (h : ∀ src ∈ broker, dir (place winTopmostInjectedProcessExe) = some (.file src)) (o : Outcome) :
    copyRuntimeBroker tools place broker o dir = dir := by
  unfold copyRuntimeBroker
  cases broker with
  | none => rfl
  | some src =>
    dsimp only
    rw [h src rfl]
    exact if_pos rfl

end

/-! ### A start of the executable -/

/-- What a start leaves behind. -/
structure Unpacked {ι : Type} [DecidableEq ι] (tools : Tools) (place : Bytes → ι)
    (folder : List (List Char × Bytes)) (appMetadata : Bytes) (s : Start ι) (dir after : Directory ι) : Prop where
  files : ∀ i file, folder[i]? = some file →
    s.outcomes.getD i .written = .written ∨
      cleared place appMetadata s dir (place (text file.1)) = some (.file file.2) →
    after (place (text file.1)) = some (.file file.2)
  stamped : s.clear = false → s.metaOutcome = .written → Stamped place (timestamp appMetadata) after
  broker : ∀ src, s.broker = some src → s.copyOutcome = .written →
    after (place winTopmostInjectedProcessExe) = some (.file src)
  others : ∀ k, (∀ file ∈ folder, k ≠ place (text file.1)) → k ≠ place appMetadataConfig →
    k ≠ place winTopmostInjectedProcessExe → after k = cleared place appMetadata s dir k

section

variable {ι : Type} [DecidableEq ι] {tools : Tools} {place : Bytes → ι} {dir : Directory ι}
  {folder : List (List Char × Bytes)}

theorem unpacked_setup (hlossless : ∀ content, tools.decompress (tools.compress content) = content)
    (hplaced : Placed place folder) (exe appMetadata : Bytes) {s : Start ι}
    (hfiles : ∀ file ∈ folder, Distinguished tools dir (place (text file.1)) file.2)
    (hbroker : ∀ src ∈ s.broker, Distinguished tools dir (place winTopmostInjectedProcessExe) src) :
    Unpacked tools place folder appMetadata s dir
      (setup tools place (folder.map (binaryData tools)) exe appMetadata s dir).1 := by
  unfold setup
  dsimp only
  constructor
  · intro i file hfile hwritten
    have hmem : file ∈ folder := List.mem_of_getElem? hfile
    rw [copyRuntimeBroker_other (hplaced.not_broker file hmem), writeMeta_other (hplaced.not_meta file hmem)]
    exact writeFiles_file hlossless hplaced.nodup (fun file hfile => distinguished_cleared (hfiles file hfile))
      hfile hwritten
  · intro hclear hwritten
    rw [hclear, hwritten]
    simp only [Bool.false_eq_true, if_false, isTimestampMatches_snd]
    intro hts
    rw [copyRuntimeBroker_other hplaced.apart]
    exact stamped_writeMeta place _ _ hts
  · intro src hsrc hwritten
    rw [hsrc, hwritten]
    refine copyRuntimeBroker_self fun e he => ?_
    -- neither the files nor the timestamp are at this place
    rw [writeMeta_other hplaced.apart.symm,
      writeFiles_other fun file hfile => (hplaced.not_broker file hfile).symm] at he
    exact distinguished_cleared (hbroker src hsrc) e he
  · intro k hk hmeta hbroker
    rw [copyRuntimeBroker_other hbroker, writeMeta_other hmeta, writeFiles_other hk]

/-- Where all is in place, a start changes nothing. -/
theorem setup_again {appMetadata : Bytes} {s : Start ι} (hclear : s.clear = false)
    (hmeta : s.metaOutcome = .written) (exe : Bytes)
    (hfiles : ∀ file ∈ folder, dir (place (text file.1)) = some (.file file.2))
    (hstamped : Stamped place (timestamp appMetadata) dir)
    (hbroker : ∀ src ∈ s.broker, dir (place winTopmostInjectedProcessExe) = some (.file src)) :
    setup tools place (folder.map (binaryData tools)) exe appMetadata s dir = (dir, place exe) := by
  have hkept : cleared place appMetadata s dir = dir := by
    unfold cleared Clears
    rw [hclear, isTimestampMatches_stamped hstamped]
    rfl
  unfold setup
  dsimp only
  rw [hkept, writeFiles_same hfiles, hclear, hmeta]
  simp only [Bool.false_eq_true, if_false, isTimestampMatches_snd]
  rw [writeMeta_same hstamped, copyRuntimeBroker_same hbroker]

end

/-- Tools that store a file as it is, and tell an empty one from others. -/
def stored : Tools where
  compress := id
  decompress := id
  md5 content := List.replicate 32 (if content = [] then '0' else '1')

def twoFiles : List (List Char × Bytes) := [(['x'], [1, 2]), (['y', '/', 'z'], [])]

/-- The first file is there already, and so is one that is not in the package. -/
def unpackedBefore : Directory Bytes := fun path =>
  if path = [120] then some (.file [1, 2]) else if path = [121] then some (.file [3]) else none

theorem packable_twoFiles : Packable stored twoFiles where
  path := by decide
  md5 := by decide

theorem placed_twoFiles : Placed id twoFiles where
  nodup := by decide
  not_meta := by decide
  not_broker := by decide
  apart := by decide

end RustDesk.PortablePackage
