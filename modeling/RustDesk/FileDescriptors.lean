import RustDesk.ClipboardFiles

/-!
# The list of clipboard files

The files on a clipboard are announced in one message: their number and then, for each, a
record of 592 bytes with its flags, attributes, mode, times, size and name. The name is
UTF-16 in a block of 520 bytes, padded with zeros, with the separators of Windows.
-/

namespace RustDesk.Clipboard

inductive FileType
  | file
  | directory
  | symlink
  deriving DecidableEq, Repr

/-- The four times of the source are one; it is in nanoseconds since 1970. -/
structure FileDescription where
  connId : BitVec 32
  name : String
  kind : FileType
  lastModified : Nat
  size : Nat
  perm : Nat
  deriving DecidableEq, Repr

/-- The flags that have meaning here, and the zero of the times. -/
def flagsFdAttributes : Nat := 0x04
def flagsFdUnixMode : Nat := 0x08
def flagsFdLastWrite : Nat := 0x20
def ldapEpochDelta : Nat := 116444772610000000

def permRead : Nat := 0o444
def permRw : Nat := 0o644
def permSelfRo : Nat := 0o400
def permRwx : Nat := 0o755

/-- The 16-bit units of a block. -/
def utf16Units : Bytes → List Nat
  | a :: b :: rest => (a.toNat + 256 * b.toNat) :: utf16Units rest
  | _ => []

/-- The characters of UTF-16, if every surrogate has its partner. -/
def decodeUtf16 : List Nat → Option (List Char)
  | [] => some []
  | u :: us =>
    if u < 0xD800 ∨ 0xE000 ≤ u then (decodeUtf16 us).map (Char.ofNat u :: ·)
    else if 0xDC00 ≤ u then none
    else
      match us with
      | [] => none
      | v :: vs =>
        if 0xDC00 ≤ v ∧ v < 0xE000 then
          (decodeUtf16 vs).map (Char.ofNat (0x10000 + (u - 0xD800) * 0x400 + (v - 0xDC00)) :: ·)
        else none

/-- `replace('\\', "/")` and then `trim_end_matches('\0')`. -/
def unixName (cs : List Char) : String :=
  String.ofList (((cs.map fun c => if c = '\\' then '/' else c).reverse.dropWhile (· = '\x00')).reverse)

/-- The number that `n` bytes at a place of a record stand for. -/
def field (record : Bytes) (start n : Nat) : Nat := ofLeBytes ((record.drop start).take n)

theorem field_lt (record : Bytes) (start n : Nat) : field record start n < 256 ^ n := by
  refine (ofLeBytes_lt _).trans_le (Nat.pow_le_pow_right (by omega) ?_)
  rw [List.length_take]
  exact min_le_left _ _

def hasFlag (flags flag : Nat) : Bool := flags &&& flag ≠ 0

/-- The mode of a file that does not bring its own. -/
def permOf (attributes : Nat) : Nat :=
  if attributes = 0x80 then permRwx
  else if hasFlag attributes 0x01 then permRead
  else if hasFlag attributes 0x02 then permSelfRo
  else if hasFlag attributes 0x10 then permRwx
  else permRw

/-- `parse_file_descriptor`, on the bytes of one record. -/
def parseFileDescriptor (connId : BitVec 32) (record : Bytes) : Except CliprdrError FileDescription :=
  let flags := field record 0 4
  let attributes := field record 36 4
  let mode := field record 52 4 % 2 ^ 16
  let lastWriteTime := field record 56 8
  let sizeHigh := field record 64 4
  let sizeLow := field record 68 4
  match decodeUtf16 (utf16Units ((record.drop 72).take 520)) with
  | none => .error .conversionFailure
  | some cs =>
    if !hasFlag flags flagsFdAttributes then
      .error (.invalidRequest "file description must have valid attributes")
    else
      .ok
        { connId
          name := unixName cs
          kind := if hasFlag attributes 0x10 then .directory else .file
          lastModified :=
            if hasFlag flags flagsFdLastWrite ∧ ldapEpochDelta ≤ lastWriteTime then
              (lastWriteTime - ldapEpochDelta) * 100 % 2 ^ 64
            else 0
          size := sizeHigh * 2 ^ 32 + sizeLow
          perm := if hasFlag flags flagsFdUnixMode then mode else permOf attributes }

/-- What a record must have been for it to be read, and what is read of its time and its size. -/
structure ReadOf (record : Bytes) (desc : FileDescription) : Prop where
  name : (decodeUtf16 (utf16Units ((record.drop 72).take 520))).isSome
  attributes : hasFlag (field record 0 4) flagsFdAttributes = true
  lastModified : desc.lastModified =
    if hasFlag (field record 0 4) flagsFdLastWrite ∧ ldapEpochDelta ≤ field record 56 8 then
      (field record 56 8 - ldapEpochDelta) * 100 % 2 ^ 64
    else 0
  size : desc.size = field record 64 4 * 2 ^ 32 + field record 68 4

theorem parseFileDescriptor_ok {connId : BitVec 32} {record : Bytes} {desc : FileDescription}
    (h : parseFileDescriptor connId record = .ok desc) : ReadOf record desc := by
  unfold parseFileDescriptor at h
  dsimp only at h
  cases hname : decodeUtf16 (utf16Units ((record.drop 72).take 520)) with
  | none =>
    rw [hname] at h
    cases h
  | some cs =>
    rw [hname] at h
    dsimp only at h
    cases hflag : hasFlag (field record 0 4) flagsFdAttributes with
    | false =>
      rw [hflag] at h
      cases h
    | true =>
      rw [hflag] at h
      obtain rfl := Except.ok.inj h
      exact ⟨by rw [hname]; rfl, hflag, rfl, rfl⟩

/-- The loop over the records. -/
def parseRecords (connId : BitVec 32) : Nat → Bytes → Except CliprdrError (List FileDescription)
  | 0, _ => .ok []
  | n + 1, data =>
    match parseFileDescriptor connId (data.take 592) with
    | .error e => .error e
    | .ok desc =>
      match parseRecords connId n (data.drop 592) with
      | .error e => .error e
      | .ok descs => .ok (desc :: descs)

def parseFileDescriptors (pdu : Bytes) (connId : BitVec 32) :
    Except CliprdrError (List FileDescription) :=
  if pdu.length < 4 then
    .error (.invalidRequest "file descriptor request with infficient length")
  else
    let count := field pdu 0 4
    let data := pdu.drop 4
    if data.length = 0 ∧ count = 0 then .ok []
    else if data.length ≠ 592 * count then
      .error (.invalidRequest "file descriptor request with invalid length")
    else parseRecords connId count data

end RustDesk.Clipboard
