import RustDesk.Base64
import RustDesk.ConnectionLogin
import RustDesk.FramedStream

/-!
# The permanent password as it is stored

The permanent password is kept as a salted hash, `h1`. The hash is written as `00` and its
base64, and this text is encrypted for the machine and written as `01` and the base64 of the
cipher text. Older versions stored `00` and the base64 of an encrypted password, or the
password itself. `validate_password` classifies the stored text by its prefix, by whether it
is base64 and by whether it can be decrypted, and takes what is left for a plain password.

The key of a machine is its uuid, cut or filled up to the length of a key. Decryption also
tries the public key of the machine, with which older versions encrypted when there was no
uuid. A text is the bytes of its UTF-8 encoding.
-/

namespace RustDesk.PermanentPassword

/-- `"00"` -/
def passwordEncVersion : Bytes := [48, 48]

/-- `"01"` -/
def permanentPasswordEncVersion : Bytes := [48, 49]

/-- `"00"` -/
def permanentPasswordHashPrefix : Bytes := [48, 48]

/-- `"00"` -/
def hbbsPresetPasswordHashPrefix : Bytes := [48, 48]

def permanentPasswordH1Len : Nat := 32

def encryptMaxLen : Nat := 128

def versionLen : Nat := 2

def formatV1 : UInt8 := 1

def keyBytes : Nat := 32

def nonceBytes : Nat := 24

def macBytes : Nat := 16

/-! ### Text -/

def isContinuation (c : UInt8) : Bool := 0x80 ≤ c && c ≤ 0xBF

/-- `str::chars().count()` -/
def charCount (text : Bytes) : Nat := text.countP fun c => !isContinuation c

/-- Whether the byte may come second after the first byte of a longer character. -/
def isSecond (a b : UInt8) : Bool :=
  if a = 0xE0 then 0xA0 ≤ b && b ≤ 0xBF
  else if a = 0xED then 0x80 ≤ b && b ≤ 0x9F
  else if a = 0xF0 then 0x90 ≤ b && b ≤ 0xBF
  else if a = 0xF4 then 0x80 ≤ b && b ≤ 0x8F
  else isContinuation b

/-- The character or the invalid sequence that starts with `a`, by the number of its
further bytes. -/
def utf8Chunk (a : UInt8) (rest : Bytes) : Bool × Nat :=
  let second := rest[0]?.any (isSecond a)
  let third := rest[1]?.any isContinuation
  let fourth := rest[2]?.any isContinuation
  if a < 0x80 then (true, 0)
  else if 0xC2 ≤ a ∧ a ≤ 0xDF then (if second then (true, 1) else (false, 0))
  else if 0xE0 ≤ a ∧ a ≤ 0xEF then
    if !second then (false, 0) else if third then (true, 2) else (false, 1)
  else if 0xF0 ≤ a ∧ a ≤ 0xF4 then
    if !second then (false, 0) else if !third then (false, 1)
    else if fourth then (true, 3) else (false, 2)
  else (false, 0)

/-- The rest of a chunk is copied or skipped. -/
def utf8Chunks (copy : Bool) : Nat → Bytes → Bytes
  | _, [] => []
  | k + 1, a :: rest => if copy then a :: utf8Chunks copy k rest else utf8Chunks copy k rest
  | 0, a :: rest =>
    match utf8Chunk a rest with
    | (true, n) => a :: utf8Chunks true n rest
    | (false, n) => 0xEF :: 0xBF :: 0xBD :: utf8Chunks false n rest

def fromUtf8Lossy (bytes : Bytes) : Bytes := utf8Chunks true 0 bytes

/-- `Vec::resize` with zeros -/
def resize (n : Nat) (bytes : Bytes) : Bytes := (bytes ++ List.replicate n 0).take n

/-! ### Encryption -/

/-- What `symmetric_crypt` reads: the uuid and the public key of an existing key pair. -/
structure Machine where
  uuid : Bytes
  pk : Option Bytes := none
  mobile : Bool := false
  deriving DecidableEq, Repr

variable {B : SecretBox} (key : Bytes → B.Key)

def openSecretboxPayload (data : Bytes) (k : B.Key) : Option Bytes :=
  let current :=
    if data.head? = some formatV1 ∧ 1 + nonceBytes + macBytes ≤ data.length then
      B.openBox (data.drop (1 + nonceBytes)) ((data.drop 1).take nonceBytes) k
    else none
  match current with
  | some decrypted => some decrypted
  | none => B.openBox data (List.replicate nonceBytes 0) k

namespace Machine

def uuidKey (m : Machine) : B.Key := key (resize keyBytes m.uuid)

/-- `symmetric_crypt(data, true)` with the nonce it generates -/
def symmetricEncrypt (m : Machine) (nonce data : Bytes) : Bytes :=
  formatV1 :: nonce ++ B.sealBox data nonce (m.uuidKey key)

/-- `symmetric_crypt(data, false)` -/
def symmetricDecrypt (m : Machine) (data : Bytes) : Option Bytes :=
  match openSecretboxPayload data (m.uuidKey key) with
  | some decrypted => some decrypted
  | none =>
    if m.mobile then none
    else match m.pk with
      | some pk =>
        if pk ≠ m.uuid then openSecretboxPayload data (key (resize keyBytes pk)) else none
      | none => none

/-- The keys that decryption tries. -/
def keys (m : Machine) : List B.Key :=
  m.uuidKey key :: if m.mobile then [] else match m.pk with
    | some pk => if pk ≠ m.uuid then [key (resize keyBytes pk)] else []
    | none => []

end Machine

/-! ### Storage -/

def encodePermanentPasswordStorageFromH1 (h1 : Bytes) : Bytes :=
  permanentPasswordHashPrefix ++ Base64.encode h1

def decodePasswordH1AfterPrefix (storage pre : Bytes) : Option Bytes :=
  if pre.isPrefixOf storage then
    match Base64.decode (storage.drop pre.length) with
    | some v => if v.length = permanentPasswordH1Len then some v else none
    | none => none
  else none

def decodePermanentPasswordH1FromHashedStorage (storage : Bytes) : Option Bytes :=
  decodePasswordH1AfterPrefix storage permanentPasswordHashPrefix

def decodePresetPasswordH1FromStorage (storage : Bytes) : Option Bytes :=
  decodePasswordH1AfterPrefix storage hbbsPresetPasswordHashPrefix

def presetPermanentPasswordStorageIsUsableForAuth (storage : Bytes) (salt : String) : Bool :=
  if storage.isEmpty then false
  else if salt.isEmpty then true
  else (decodePresetPasswordH1FromStorage storage).isSome

def isEncrypted (v : Bytes) : Bool :=
  if v.length ≤ versionLen || !passwordEncVersion.isPrefixOf v then false
  else match Base64.decode (v.drop versionLen) with
    | some decoded => macBytes ≤ decoded.length
    | none => false

namespace Machine

def encryptPermanentPasswordStorage (m : Machine) (nonce storage : Bytes) : Option Bytes :=
  if encryptMaxLen < charCount storage then none
  else some (permanentPasswordEncVersion ++ Base64.encode (m.symmetricEncrypt key nonce storage))

def encodePermanentPasswordEncryptedStorageFromH1 (m : Machine) (nonce h1 : Bytes) :
    Option Bytes :=
  m.encryptPermanentPasswordStorage key nonce (encodePermanentPasswordStorageFromH1 h1)

def decrypt (m : Machine) (v : Bytes) : Option Bytes :=
  if v.isEmpty then none else (Base64.decode v).bind (m.symmetricDecrypt key)

def decryptStrOrOriginal (m : Machine) (s currentVersion : Bytes) : Bytes × Bool × Bool :=
  let original := (s, false, !s.isEmpty && !isEncrypted s)
  if versionLen < s.length && passwordEncVersion.isPrefixOf s then
    match m.decrypt key (s.drop versionLen) with
    | some v => (fromUtf8Lossy v, true, passwordEncVersion != currentVersion)
    | none => original
  else original

def decryptPermanentPasswordStrOrOriginal (m : Machine) (storage : Bytes) : Bytes × Bool × Bool :=
  let original := (storage, false, !storage.isEmpty)
  if versionLen < storage.length && permanentPasswordEncVersion.isPrefixOf storage then
    match (Base64.decode (storage.drop versionLen)).bind (m.symmetricDecrypt key) with
    | some v => (fromUtf8Lossy v, true, false)
    | none => original
  else original

def decodePermanentPasswordH1FromStorage (m : Machine) (storage : Bytes) : Option Bytes :=
  if permanentPasswordEncVersion.isPrefixOf storage then
    let (hashedStorage, decrypted, _) := m.decryptPermanentPasswordStrOrOriginal key storage
    if decrypted then decodePermanentPasswordH1FromHashedStorage hashedStorage else none
  else none

def localPermanentPasswordStorageIsUsableForAuth (m : Machine) (storage : Bytes) (salt : String) :
    Bool :=
  if storage.isEmpty then false
  else if (m.decodePermanentPasswordH1FromStorage key storage).isSome then !salt.isEmpty
  else if permanentPasswordEncVersion.isPrefixOf storage
      && (m.decryptPermanentPasswordStrOrOriginal key storage).2.1 then false
  else
    let (_, decrypted, looksLikePlaintext) := m.decryptStrOrOriginal key storage passwordEncVersion
    !(passwordEncVersion.isPrefixOf storage && !decrypted && !looksLikePlaintext)

/-- What a connection on the machine reads. -/
def env (m : Machine) (e : Env) : Env :=
  { e with
    localStorageUsable := fun storage salt =>
      m.localPermanentPasswordStorageIsUsableForAuth key (strBytes storage) salt
    presetStorageUsable := fun storage salt =>
      presetPermanentPasswordStorageIsUsableForAuth (strBytes storage) salt
    decodePermanentPasswordH1 := fun storage =>
      m.decodePermanentPasswordH1FromStorage key (strBytes storage)
    decodePresetPasswordH1 := fun storage => decodePresetPasswordH1FromStorage (strBytes storage) }

end Machine

/-! ### Reading a storage back -/

theorem utf8Chunks_ascii {bytes : Bytes} (h : ∀ c ∈ bytes, c < 128) :
    utf8Chunks true 0 bytes = bytes := by
  induction bytes with
  | nil => rfl
  | cons a rest ih =>
    have ha : utf8Chunk a rest = (true, 0) := by
      unfold utf8Chunk
      exact if_pos (h a List.mem_cons_self)
    simp only [utf8Chunks, ha]
    rw [ih fun c hc => h c (List.mem_cons_of_mem a hc)]

theorem ascii_encodePermanentPasswordStorageFromH1 (h1 : Bytes) :
    ∀ c ∈ encodePermanentPasswordStorageFromH1 h1, c < 128 := by
  intro c hc
  have htwo : ∀ c ∈ permanentPasswordHashPrefix, c < 128 := by decide +kernel
  rcases List.mem_append.mp hc with hc | hc
  · exact htwo c hc
  · exact Base64.lt_of_mem_encode hc

theorem decode_encodePermanentPasswordStorageFromH1 {h1 : Bytes}
    (h : h1.length = permanentPasswordH1Len) :
    decodePermanentPasswordH1FromHashedStorage
      (fromUtf8Lossy (encodePermanentPasswordStorageFromH1 h1)) = some h1 := by
  unfold fromUtf8Lossy
  rw [utf8Chunks_ascii (ascii_encodePermanentPasswordStorageFromH1 h1)]
  unfold decodePermanentPasswordH1FromHashedStorage decodePasswordH1AfterPrefix
    encodePermanentPasswordStorageFromH1
  rw [if_pos (by simp), List.drop_left, Base64.decode_encode]
  exact if_pos h

section Sealed

variable {key} {m : Machine}

theorem drop_headed {nonce : Bytes} (hn : nonce.length = nonceBytes) (box : Bytes) :
    (formatV1 :: nonce ++ box).drop (1 + nonceBytes) = box := by
  rw [← hn, Nat.add_comm, List.cons_append, List.drop_succ_cons, List.drop_left]

theorem take_headed {nonce : Bytes} (hn : nonce.length = nonceBytes) (box : Bytes) :
    ((formatV1 :: nonce ++ box).drop 1).take nonceBytes = nonce := by
  rw [← hn, List.cons_append, List.drop_succ_cons, List.drop_zero, List.take_left]

theorem openSecretboxPayload_seal {nonce : Bytes} (hn : nonce.length = nonceBytes) (data : Bytes)
    (k : B.Key) :
    openSecretboxPayload (formatV1 :: nonce ++ B.sealBox data nonce k) k = some data := by
  have hlen : 1 + nonceBytes + macBytes ≤ (formatV1 :: nonce ++ B.sealBox data nonce k).length := by
    rw [List.length_append, List.length_cons, B.length_sealBox, hn]
    unfold macBytes
    omega
  unfold openSecretboxPayload
  rw [if_pos ⟨rfl, hlen⟩, drop_headed hn, take_headed hn, B.openBox_sealBox]

/-- What the box of one key does under the keys of a machine: it opens under no other key,
and not as a payload without a header. -/
structure OpensOnlyUnder (ks : List B.Key) (k : B.Key) (nonce data : Bytes) : Prop where
  other : ∀ k' ∈ ks, k' ≠ k → B.openBox (B.sealBox data nonce k) nonce k' = none
  headed : ∀ k' ∈ ks, k' ≠ k →
    B.openBox (formatV1 :: nonce ++ B.sealBox data nonce k) (List.replicate nonceBytes 0) k' = none

theorem openSecretboxPayload_other {ks : List B.Key} {k k' : B.Key} {nonce data : Bytes}
    (h : OpensOnlyUnder ks k nonce data) (hn : nonce.length = nonceBytes) (hk' : k' ∈ ks)
    (hne : k' ≠ k) :
    openSecretboxPayload (formatV1 :: nonce ++ B.sealBox data nonce k) k' = none := by
  unfold openSecretboxPayload
  rw [drop_headed hn, take_headed hn, h.other k' hk' hne, h.headed k' hk' hne]
  split <;> rfl

theorem openSecretboxPayload_eq {ks : List B.Key} {k k' : B.Key} {nonce data : Bytes}
    (h : OpensOnlyUnder ks k nonce data) (hn : nonce.length = nonceBytes) (hk' : k' ∈ ks) :
    k' = k ∧ openSecretboxPayload (formatV1 :: nonce ++ B.sealBox data nonce k) k' = some data ∨
      k' ≠ k ∧ openSecretboxPayload (formatV1 :: nonce ++ B.sealBox data nonce k) k' = none := by
  by_cases hk : k' = k
  · subst hk
    exact .inl ⟨rfl, openSecretboxPayload_seal hn data k'⟩
  · exact .inr ⟨hk, openSecretboxPayload_other h hn hk' hk⟩

theorem symmetricDecrypt_eq_findSome (data : Bytes) :
    m.symmetricDecrypt key data = (m.keys key).findSome? (openSecretboxPayload data) := by
  unfold Machine.symmetricDecrypt Machine.keys
  rw [List.findSome?_cons]
  split
  · rename_i decrypted hsome
    rw [hsome]
  · rename_i hnone
    rw [hnone]
    split
    · rfl
    · cases m.pk with
      | none => rfl
      | some pk =>
        dsimp only
        split
        · rw [List.findSome?_cons]
          cases openSecretboxPayload data (key (resize keyBytes pk)) <;> rfl
        · rfl

theorem findSome_keys {ks : List B.Key} {k : B.Key} {payload data : Bytes}
    (h : ∀ k' ∈ ks, k' = k ∧ openSecretboxPayload payload k' = some data ∨
      k' ≠ k ∧ openSecretboxPayload payload k' = none) :
    k ∈ ks ∧ ks.findSome? (openSecretboxPayload payload) = some data ∨
      k ∉ ks ∧ ks.findSome? (openSecretboxPayload payload) = none := by
  induction ks with
  | nil => exact .inr ⟨List.not_mem_nil, rfl⟩
  | cons k' ks ih =>
    rw [List.findSome?_cons]
    rcases h k' List.mem_cons_self with ⟨rfl, hsome⟩ | ⟨hne, hnone⟩
    · rw [hsome]
      exact .inl ⟨List.mem_cons_self, rfl⟩
    · rw [hnone]
      rcases ih fun x hx => h x (List.mem_cons_of_mem k' hx) with ⟨hk, hfind⟩ | ⟨hk, hfind⟩
      · exact .inl ⟨List.mem_cons_of_mem k' hk, hfind⟩
      · refine .inr ⟨fun hmem => ?_, hfind⟩
        rcases List.mem_cons.mp hmem with rfl | hmem
        · exact hne rfl
        · exact hk hmem

/-- A machine decrypts what was encrypted under one of the keys it tries, and nothing else. -/
theorem symmetricDecrypt_eq {k : B.Key} {nonce data : Bytes}
    (h : OpensOnlyUnder (m.keys key) k nonce data) (hn : nonce.length = nonceBytes) :
    k ∈ m.keys key ∧
        m.symmetricDecrypt key (formatV1 :: nonce ++ B.sealBox data nonce k) = some data ∨
      k ∉ m.keys key ∧
        m.symmetricDecrypt key (formatV1 :: nonce ++ B.sealBox data nonce k) = none := by
  rw [symmetricDecrypt_eq_findSome]
  exact findSome_keys fun k' hk' => openSecretboxPayload_eq h hn hk'

/-! ### The storage of a machine on a machine -/

variable {writer : Machine} {nonce h1 storage : Bytes}

theorem encodeEncryptedStorage_eq (hh1 : h1.length = permanentPasswordH1Len)
    (h : writer.encodePermanentPasswordEncryptedStorageFromH1 key nonce h1 = some storage) :
    storage = permanentPasswordEncVersion ++ Base64.encode
      (writer.symmetricEncrypt key nonce (encodePermanentPasswordStorageFromH1 h1)) := by
  have hcount : ¬ encryptMaxLen < charCount (encodePermanentPasswordStorageFromH1 h1) := by
    have hle : charCount (encodePermanentPasswordStorageFromH1 h1) ≤
        (encodePermanentPasswordStorageFromH1 h1).length := List.countP_le_length
    unfold encodePermanentPasswordStorageFromH1 at hle
    rw [List.length_append, Base64.length_encode, hh1] at hle
    exact Nat.not_lt.mpr (Nat.le_trans hle (by decide))
  unfold Machine.encodePermanentPasswordEncryptedStorageFromH1
    Machine.encryptPermanentPasswordStorage at h
  rw [if_neg hcount] at h
  exact (Option.some.inj h).symm

theorem decryptPermanent_storage {data : Bytes} (hstorage : storage =
      permanentPasswordEncVersion ++ Base64.encode (writer.symmetricEncrypt key nonce data)) :
    m.decryptPermanentPasswordStrOrOriginal key storage =
      match m.symmetricDecrypt key (writer.symmetricEncrypt key nonce data) with
      | some v => (fromUtf8Lossy v, true, false)
      | none => (storage, false, true) := by
  have hlen : versionLen < storage.length := by
    rw [hstorage, List.length_append, Base64.length_encode]
    unfold Machine.symmetricEncrypt permanentPasswordEncVersion versionLen
    simp only [List.length_cons, List.length_append, List.length_nil]
    omega
  have hpre : permanentPasswordEncVersion.isPrefixOf storage = true := by
    rw [hstorage]
    simp
  have hdrop : storage.drop versionLen = Base64.encode (writer.symmetricEncrypt key nonce data) := by
    rw [hstorage]
    rfl
  have hne : storage.isEmpty = false := by
    rw [hstorage]
    rfl
  unfold Machine.decryptPermanentPasswordStrOrOriginal
  rw [hpre, hdrop, Base64.decode_encode, decide_eq_true hlen, hne]
  rfl

/-- A storage that was written under a key that is tried is a hash. -/
theorem decodeH1_of_mem (hh1 : h1.length = permanentPasswordH1Len) (hn : nonce.length = nonceBytes)
    (hstorage : writer.encodePermanentPasswordEncryptedStorageFromH1 key nonce h1 = some storage)
    (honly : OpensOnlyUnder (m.keys key) (writer.uuidKey key) nonce
      (encodePermanentPasswordStorageFromH1 h1))
    (hmem : writer.uuidKey key ∈ m.keys key) :
    m.decodePermanentPasswordH1FromStorage key storage = some h1 := by
  have heq := encodeEncryptedStorage_eq hh1 hstorage
  have hpre : permanentPasswordEncVersion.isPrefixOf storage = true := by
    rw [heq]
    simp
  have hdec : m.symmetricDecrypt key (writer.symmetricEncrypt key nonce
      (encodePermanentPasswordStorageFromH1 h1)) =
        some (encodePermanentPasswordStorageFromH1 h1) := by
    rcases symmetricDecrypt_eq honly hn with ⟨-, hsome⟩ | ⟨hno, -⟩
    · exact hsome
    · exact absurd hmem hno
  unfold Machine.decodePermanentPasswordH1FromStorage
  rw [if_pos hpre, decryptPermanent_storage heq, hdec]
  exact decode_encodePermanentPasswordStorageFromH1 hh1

/-- A storage that was written under another key is no hash and is not decrypted, and the
test for a usable storage lets it pass. -/
theorem usable_of_notMem (hh1 : h1.length = permanentPasswordH1Len)
    (hn : nonce.length = nonceBytes)
    (hstorage : writer.encodePermanentPasswordEncryptedStorageFromH1 key nonce h1 = some storage)
    (honly : OpensOnlyUnder (m.keys key) (writer.uuidKey key) nonce
      (encodePermanentPasswordStorageFromH1 h1))
    (hmem : writer.uuidKey key ∉ m.keys key) (salt : String) :
    m.decodePermanentPasswordH1FromStorage key storage = none ∧
      m.localPermanentPasswordStorageIsUsableForAuth key storage salt = true := by
  have heq := encodeEncryptedStorage_eq hh1 hstorage
  have hpre : permanentPasswordEncVersion.isPrefixOf storage = true := by
    rw [heq]
    simp
  have hdec : m.symmetricDecrypt key (writer.symmetricEncrypt key nonce
      (encodePermanentPasswordStorageFromH1 h1)) = none := by
    rcases symmetricDecrypt_eq honly hn with ⟨hyes, -⟩ | ⟨-, hnone⟩
    · exact absurd hyes hmem
    · exact hnone
  have hdecrypt := decryptPermanent_storage (m := m) heq
  rw [hdec] at hdecrypt
  have hh1none : m.decodePermanentPasswordH1FromStorage key storage = none := by
    unfold Machine.decodePermanentPasswordH1FromStorage
    rw [if_pos hpre, hdecrypt]
    rfl
  have hne : storage.isEmpty = false := by
    rw [heq]
    rfl
  have hold : passwordEncVersion.isPrefixOf storage = false := by
    rw [heq]
    rfl
  refine ⟨hh1none, ?_⟩
  unfold Machine.localPermanentPasswordStorageIsUsableForAuth
  rw [hne, hh1none, hpre, hdecrypt, hold]
  rfl

end Sealed

/-! ### The storage as a password -/

/-- `validate_password` accepted the request by the permanent password. -/
def AcceptedAsPermanent (r : Connection × Bool) : Prop :=
  r.2 = true ∧ r.1.connAuditPrimaryAuth = .permanentPassword

theorem acceptedAsPermanent_iff {env : Env} {allow : Bool} {s : Connection} :
    AcceptedAsPermanent (s.validatePassword env allow) ↔
      (env.temporaryEnabled && s.validatePasswordPlain env env.temporaryPassword) = false ∧
        (env.permanentEnabled || allow) = true ∧ s.validatePermanentPassword env = true := by
  unfold AcceptedAsPermanent Connection.validatePassword
  by_cases ht : (env.temporaryEnabled && s.validatePasswordPlain env env.temporaryPassword) = true
  · simp [ht, Connection.emit, Connection.updateOrInsertSession]
  · rw [Bool.not_eq_true] at ht
    by_cases hp : ((env.permanentEnabled || allow) && s.validatePermanentPassword env) = true
    · have hp' := Bool.and_eq_true_iff.mp hp
      simp [ht, hp', Connection.emit]
    · simp only [ht, hp, Bool.false_eq_true, if_false, false_and, true_and, false_iff]
      exact fun h => hp (Bool.and_eq_true_iff.mpr h)

theorem isEmpty_of_strBytes {text : String} (h : strBytes text ≠ []) : text.isEmpty = false := by
  by_contra hne
  rw [Bool.not_eq_false, String.isEmpty_iff] at hne
  subst hne
  exact h rfl

section Proof

variable {key} {m writer : Machine} {nonce h1 : Bytes} {e : Env} {s : Connection}

/-- The login proof that uses the storage itself as the password passes the
permanent-password path exactly when the storage was written under a key that is not tried,
or when its hash is the hash of the storage. -/
theorem validatePermanentPassword_iff (hh1 : h1.length = permanentPasswordH1Len)
    (hn : nonce.length = nonceBytes)
    (hstorage : writer.encodePermanentPasswordEncryptedStorageFromH1 key nonce h1 =
      some (strBytes e.localStorage))
    (honly : OpensOnlyUnder (m.keys key) (writer.uuidKey key) nonce
      (encodePermanentPasswordStorageFromH1 h1))
    (hsalt : e.localSalt.isEmpty = false) (hhash : s.hash.salt = e.localSalt)
    (hproof : s.lr.password =
      e.sha256 (e.sha256 (strBytes e.localStorage ++ strBytes e.localSalt) ++
        strBytes s.hash.challenge))
    (hsha : e.sha256 (h1 ++ strBytes s.hash.challenge) = s.lr.password →
      h1 = e.sha256 (strBytes e.localStorage ++ strBytes e.localSalt)) :
    s.validatePermanentPassword (m.env key e) = true ↔
      writer.uuidKey key ∉ m.keys key ∨
        h1 = e.sha256 (strBytes e.localStorage ++ strBytes e.localSalt) := by
  have hne : e.localStorage.isEmpty = false := by
    refine isEmpty_of_strBytes ?_
    rw [encodeEncryptedStorage_eq hh1 hstorage]
    exact List.cons_ne_nil _ _
  have hpath : s.validatePermanentPassword (m.env key e) =
      (m.localPermanentPasswordStorageIsUsableForAuth key (strBytes e.localStorage) e.localSalt &&
        match m.decodePermanentPasswordH1FromStorage key (strBytes e.localStorage) with
        | some h1 => s.verifyH1 (m.env key e) h1
        | none => s.validatePasswordPlain (m.env key e) e.localStorage) := by
    have hyes : (!(m.env key e).localStorage.isEmpty) = true := by
      change (!e.localStorage.isEmpty) = true
      rw [hne]
      rfl
    have hno : ¬ (m.env key e).localStorage.isEmpty = true := by
      change ¬ e.localStorage.isEmpty = true
      rw [hne]
      exact Bool.false_ne_true
    unfold Connection.validatePermanentPassword Connection.validatePasswordStorage
    rw [if_pos hyes, if_neg hno]
    rfl
  rw [hpath]
  by_cases hmem : writer.uuidKey key ∈ m.keys key
  · have hdecode := decodeH1_of_mem hh1 hn hstorage honly hmem
    have husable : m.localPermanentPasswordStorageIsUsableForAuth key (strBytes e.localStorage)
        e.localSalt = true := by
      unfold Machine.localPermanentPasswordStorageIsUsableForAuth
      have hcons : (strBytes e.localStorage).isEmpty = false := by
        rw [encodeEncryptedStorage_eq hh1 hstorage]
        rfl
      rw [hcons, hdecode, hsalt]
      rfl
    rw [husable, hdecode, Bool.true_and]
    dsimp only
    unfold Connection.verifyH1
    rw [beq_iff_eq]
    change e.sha256 (h1 ++ strBytes s.hash.challenge) = s.lr.password ↔ _
    constructor
    · exact fun h => .inr (hsha h)
    · rintro (hno | hfix)
      · exact absurd hmem hno
      · rw [hproof, ← hfix]
  · obtain ⟨hdecode, husable⟩ := usable_of_notMem hh1 hn hstorage honly hmem e.localSalt
    rw [husable, hdecode, Bool.true_and]
    dsimp only
    unfold Connection.validatePasswordPlain Connection.verifyH1
    rw [hne, hhash]
    simp [Machine.env, hproof, hmem]

end Proof

/-- The login proof that uses the stored text of an encrypted hash as the password is refused
by the permanent-password path, whatever else is enabled, exactly when the text was
written under a key that this machine tries to decrypt it with, and the hash is not that of
the stored text itself. -/
theorem storage_refused_iff (key : Bytes → B.Key) (m writer : Machine) (nonce : Vector UInt8 24)
    (h1 : Vector UInt8 32) (e : Env) (s : Connection)
    (hstorage : writer.encodePermanentPasswordEncryptedStorageFromH1 key nonce.toList h1.toList =
      some (strBytes e.localStorage))
    (honly : OpensOnlyUnder (m.keys key) (writer.uuidKey key) nonce.toList
      (encodePermanentPasswordStorageFromH1 h1.toList))
    (hsalt : e.localSalt ≠ "") (hhash : s.hash.salt = e.localSalt)
    (hproof : s.lr.password =
      e.sha256 (e.sha256 (strBytes e.localStorage ++ strBytes e.localSalt) ++
        strBytes s.hash.challenge))
    (hsha : e.sha256 (h1.toList ++ strBytes s.hash.challenge) =
        e.sha256 (e.sha256 (strBytes e.localStorage ++ strBytes e.localSalt) ++
          strBytes s.hash.challenge) →
      h1.toList ++ strBytes s.hash.challenge =
        e.sha256 (strBytes e.localStorage ++ strBytes e.localSalt) ++ strBytes s.hash.challenge) :
    (∀ temporaryEnabled allow,
        ¬ AcceptedAsPermanent (s.validatePassword { m.env key e with temporaryEnabled } allow)) ↔
      writer.uuidKey key ∈ m.keys key ∧
        h1.toList ≠ e.sha256 (strBytes e.localStorage ++ strBytes e.localSalt) := by
  have hsalt' : e.localSalt.isEmpty = false := by
    by_contra hne
    rw [Bool.not_eq_false, String.isEmpty_iff] at hne
    exact hsalt hne
  have hpath : ∀ temporaryEnabled,
      s.validatePermanentPassword { m.env key e with temporaryEnabled } = true ↔
        writer.uuidKey key ∉ m.keys key ∨
          h1.toList = e.sha256 (strBytes e.localStorage ++ strBytes e.localSalt) := by
    intro temporaryEnabled
    refine validatePermanentPassword_iff (e := { e with temporaryEnabled }) (by simp; rfl)
      (by simp; rfl) hstorage honly hsalt' hhash hproof fun h => ?_
    exact List.append_cancel_right (hsha (h.trans hproof))
  constructor
  · intro h
    have hno : ¬ s.validatePermanentPassword { m.env key e with temporaryEnabled := false } = true := by
      intro hyes
      refine h false true (acceptedAsPermanent_iff.mpr ⟨rfl, by simp, hyes⟩)
    rw [hpath, not_or, not_not] at hno
    exact hno
  · rintro ⟨hmem, hne⟩ temporaryEnabled allow haccepted
    rcases (hpath temporaryEnabled).mp (acceptedAsPermanent_iff.mp haccepted).2.2 with hno | hfix
    · exact hno hmem
    · exact hne hfix

instance decidableAcceptedAsPermanent (r : Connection × Bool) : Decidable (AcceptedAsPermanent r) :=
  inferInstanceAs (Decidable (r.2 = true ∧ r.1.connAuditPrimaryAuth = .permanentPassword))

def someNonce : Vector UInt8 24 := Vector.replicate 24 5

def someH1 : Vector UInt8 32 := Vector.replicate 32 9

/-- The storage of the hash on the machine with the uuid `[7]`. -/
def storageOfSeven : String :=
  String.ofList (((Machine.encodePermanentPasswordEncryptedStorageFromH1 bytesKey { uuid := [7] }
    someNonce.toList someH1.toList).getD []).map fun c => Char.ofNat c.toNat)

theorem storageOfSeven_eq :
    Machine.encodePermanentPasswordEncryptedStorageFromH1 bytesKey { uuid := [7] }
      someNonce.toList someH1.toList = some (strBytes storageOfSeven) := by
  decide +kernel

def storedEnv : Env := { localStorage := storageOfSeven, localSalt := "salt" }

/-- A login with the stored text as the password. -/
def storedLogin : Connection :=
  { Connection.start ⟨.linux, true, false, false⟩ storedEnv 1 ⟨"salt", "challenge"⟩ none none with
    lr := { password := strBytes storageOfSeven ++ strBytes "salt" ++ strBytes "challenge" } }

/-- The machine has another uuid now, and its public key is the one that was used. -/
theorem storage_refused_pk :
    let m : Machine := { uuid := [8], pk := some [7] }
    (∀ temporaryEnabled allow, ¬ AcceptedAsPermanent
      (storedLogin.validatePassword { m.env bytesKey storedEnv with temporaryEnabled } allow)) := by
  intro m
  have honly : OpensOnlyUnder (m.keys bytesKey) (Machine.uuidKey bytesKey { uuid := [7] })
      someNonce.toList (encodePermanentPasswordStorageFromH1 someH1.toList) :=
    ⟨by decide +kernel, by decide +kernel⟩
  refine (storage_refused_iff bytesKey m { uuid := [7] } someNonce someH1 storedEnv storedLogin
    storageOfSeven_eq honly (by decide) rfl rfl fun h => h).mpr ⟨by decide +kernel, by decide +kernel⟩

/-- The machine has another uuid now and no key pair: the storage is neither decrypted nor
refused, and is compared as a plain password. -/
theorem storage_of_other_key_accepted :
    ¬ ∀ (m writer : Machine) (nonce : Vector UInt8 24) (h1 : Vector UInt8 32) (e : Env)
        (s : Connection),
      writer.encodePermanentPasswordEncryptedStorageFromH1 bytesKey nonce.toList h1.toList =
        some (strBytes e.localStorage) →
      OpensOnlyUnder (m.keys bytesKey) (writer.uuidKey bytesKey) nonce.toList
        (encodePermanentPasswordStorageFromH1 h1.toList) →
      Function.Injective e.sha256 → e.localSalt ≠ "" → s.hash.salt = e.localSalt →
      s.lr.password = e.sha256 (e.sha256 (strBytes e.localStorage ++ strBytes e.localSalt) ++
        strBytes s.hash.challenge) →
      ∀ allow, ¬ AcceptedAsPermanent (s.validatePassword (m.env bytesKey e) allow) := by
  intro h
  have honly : OpensOnlyUnder (Machine.keys bytesKey { uuid := [8] })
      (Machine.uuidKey bytesKey { uuid := [7] }) someNonce.toList
      (encodePermanentPasswordStorageFromH1 someH1.toList) := ⟨by decide +kernel, by decide +kernel⟩
  refine h { uuid := [8] } { uuid := [7] } someNonce someH1 storedEnv storedLogin
    storageOfSeven_eq honly (fun _ _ h => h) (by decide) rfl rfl false ?_
  decide +kernel

end RustDesk.PermanentPassword
