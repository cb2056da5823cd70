import RustDesk.PeerNames

/-!
# Versioned secrets

A secret in a configuration file is `00` and the base64 of its cipher text. Whether a value
is encrypted already is read off its shape: the prefix, base64 behind it, and enough bytes
for a tag. What is not in that shape is taken for the secret itself.

The cipher text has had two forms, with a header and a nonce or without both, and was made
under the uuid of the machine or, when that could not be read, under its public key. The
last section says which bytes decrypt.
-/

namespace RustDesk.PermanentPassword

variable {B : SecretBox} (key : Bytes → B.Key)

namespace Machine

def encrypt (m : Machine) (nonce v : Bytes) : Option Bytes :=
  if v.isEmpty then none else some (Base64.encode (m.symmetricEncrypt key nonce v))

/-- A secret that is too long becomes empty. -/
def encryptOrOriginal (count : Bytes → Nat) (m : Machine) (nonce v version : Bytes)
    (maxLen : Nat) : Bytes :=
  if isEncrypted v then v
  else if maxLen < count v then []
  else if version = passwordEncVersion then
    match m.encrypt key nonce v with
    | some s => version ++ s
    | none => v
  else v

/-- The length is in characters. -/
def encryptStrOrOriginal (m : Machine) (nonce s version : Bytes) (maxLen : Nat) : Bytes :=
  m.encryptOrOriginal key charCount nonce s version maxLen

/-- The length is in bytes. -/
def encryptVecOrOriginal (m : Machine) (nonce v version : Bytes) (maxLen : Nat) : Bytes :=
  m.encryptOrOriginal key List.length nonce v version maxLen

/-- The version is compared as text. -/
def decryptVecOrOriginal (m : Machine) (v currentVersion : Bytes) : Bytes × Bool × Bool :=
  let original := (v, false, !v.isEmpty && !isEncrypted v)
  if versionLen < v.length then
    let version := fromUtf8Lossy (v.take versionLen)
    if version = passwordEncVersion then
      match m.decrypt key (v.drop versionLen) with
      | some v => (v, true, version != currentVersion)
      | none => original
    else original
  else original

end Machine

/-! ### What encryption makes -/

section Encrypted

variable {key} {m : Machine} {nonce data : Bytes}

theorem symmetricDecrypt_of_uuidKey {payload : Bytes}
    (h : openSecretboxPayload payload (m.uuidKey key) = some data) :
    m.symmetricDecrypt key payload = some data := by
  unfold Machine.symmetricDecrypt
  rw [h]

theorem symmetricDecrypt_symmetricEncrypt (hn : nonce.length = nonceBytes) :
    m.symmetricDecrypt key (m.symmetricEncrypt key nonce data) = some data :=
  symmetricDecrypt_of_uuidKey (openSecretboxPayload_seal hn data (m.uuidKey key))

theorem length_symmetricEncrypt :
    (m.symmetricEncrypt key nonce data).length = 1 + nonce.length + (data.length + macBytes) := by
  unfold Machine.symmetricEncrypt
  rw [List.length_append, List.length_cons, B.length_sealBox]
  unfold macBytes
  omega

theorem encode_ne_nil (h : data ≠ []) : Base64.encode data ≠ [] := by
  have hlen : 0 < data.length := List.length_pos_of_ne_nil h
  apply List.ne_nil_of_length_pos
  rw [Base64.length_encode]
  omega

theorem symmetricEncrypt_ne_nil : m.symmetricEncrypt key nonce data ≠ [] := List.cons_ne_nil _ _

theorem encrypt_eq (h : data ≠ []) :
    m.encrypt key nonce data = some (Base64.encode (m.symmetricEncrypt key nonce data)) :=
  if_neg (by simpa using h)

/-- The text of a cipher text. -/
def sealedText (payload : Bytes) : Bytes := passwordEncVersion ++ Base64.encode payload

theorem isPrefixOf_sealedText (payload : Bytes) :
    passwordEncVersion.isPrefixOf (sealedText payload) = true := by
  simp [sealedText]

theorem drop_sealedText (payload : Bytes) :
    (sealedText payload).drop versionLen = Base64.encode payload := rfl

theorem take_sealedText (payload : Bytes) :
    (sealedText payload).take versionLen = passwordEncVersion := rfl

theorem versionLen_lt_sealedText {payload : Bytes} (h : payload ≠ []) :
    versionLen < (sealedText payload).length := by
  have hpos : 0 < (Base64.encode payload).length := List.length_pos_of_ne_nil (encode_ne_nil h)
  unfold sealedText
  rw [List.length_append]
  exact Nat.lt_add_of_pos_right hpos

theorem isEncrypted_sealedText {payload : Bytes} (h : macBytes ≤ payload.length) :
    isEncrypted (sealedText payload) = true := by
  have hne : payload ≠ [] := by
    rintro rfl
    exact absurd h (by decide)
  unfold isEncrypted
  rw [isPrefixOf_sealedText, drop_sealedText, Base64.decode_encode,
    decide_eq_false (Nat.not_le.mpr (versionLen_lt_sealedText hne))]
  exact decide_eq_true h

theorem isEncrypted_encrypted :
    isEncrypted (sealedText (m.symmetricEncrypt key nonce data)) = true := by
  apply isEncrypted_sealedText
  rw [length_symmetricEncrypt]
  omega

theorem decrypt_encode {payload : Bytes} (h : payload ≠ []) :
    m.decrypt key (Base64.encode payload) = m.symmetricDecrypt key payload := by
  unfold Machine.decrypt
  rw [if_neg (by simpa using encode_ne_nil h), Base64.decode_encode]
  rfl

theorem encryptOrOriginal_cases (key : Bytes → B.Key) (count : Bytes → Nat) (m : Machine)
    (nonce v version : Bytes) (maxLen : Nat) :
    isEncrypted v = true ∧ m.encryptOrOriginal key count nonce v version maxLen = v ∨
      isEncrypted v = false ∧ maxLen < count v ∧
        m.encryptOrOriginal key count nonce v version maxLen = [] ∨
      isEncrypted v = false ∧ count v ≤ maxLen ∧ version = passwordEncVersion ∧ v ≠ [] ∧
        m.encryptOrOriginal key count nonce v version maxLen =
          sealedText (m.symmetricEncrypt key nonce v) ∨
      isEncrypted v = false ∧ count v ≤ maxLen ∧ (version ≠ passwordEncVersion ∨ v = []) ∧
        m.encryptOrOriginal key count nonce v version maxLen = v := by
  unfold Machine.encryptOrOriginal
  by_cases henc : isEncrypted v = true
  · exact .inl ⟨henc, if_pos henc⟩
  · rw [if_neg henc]
    rw [Bool.not_eq_true] at henc
    by_cases hlen : maxLen < count v
    · exact .inr (.inl ⟨henc, hlen, if_pos hlen⟩)
    · rw [if_neg hlen]
      rw [Nat.not_lt] at hlen
      by_cases hver : version = passwordEncVersion
      · rw [if_pos hver]
        by_cases hne : v = []
        · refine .inr (.inr (.inr ⟨henc, hlen, .inr hne, ?_⟩))
          rw [hne]
          rfl
        · refine .inr (.inr (.inl ⟨henc, hlen, hver, hne, ?_⟩))
          rw [encrypt_eq hne, hver]
          rfl
      · exact .inr (.inr (.inr ⟨henc, hlen, .inl hver, if_neg hver⟩))

end Encrypted

/-! ### The laws of a pair of functions -/

/-- What encryption and decryption of secrets promise: `bytes` are those of a value and
`count` is its length, in the unit that the limit is in. -/
structure SecretLaws {α : Type} (bytes : α → Bytes) (count : α → Nat)
    (encrypt : Bytes → Bytes → Bytes → Nat → Bytes)
    (decrypt : Bytes → Bytes → Bytes × Bool × Bool) : Prop where
  /-- A secret comes back, as decrypted and not to be stored again unless it is empty. -/
  roundTrip : ∀ (nonce : Vector UInt8 24) (s : α) (maxLen : Nat), count s ≤ maxLen →
    isEncrypted (bytes s) = false →
    decrypt (encrypt nonce.toList (bytes s) passwordEncVersion maxLen) passwordEncVersion =
      (bytes s, !(bytes s).isEmpty, false)
  /-- The function is the identity on what it returned. -/
  ownImage : ∀ (nonce nonce' : Vector UInt8 24) (s : α) (version : Bytes) (maxLen : Nat),
    encrypt nonce.toList (bytes s) version maxLen ≠ [] →
    encrypt nonce'.toList (encrypt nonce.toList (bytes s) version maxLen) version maxLen =
      encrypt nonce.toList (bytes s) version maxLen
  /-- What it encrypted looks encrypted. -/
  looksEncrypted : ∀ (nonce : Vector UInt8 24) (s : α) (maxLen : Nat),
    encrypt nonce.toList (bytes s) passwordEncVersion maxLen ≠ [] →
    isEncrypted (encrypt nonce.toList (bytes s) passwordEncVersion maxLen) = true
  encrypted : ∀ (nonce : Vector UInt8 24) (v version : Bytes) (maxLen : Nat),
    isEncrypted v = true → encrypt nonce.toList v version maxLen = v
  /-- A value that does not decrypt is returned, and is to be stored again when it is a plain
  one. -/
  failed : ∀ v version : Bytes, (decrypt v version).2.1 = false →
    (decrypt v version).1 = v ∧ ((decrypt v version).2.2 = true ↔ v ≠ [] ∧ isEncrypted v = false)

section Laws

variable {key} {m : Machine}

theorem ownImage_encryptOrOriginal (count : Bytes → Nat) (nonce nonce' v version : Bytes)
    (maxLen : Nat) (h : m.encryptOrOriginal key count nonce v version maxLen ≠ []) :
    m.encryptOrOriginal key count nonce' (m.encryptOrOriginal key count nonce v version maxLen)
        version maxLen = m.encryptOrOriginal key count nonce v version maxLen := by
  rcases encryptOrOriginal_cases key count m nonce v version maxLen with
    ⟨henc, heq⟩ | ⟨-, -, heq⟩ | ⟨-, -, -, -, heq⟩ | ⟨henc, hlen, hver, heq⟩
  · rw [heq]
    exact if_pos henc
  · exact absurd heq h
  · rw [heq]
    exact if_pos isEncrypted_encrypted
  · -- another version: the value itself, which is within the limit
    rw [heq] at h ⊢
    unfold Machine.encryptOrOriginal
    rw [if_neg (by simp [henc]), if_neg (Nat.not_lt.mpr hlen), if_neg (hver.resolve_right h)]

theorem looksEncrypted_encryptOrOriginal (count : Bytes → Nat) (nonce v : Bytes) (maxLen : Nat)
    (h : m.encryptOrOriginal key count nonce v passwordEncVersion maxLen ≠ []) :
    isEncrypted (m.encryptOrOriginal key count nonce v passwordEncVersion maxLen) = true := by
  rcases encryptOrOriginal_cases key count m nonce v passwordEncVersion maxLen with
    ⟨henc, heq⟩ | ⟨-, -, heq⟩ | ⟨-, -, -, -, heq⟩ | ⟨-, -, hver, heq⟩
  · rw [heq]
    exact henc
  · exact absurd heq h
  · rw [heq]
    exact isEncrypted_encrypted
  · rw [heq] at h
    exact absurd (hver.resolve_left fun hne => hne rfl) h

/-- A value within the limit is encrypted, or is empty and stays so. -/
theorem encryptOrOriginal_of_le (key : Bytes → B.Key) (m : Machine) (nonce : Bytes)
    {count : Bytes → Nat} {v : Bytes} {maxLen : Nat} (hlen : count v ≤ maxLen)
    (henc : isEncrypted v = false) :
    v = [] ∧ m.encryptOrOriginal key count nonce v passwordEncVersion maxLen = [] ∨
      v ≠ [] ∧ m.encryptOrOriginal key count nonce v passwordEncVersion maxLen =
        sealedText (m.symmetricEncrypt key nonce v) := by
  rcases encryptOrOriginal_cases key count m nonce v passwordEncVersion maxLen with
    ⟨henc', -⟩ | ⟨-, hlong, -⟩ | ⟨-, -, -, hne, heq⟩ | ⟨-, -, hver, heq⟩
  · rw [henc] at henc'
    cases henc'
  · omega
  · exact .inr ⟨hne, heq⟩
  · have hnil : v = [] := hver.resolve_left fun hne => hne rfl
    rw [hnil] at heq ⊢
    exact .inl ⟨rfl, heq⟩

theorem decryptStrOrOriginal_sealedText {payload data : Bytes} (hne : payload ≠ [])
    (h : m.symmetricDecrypt key payload = some data) (version : Bytes) :
    m.decryptStrOrOriginal key (sealedText payload) version =
      (fromUtf8Lossy data, true, passwordEncVersion != version) := by
  unfold Machine.decryptStrOrOriginal
  rw [isPrefixOf_sealedText, decide_eq_true (versionLen_lt_sealedText hne), drop_sealedText,
    decrypt_encode hne, h]
  rfl

theorem decryptVecOrOriginal_sealedText {payload data : Bytes} (hne : payload ≠ [])
    (h : m.symmetricDecrypt key payload = some data) (version : Bytes) :
    m.decryptVecOrOriginal key (sealedText payload) version =
      (data, true, passwordEncVersion != version) := by
  have hversion : fromUtf8Lossy passwordEncVersion = passwordEncVersion := by decide
  unfold Machine.decryptVecOrOriginal
  rw [if_pos (versionLen_lt_sealedText hne), take_sealedText, hversion, drop_sealedText,
    decrypt_encode hne, h]
  exact if_pos rfl

theorem original_failed (v : Bytes) :
    v = v ∧ ((!v.isEmpty && !isEncrypted v) = true ↔ v ≠ [] ∧ isEncrypted v = false) := by
  refine ⟨rfl, ?_⟩
  rw [Bool.and_eq_true, Bool.not_eq_true', Bool.not_eq_true', List.isEmpty_eq_false_iff]

theorem decryptStrOrOriginal_failed {s version : Bytes}
    (h : (m.decryptStrOrOriginal key s version).2.1 = false) :
    m.decryptStrOrOriginal key s version = (s, false, !s.isEmpty && !isEncrypted s) := by
  unfold Machine.decryptStrOrOriginal at h ⊢
  dsimp only at h ⊢
  split
  · rename_i hver
    rw [if_pos hver] at h
    split
    · rename_i v hv
      rw [hv] at h
      exact absurd h (by simp)
    · rfl
  · rfl

theorem decryptVecOrOriginal_failed {v version : Bytes}
    (h : (m.decryptVecOrOriginal key v version).2.1 = false) :
    m.decryptVecOrOriginal key v version = (v, false, !v.isEmpty && !isEncrypted v) := by
  unfold Machine.decryptVecOrOriginal at h ⊢
  dsimp only at h ⊢
  split
  · rename_i hlen
    rw [if_pos hlen] at h
    split
    · rename_i hver
      rw [if_pos hver] at h
      split
      · rename_i v' hv
        rw [hv] at h
        exact absurd h (by simp)
      · rfl
    · rfl
  · rfl

theorem strBytes_eq_text (s : String) : strBytes s = Utf8Text.text s.toList := by
  unfold strBytes
  rw [show s.toUTF8 = s.toList.utf8Encode from String.utf8Encode_toList.symm]
  unfold List.utf8Encode
  simp

theorem fromUtf8Lossy_strBytes (s : String) : fromUtf8Lossy (strBytes s) = strBytes s := by
  rw [strBytes_eq_text, PeerConfig.fromUtf8Lossy_text]

theorem charCount_strBytes (s : String) : charCount (strBytes s) = s.length := by
  rw [strBytes_eq_text, PeerConfig.charCount_text, String.length_toList]

theorem strLaws (key : Bytes → B.Key) (m : Machine) :
    SecretLaws strBytes String.length (m.encryptStrOrOriginal key) (m.decryptStrOrOriginal key) where
  roundTrip nonce s maxLen hlen henc := by
    unfold Machine.encryptStrOrOriginal
    rcases encryptOrOriginal_of_le key m nonce.toList
      ((charCount_strBytes s).le.trans hlen) henc with ⟨hnil, heq⟩ | ⟨hne, heq⟩
    · rw [heq, hnil]
      rfl
    · rw [heq, decryptStrOrOriginal_sealedText symmetricEncrypt_ne_nil
        (symmetricDecrypt_symmetricEncrypt (by simp; rfl)), fromUtf8Lossy_strBytes]
      simp [hne]
  ownImage _ _ _ _ _ h := ownImage_encryptOrOriginal charCount _ _ _ _ _ h
  looksEncrypted _ _ _ h := looksEncrypted_encryptOrOriginal charCount _ _ _ h
  encrypted _ _ _ _ h := if_pos h
  failed v version h := by
    rw [decryptStrOrOriginal_failed h]
    exact original_failed v

theorem vecLaws (key : Bytes → B.Key) (m : Machine) :
    SecretLaws id List.length (m.encryptVecOrOriginal key) (m.decryptVecOrOriginal key) where
  roundTrip nonce v maxLen hlen henc := by
    unfold Machine.encryptVecOrOriginal
    rcases encryptOrOriginal_of_le key m nonce.toList (v := id v) hlen henc with
      ⟨hnil, heq⟩ | ⟨hne, heq⟩
    · rw [heq, hnil]
      rfl
    · rw [heq, decryptVecOrOriginal_sealedText symmetricEncrypt_ne_nil
        (symmetricDecrypt_symmetricEncrypt (by simp; rfl))]
      simpa using hne
  ownImage _ _ _ _ _ h := ownImage_encryptOrOriginal List.length _ _ _ _ _ h
  looksEncrypted _ _ _ h := looksEncrypted_encryptOrOriginal List.length _ _ _ h
  encrypted _ _ _ _ h := if_pos h
  failed v version h := by
    rw [decryptVecOrOriginal_failed h]
    exact original_failed v

end Laws

/-- Secrets in text, limited in characters, and secrets in bytes, limited in bytes, keep the
same laws on every machine. -/
theorem versioned_secrets (key : Bytes → B.Key) (m : Machine) :
    SecretLaws strBytes String.length (m.encryptStrOrOriginal key) (m.decryptStrOrOriginal key) ∧
      SecretLaws id List.length (m.encryptVecOrOriginal key) (m.decryptVecOrOriginal key) :=
  ⟨strLaws key m, vecLaws key m⟩

/-! ### Which bytes decrypt -/

/-- One call of `seal`. -/
structure Sealing (B : SecretBox) where
  plaintext : Bytes
  nonce : Bytes
  key : B.Key

def Sealing.box (s : Sealing B) : Bytes := B.sealBox s.plaintext s.nonce s.key

def legacyNonce : Bytes := List.replicate nonceBytes 0

/-- The boxes that a payload may be, each with its nonce, in the order they are tried. -/
def readings (data : Bytes) : List (Bytes × Bytes) :=
  if data.head? = some formatV1 ∧ 1 + nonceBytes + macBytes ≤ data.length then
    [(data.drop (1 + nonceBytes), (data.drop 1).take nonceBytes), (data, legacyNonce)]
  else [(data, legacyNonce)]

/-- The cipher is ideal on a payload: what opens under the keys that are tried was sealed,
and the box of one sealing is not the end of the box of another. -/
structure IdealOn (ks : List B.Key) (sealed : Set (Sealing B)) (data : Bytes) : Prop where
  authentic : ∀ k ∈ ks, ∀ r ∈ readings data, ∀ p, B.openBox r.1 r.2 k = some p →
    (⟨p, r.2, k⟩ : Sealing B) ∈ sealed ∧ r.1 = B.sealBox p r.2 k
  apart : ∀ a ∈ sealed, ∀ b ∈ sealed, a.box <:+ b.box → a = b

/-- The keys that a version may have encrypted with. -/
inductive WriterKey (key : Bytes → B.Key) (m : Machine) : B.Key → Prop
  | uuid : WriterKey key m (m.uuidKey key)
  | fallback {pk : Bytes} : m.mobile = false → m.pk = some pk → pk ≠ m.uuid →
      WriterKey key m (key (resize keyBytes pk))

/-- The payloads of a plain text that a version may have written. -/
inductive Written (key : Bytes → B.Key) (m : Machine) (sealed : Set (Sealing B)) (p : Bytes) :
    Bytes → Prop
  | current {k : B.Key} (nonce : Vector UInt8 24) : WriterKey key m k →
      (⟨p, nonce.toList, k⟩ : Sealing B) ∈ sealed →
      Written key m sealed p (formatV1 :: nonce.toList ++ B.sealBox p nonce.toList k)
  | legacy {k : B.Key} : WriterKey key m k → (⟨p, legacyNonce, k⟩ : Sealing B) ∈ sealed →
      Written key m sealed p (B.sealBox p legacyNonce k)

section Ideal

variable {key} {m : Machine} {sealed : Set (Sealing B)} {data p : Bytes}

theorem mem_keys_iff {k : B.Key} : k ∈ m.keys key ↔ WriterKey key m k := by
  unfold Machine.keys
  rw [List.mem_cons]
  constructor
  · rintro (rfl | hk)
    · exact .uuid
    · by_cases hmobile : m.mobile = true
      · rw [if_pos hmobile] at hk
        cases hk
      · rw [if_neg hmobile] at hk
        cases hpk : m.pk with
        | none =>
          rw [hpk] at hk
          cases hk
        | some pk =>
          rw [hpk] at hk
          dsimp only at hk
          split at hk
          · rename_i hne
            rw [List.mem_singleton.mp hk]
            exact .fallback (Bool.not_eq_true _ ▸ hmobile) hpk hne
          · cases hk
  · rintro (_ | ⟨hmobile, hpk, hne⟩)
    · exact .inl rfl
    · right
      rw [if_neg (by simp [hmobile]), hpk]
      dsimp only
      rw [if_pos hne]
      exact List.mem_singleton_self _

theorem openSecretboxPayload_eq_findSome (data : Bytes) (k : B.Key) :
    openSecretboxPayload data k = (readings data).findSome? fun r => B.openBox r.1 r.2 k := by
  unfold openSecretboxPayload readings
  split
  · rw [List.findSome?_cons, List.findSome?_singleton]
    split
    · rename_i hsome
      rw [hsome]
    · rename_i hnone
      rw [hnone]
      rfl
  · rw [List.findSome?_singleton]
    rfl

theorem symmetricDecrypt_sound (h : m.symmetricDecrypt key data = some p) :
    ∃ k ∈ m.keys key, ∃ r ∈ readings data, B.openBox r.1 r.2 k = some p := by
  rw [symmetricDecrypt_eq_findSome] at h
  obtain ⟨k, hk, hopen⟩ := List.exists_of_findSome?_eq_some h
  rw [openSecretboxPayload_eq_findSome] at hopen
  obtain ⟨r, hr, hbox⟩ := List.exists_of_findSome?_eq_some hopen
  exact ⟨k, hk, r, hr, hbox⟩

theorem symmetricDecrypt_isSome {k : B.Key} {r : Bytes × Bytes} {q : Bytes}
    (hk : k ∈ m.keys key) (hr : r ∈ readings data) (hopen : B.openBox r.1 r.2 k = some q) :
    (m.symmetricDecrypt key data).isSome = true := by
  rw [symmetricDecrypt_eq_findSome, List.findSome?_isSome_iff]
  refine ⟨k, hk, ?_⟩
  rw [openSecretboxPayload_eq_findSome, List.findSome?_isSome_iff]
  exact ⟨r, hr, by rw [hopen]; rfl⟩

/-- The last reading of a payload is the payload, and all readings are ends of it. -/
theorem legacy_mem_readings (data : Bytes) : (data, legacyNonce) ∈ readings data := by
  unfold readings
  split <;> simp

theorem suffix_of_mem_readings {r : Bytes × Bytes} (h : r ∈ readings data) : r.1 <:+ data := by
  unfold readings at h
  split at h
  · rcases List.mem_cons.mp h with rfl | h
    · exact List.drop_suffix _ _
    · obtain rfl := List.mem_singleton.mp h
      exact List.suffix_rfl
  · obtain rfl := List.mem_singleton.mp h
    exact List.suffix_rfl

theorem readings_headed {nonce box : Bytes} (hn : nonce.length = nonceBytes)
    (hbox : macBytes ≤ box.length) :
    readings (formatV1 :: nonce ++ box) =
      [(box, nonce), (formatV1 :: nonce ++ box, legacyNonce)] := by
  have hlen : 1 + nonceBytes + macBytes ≤ (formatV1 :: nonce ++ box).length := by
    rw [List.length_append, List.length_cons, hn]
    omega
  unfold readings
  rw [if_pos ⟨rfl, hlen⟩, drop_headed hn, take_headed hn]

theorem opened_eq {s : Sealing B} (hideal : IdealOn (m.keys key) sealed data) (hs : s ∈ sealed)
    (hend : s.box <:+ data) (h : m.symmetricDecrypt key data = some p) : p = s.plaintext := by
  obtain ⟨k, hk, r, hr, hopen⟩ := symmetricDecrypt_sound h
  obtain ⟨hmem, hbox⟩ := hideal.authentic k hk r hr p hopen
  rcases List.suffix_or_suffix_of_suffix (suffix_of_mem_readings hr) hend with hle | hle
  · rw [hbox] at hle
    exact congrArg Sealing.plaintext (hideal.apart _ hmem _ hs hle)
  · rw [hbox] at hle
    exact congrArg Sealing.plaintext (hideal.apart _ hs _ hmem hle).symm

theorem symmetricDecrypt_written (hideal : IdealOn (m.keys key) sealed data)
    (h : Written key m sealed p data) : m.symmetricDecrypt key data = some p := by
  -- some reading opens under the key of the writer, and then the first that opens is `p`
  have hfound : ∃ k, WriterKey key m k ∧ ∃ r ∈ readings data, B.openBox r.1 r.2 k = some p ∧
      (⟨p, r.2, k⟩ : Sealing B) ∈ sealed ∧ B.sealBox p r.2 k = r.1 := by
    cases h with
    | @current k nonce hk hmem =>
      refine ⟨k, hk, (B.sealBox p nonce.toList k, nonce.toList), ?_, B.openBox_sealBox _ _ _,
        hmem, rfl⟩
      rw [readings_headed (by simp; rfl) (by rw [B.length_sealBox]; unfold macBytes; omega)]
      exact List.mem_cons_self
    | @legacy k hk hmem =>
      exact ⟨k, hk, _, legacy_mem_readings _, B.openBox_sealBox _ _ _, hmem, rfl⟩
  obtain ⟨k, hk, r, hr, hopen, hmem, hbox⟩ := hfound
  obtain ⟨q, hq⟩ := Option.isSome_iff_exists.mp
    (symmetricDecrypt_isSome (mem_keys_iff.mpr hk) hr hopen)
  have hend : Sealing.box ⟨p, r.2, k⟩ <:+ data := by
    unfold Sealing.box
    rw [hbox]
    exact suffix_of_mem_readings hr
  have heq : q = p := opened_eq hideal hmem hend hq
  rw [hq, heq]

/-- A reading that opens makes the payload one that a version wrote. -/
theorem written_of_opened {k : B.Key} {r : Bytes × Bytes} (hk : WriterKey key m k)
    (hr : r ∈ readings data) (hmem : (⟨p, r.2, k⟩ : Sealing B) ∈ sealed)
    (hbox : r.1 = B.sealBox p r.2 k) : Written key m sealed p data := by
  have hlegacy : r = (data, legacyNonce) → Written key m sealed p data := by
    rintro rfl
    have hdata : data = B.sealBox p legacyNonce k := hbox
    rw [hdata]
    exact .legacy hk hmem
  unfold readings at hr
  split at hr
  · rename_i hhead
    rcases List.mem_cons.mp hr with rfl | hr
    · obtain ⟨a, rest, rfl⟩ : ∃ a rest, data = a :: rest := by
        cases data with
        | nil => exact absurd hhead.1 (by simp)
        | cons a rest => exact ⟨a, rest, rfl⟩
      have ha : a = formatV1 := Option.some.inj hhead.1
      have hlen : (rest.take nonceBytes).length = 24 := by
        have := hhead.2
        unfold nonceBytes macBytes at this
        rw [List.length_cons] at this
        rw [List.length_take]
        unfold nonceBytes
        omega
      have hwritten : Written key m sealed p _ :=
        .current ⟨(rest.take nonceBytes).toArray, by simpa using hlen⟩ hk hmem
      have hrest : rest.drop nonceBytes = B.sealBox p (rest.take nonceBytes) k := by
        rw [Nat.add_comm] at hbox
        exact hbox
      rw [Vector.toList_mk, List.toList_toArray, ← hrest, List.cons_append, List.take_append_drop,
        ← ha] at hwritten
      exact hwritten
    · exact hlegacy (List.mem_singleton.mp hr)
  · exact hlegacy (List.mem_singleton.mp hr)

end Ideal

/-- Decryption recovers the plain text from a payload with a header and a nonce and from one
without, under the uuid of the machine and under the public key it falls back to, whatever the
payload starts with; and it refuses every other payload. -/
theorem symmetricDecrypt_iff_written (key : Bytes → B.Key) (m : Machine)
    (sealed : Set (Sealing B)) (data : Bytes) (hideal : IdealOn (m.keys key) sealed data) :
    (∀ p, m.symmetricDecrypt key data = some p ↔ Written key m sealed p data) ∧
      (m.symmetricDecrypt key data = none ↔ ∀ p, ¬ Written key m sealed p data) := by
  have hiff : ∀ p, m.symmetricDecrypt key data = some p ↔ Written key m sealed p data := by
    intro p
    constructor
    · intro h
      obtain ⟨k, hk, r, hr, hopen⟩ := symmetricDecrypt_sound h
      obtain ⟨hmem, hbox⟩ := hideal.authentic k hk r hr p hopen
      exact written_of_opened (mem_keys_iff.mp hk) hr hmem hbox
    · exact symmetricDecrypt_written hideal
  refine ⟨hiff, ?_⟩
  rw [Option.eq_none_iff_forall_ne_some]
  exact forall_congr' fun p => not_congr (hiff p)

/-- A payload of an older version under the public key, which starts like a current one. -/
theorem symmetricDecrypt_marked_legacy :
    let m : Machine := { uuid := [8], pk := some [1] }
    let p : Bytes := List.replicate 40 9
    let data := tagBox.sealBox p legacyNonce (bytesKey (resize keyBytes [1]))
    data.head? = some formatV1 ∧ m.symmetricDecrypt bytesKey data = some p := by
  intro m p data
  let s : Sealing tagBox := ⟨p, legacyNonce, bytesKey (resize keyBytes [1])⟩
  have hideal : IdealOn (m.keys bytesKey) {s} data := by
    refine ⟨?_, ?_⟩
    · have hopens : ∀ k ∈ m.keys bytesKey, ∀ r ∈ readings data,
          tagBox.openBox r.1 r.2 k = none ∨ k = s.key ∧ r = (data, legacyNonce) := by
        decide +kernel
      intro k hk r hr q hq
      rcases hopens k hk r hr with hnone | ⟨rfl, rfl⟩
      · rw [hnone] at hq
        cases hq
      · have hqp : q = p := Option.some.inj (hq.symm.trans (tagBox.openBox_sealBox p _ s.key))
        subst hqp
        exact ⟨rfl, rfl⟩
    · rintro a rfl b rfl -
      rfl
  have hwritten : Written bytesKey m {s} p data := .legacy (.fallback rfl rfl (by decide)) rfl
  exact ⟨by decide +kernel, ((symmetricDecrypt_iff_written bytesKey m {s} data hideal).1 p).mpr
    hwritten⟩

end RustDesk.PermanentPassword
