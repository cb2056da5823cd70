import RustDesk.VersionedSecrets

/-!
# The configuration on disk

The id and the permanent password of a configuration are secrets. In memory the id is in
the open; the password is empty, a plain text, or the current storage of a hash, which is
encrypted already. In the file a plain password and the id are encrypted, the id under
another name. A secret that is on disk under an encryption of its own keeps it, so that
storing a configuration that was loaded writes the same texts again.

The key pair of the machine is looked up in a cache first and in the file after that, and is
cached once it is found. While it runs, a machine can so gain a key pair, and keeps it then.
-/

namespace RustDesk.PermanentPassword

variable {B : SecretBox} (key : Bytes → B.Key)

/-- A configuration, in memory or in the file. -/
structure Config where
  id : Bytes := []
  encId : Bytes := []
  password : Bytes := []
  salt : String := ""
  keyPair : Bytes × Bytes := ([], [])
  keyConfirmed : Bool := false
  keysConfirmed : List (Bytes × Bool) := []
  deriving DecidableEq, Repr

namespace Machine

def keepEncryptedStorageIfPlaintextUnchanged (m : Machine) (nonce plain stored : Bytes) : Bytes :=
  let (storedPlain, encrypted, _) := m.decryptStrOrOriginal key stored passwordEncVersion
  if encrypted && storedPlain == plain then stored
  else m.encryptStrOrOriginal key nonce plain passwordEncVersion encryptMaxLen

end Machine

namespace Config

def ensurePermanentPasswordHashSalt (config : Config) : Except String Unit :=
  if config.salt.isEmpty then .error "Permanent password hash storage requires a non-empty salt"
  else .ok ()

def validateOrDecryptPermanentPasswordStorage (m : Machine) (config : Config) :
    Except String Config :=
  if config.password.isEmpty then .ok config
  else if passwordEncVersion.isPrefixOf config.password then
    let (plain, decrypted, shouldStore) :=
      m.decryptStrOrOriginal key config.password passwordEncVersion
    if decrypted then .ok { config with password := plain }
    else if !shouldStore then .error "Invalid permanent password encrypted hash storage"
    else .ok config
  else
    let (decryptedStorage, decrypted, _) :=
      m.decryptPermanentPasswordStrOrOriginal key config.password
    if decrypted then
      match config.ensurePermanentPasswordHashSalt with
      | .error e => .error e
      | .ok () =>
        if (decodePermanentPasswordH1FromHashedStorage decryptedStorage).isSome then .ok config
        else .error "Invalid permanent password encrypted hash storage"
    else .ok config

def prepareConfigForStore (m : Machine) (config : Config) : Config :=
  match config.validateOrDecryptPermanentPasswordStorage key m with
  | .ok config => config
  | .error _ => { config with password := [], salt := "" }

/-- The nonces that are generated if the password and the id are encrypted. -/
structure Nonces where
  password : Vector UInt8 24
  id : Vector UInt8 24

/-- The new file; `stored` is the old one. -/
def store (m : Machine) (nonces : Nonces) (config stored : Config) : Config :=
  let config := config.prepareConfigForStore key m
  let password :=
    if !config.password.isEmpty &&
        (m.decodePermanentPasswordH1FromStorage key config.password).isNone then
      m.keepEncryptedStorageIfPlaintextUnchanged key nonces.password.toList config.password
        stored.password
    else config.password
  let (storedId, encrypted, _) := m.decryptStrOrOriginal key config.encId passwordEncVersion
  let encId :=
    if !encrypted || storedId != config.id then
      m.encryptStrOrOriginal key nonces.id.toList config.id passwordEncVersion encryptMaxLen
    else config.encId
  { config with password, encId, id := [] }

/-- The configuration and the file, which is written anew when there is something to store.
`genId` are the ids that three attempts generate. -/
def load (m : Machine) (nonces : Nonces) (genId : Fin 3 → Option Bytes) (file : Config) :
    Config × Config :=
  let config := match file.validateOrDecryptPermanentPasswordStorage key m with
    | .ok config => config
    | .error _ => file
  let (id, encrypted, store2) := m.decryptStrOrOriginal key config.encId passwordEncVersion
  let (config, store) :=
    if encrypted then ({ config with id }, store2)
    else if !config.id.isEmpty && config.encId.isEmpty &&
        !(m.decryptStrOrOriginal key config.id passwordEncVersion).2.1 then (config, true)
    else match (List.finRange 3).findSome? genId with
      | some id => ({ config with id }, true)
      | none => (config, false)
  (config, if store then config.store key m nonces file else file)

end Config

/-! ### A machine that gains a key pair -/

/-- The machine later in the same run of the program. -/
structure Machine.Grows (m m' : Machine) : Prop where
  uuid : m'.uuid = m.uuid
  mobile : m'.mobile = m.mobile
  pk : m.pk = none ∨ m'.pk = m.pk

section Grows

variable {key} {m m' : Machine}

theorem Machine.Grows.refl (m : Machine) : m.Grows m := ⟨rfl, rfl, .inr rfl⟩

theorem Machine.Grows.trans {m'' : Machine} (h : m.Grows m') (h' : m'.Grows m'') : m.Grows m'' where
  uuid := h'.uuid.trans h.uuid
  mobile := h'.mobile.trans h.mobile
  pk := by
    rcases h.pk with hnone | heq
    · exact .inl hnone
    · rcases h'.pk with hnone | heq'
      · exact .inl (heq.symm.trans hnone)
      · exact .inr (heq'.trans heq)

theorem symmetricDecrypt_grows (h : m.Grows m') {data v : Bytes}
    (hv : m.symmetricDecrypt key data = some v) : m'.symmetricDecrypt key data = some v := by
  have huuid : m'.uuidKey key = m.uuidKey key := by
    unfold Machine.uuidKey
    rw [h.uuid]
  unfold Machine.symmetricDecrypt at hv ⊢
  rw [huuid, h.mobile, h.uuid]
  rcases h.pk with hnone | heq
  · cases hopen : openSecretboxPayload data (m.uuidKey key) with
    | some w =>
      rw [hopen] at hv
      exact hv
    | none =>
      rw [hopen, hnone] at hv
      simp at hv
  · rw [heq]
    exact hv

theorem decrypt_grows (h : m.Grows m') {data v : Bytes} (hv : m.decrypt key data = some v) :
    m'.decrypt key data = some v := by
  unfold Machine.decrypt at hv ⊢
  split at hv
  · cases hv
  · rename_i hne
    rw [if_neg hne]
    obtain ⟨payload, hdecode, hpayload⟩ := Option.bind_eq_some_iff.mp hv
    exact Option.bind_eq_some_iff.mpr ⟨payload, hdecode, symmetricDecrypt_grows h hpayload⟩

theorem decryptStrOrOriginal_decrypted {s : Bytes}
    (h : (m.decryptStrOrOriginal key s passwordEncVersion).2.1 = true) :
    passwordEncVersion.isPrefixOf s = true ∧ ∃ v, m.decrypt key (s.drop versionLen) = some v := by
  unfold Machine.decryptStrOrOriginal at h
  dsimp only at h
  split at h
  · rename_i hver
    rw [Bool.and_eq_true] at hver
    refine ⟨hver.2, ?_⟩
    cases hv : m.decrypt key (s.drop versionLen) with
    | some v => exact ⟨v, rfl⟩
    | none =>
      rw [hv] at h
      cases h
  · cases h

theorem decryptStrOrOriginal_grows (hg : m.Grows m') {s : Bytes}
    (h : (m.decryptStrOrOriginal key s passwordEncVersion).2.1 = true) :
    m'.decryptStrOrOriginal key s passwordEncVersion =
      m.decryptStrOrOriginal key s passwordEncVersion := by
  obtain ⟨-, v, hv⟩ := decryptStrOrOriginal_decrypted h
  unfold Machine.decryptStrOrOriginal
  rw [hv, decrypt_grows hg hv]

theorem decryptStrOrOriginal_not_grows (hg : m.Grows m') {s : Bytes}
    (h : (m'.decryptStrOrOriginal key s passwordEncVersion).2.1 = false) :
    (m.decryptStrOrOriginal key s passwordEncVersion).2.1 = false := by
  by_contra hne
  rw [Bool.not_eq_false] at hne
  rw [decryptStrOrOriginal_grows hg hne, hne] at h
  cases h

theorem decryptPermanent_decrypted {s : Bytes}
    (h : (m.decryptPermanentPasswordStrOrOriginal key s).2.1 = true) :
    permanentPasswordEncVersion.isPrefixOf s = true ∧
      ∃ v, (Base64.decode (s.drop versionLen)).bind (m.symmetricDecrypt key) = some v := by
  unfold Machine.decryptPermanentPasswordStrOrOriginal at h
  dsimp only at h
  split at h
  · rename_i hver
    rw [Bool.and_eq_true] at hver
    refine ⟨hver.2, ?_⟩
    cases hv : (Base64.decode (s.drop versionLen)).bind (m.symmetricDecrypt key) with
    | some v => exact ⟨v, rfl⟩
    | none =>
      rw [hv] at h
      cases h
  · cases h

theorem decryptPermanent_grows (hg : m.Grows m') {s : Bytes}
    (h : (m.decryptPermanentPasswordStrOrOriginal key s).2.1 = true) :
    m'.decryptPermanentPasswordStrOrOriginal key s =
      m.decryptPermanentPasswordStrOrOriginal key s := by
  obtain ⟨-, v, hv⟩ := decryptPermanent_decrypted h
  have hv' : (Base64.decode (s.drop versionLen)).bind (m'.symmetricDecrypt key) = some v := by
    obtain ⟨payload, hdecode, hpayload⟩ := Option.bind_eq_some_iff.mp hv
    exact Option.bind_eq_some_iff.mpr ⟨payload, hdecode, symmetricDecrypt_grows hg hpayload⟩
  unfold Machine.decryptPermanentPasswordStrOrOriginal
  rw [hv, hv']

theorem decryptPermanent_not_grows (hg : m.Grows m') {s : Bytes}
    (h : (m'.decryptPermanentPasswordStrOrOriginal key s).2.1 = false) :
    (m.decryptPermanentPasswordStrOrOriginal key s).2.1 = false := by
  by_contra hne
  rw [Bool.not_eq_false] at hne
  rw [decryptPermanent_grows hg hne, hne] at h
  cases h

theorem decodeH1_isSome {s : Bytes}
    (h : (m.decodePermanentPasswordH1FromStorage key s).isSome = true) :
    permanentPasswordEncVersion.isPrefixOf s = true ∧
      (m.decryptPermanentPasswordStrOrOriginal key s).2.1 = true ∧
      (decodePermanentPasswordH1FromHashedStorage
        (m.decryptPermanentPasswordStrOrOriginal key s).1).isSome = true := by
  unfold Machine.decodePermanentPasswordH1FromStorage at h
  split at h
  · rename_i hpre
    dsimp only at h
    split at h
    · rename_i hdec
      exact ⟨hpre, hdec, h⟩
    · cases h
  · cases h

theorem decodeH1_grows (hg : m.Grows m') {s : Bytes}
    (h : (m.decodePermanentPasswordH1FromStorage key s).isSome = true) :
    (m'.decodePermanentPasswordH1FromStorage key s).isSome = true := by
  obtain ⟨hpre, hdec, hhash⟩ := decodeH1_isSome h
  unfold Machine.decodePermanentPasswordH1FromStorage
  rw [if_pos hpre, decryptPermanent_grows hg hdec]
  dsimp only
  rw [if_pos hdec]
  exact hhash

theorem decodeH1_eq_none {s : Bytes}
    (h : (m.decryptPermanentPasswordStrOrOriginal key s).2.1 = false) :
    m.decodePermanentPasswordH1FromStorage key s = none := by
  by_contra hne
  have hsome := (decodeH1_isSome (Option.isSome_iff_ne_none.mpr hne)).2.1
  rw [h] at hsome
  cases hsome

end Grows

/-! ### Storing and loading -/

/-- A password that survives: no password, the current storage of a hash with its salt, or a
plain text that neither looks encrypted nor decrypts. `last` is the machine at the end. -/
inductive StorablePassword (m last : Machine) (config : Config) : Prop
  | empty : config.password = [] → StorablePassword m last config
  | current : (m.decodePermanentPasswordH1FromStorage key config.password).isSome = true →
      config.salt ≠ "" → StorablePassword m last config
  | plain : Utf8Text.IsText config.password → charCount config.password ≤ encryptMaxLen →
      isEncrypted config.password = false →
      (last.decryptStrOrOriginal key config.password passwordEncVersion).2.1 = false →
      (last.decryptPermanentPasswordStrOrOriginal key config.password).2.1 = false →
      StorablePassword m last config

structure StorableId (config : Config) : Prop where
  text : Utf8Text.IsText config.id
  nonempty : config.id ≠ []
  short : charCount config.id ≤ encryptMaxLen
  plain : isEncrypted config.id = false

section Secrets

variable {key} {m last : Machine} {config : Config}

/-- The text decrypts to the secret. -/
def DecryptsTo (key : Bytes → B.Key) (m : Machine) (s plain : Bytes) : Prop :=
  m.decryptStrOrOriginal key s passwordEncVersion = (plain, true, false)

theorem DecryptsTo.grows {m' : Machine} {s plain : Bytes} (h : DecryptsTo key m s plain)
    (hg : m.Grows m') : DecryptsTo key m' s plain := by
  unfold DecryptsTo at h ⊢
  rw [decryptStrOrOriginal_grows hg (by rw [h]), h]

theorem DecryptsTo.isPrefixOf {s plain : Bytes} (h : DecryptsTo key m s plain) :
    passwordEncVersion.isPrefixOf s = true := by
  unfold DecryptsTo at h
  exact decryptStrOrOriginal_decrypted (m := m) (by rw [h]) |>.1

theorem DecryptsTo.isEmpty {s plain : Bytes} (h : DecryptsTo key m s plain) :
    s.isEmpty = false := by
  have hpre := h.isPrefixOf
  cases s with
  | nil => cases hpre
  | cons a s => rfl

theorem decryptsTo_encrypted {nonce : Vector UInt8 24} {plain : Bytes}
    (htext : Utf8Text.IsText plain) (hne : plain ≠ []) (hlen : charCount plain ≤ encryptMaxLen)
    (henc : isEncrypted plain = false) :
    DecryptsTo key m
      (m.encryptStrOrOriginal key nonce.toList plain passwordEncVersion encryptMaxLen) plain := by
  obtain ⟨chars, rfl⟩ := htext
  unfold DecryptsTo Machine.encryptStrOrOriginal
  rcases encryptOrOriginal_of_le key m nonce.toList hlen henc with ⟨hnil, -⟩ | ⟨-, heq⟩
  · exact absurd hnil hne
  · rw [heq, decryptStrOrOriginal_sealedText symmetricEncrypt_ne_nil
      (symmetricDecrypt_symmetricEncrypt (by simp; rfl)), PeerConfig.fromUtf8Lossy_text]
    rfl

theorem decryptsTo_of_decrypted {s plain : Bytes}
    (h : (m.decryptStrOrOriginal key s passwordEncVersion).2.1 = true)
    (hplain : (m.decryptStrOrOriginal key s passwordEncVersion).1 = plain) :
    DecryptsTo key m s plain := by
  obtain ⟨-, v, hv⟩ := decryptStrOrOriginal_decrypted h
  unfold DecryptsTo
  subst hplain
  unfold Machine.decryptStrOrOriginal at h ⊢
  rw [hv] at h ⊢
  dsimp only at h ⊢
  split
  · rfl
  · rename_i hver
    rw [if_neg hver] at h
    cases h

theorem decryptsTo_kept {nonce : Vector UInt8 24} {plain stored : Bytes}
    (htext : Utf8Text.IsText plain) (hne : plain ≠ []) (hlen : charCount plain ≤ encryptMaxLen)
    (henc : isEncrypted plain = false) :
    DecryptsTo key m
      (m.keepEncryptedStorageIfPlaintextUnchanged key nonce.toList plain stored) plain := by
  unfold Machine.keepEncryptedStorageIfPlaintextUnchanged
  dsimp only
  split
  · rename_i hkeep
    rw [Bool.and_eq_true, beq_iff_eq] at hkeep
    exact decryptsTo_of_decrypted hkeep.1 hkeep.2
  · exact decryptsTo_encrypted htext hne hlen henc

theorem keep_of_decryptsTo {nonce plain stored : Bytes} (h : DecryptsTo key m stored plain) :
    m.keepEncryptedStorageIfPlaintextUnchanged key nonce plain stored = stored := by
  unfold DecryptsTo at h
  unfold Machine.keepEncryptedStorageIfPlaintextUnchanged
  rw [h]
  exact if_pos (by simp)

end Secrets

/-! ### What is on disk -/

/-- A plain password as the code sees it: nothing decrypts it. -/
structure Undecrypted (m : Machine) (password : Bytes) : Prop where
  nonempty : password ≠ []
  plain : isEncrypted password = false
  str : (m.decryptStrOrOriginal key password passwordEncVersion).2.1 = false
  permanent : (m.decryptPermanentPasswordStrOrOriginal key password).2.1 = false

/-- The password in the file that stands for the one in memory. -/
inductive PasswordOnDisk (m last : Machine) (config : Config) (stored : Bytes) : Prop
  | empty : config.password = [] → stored = [] → PasswordOnDisk m last config stored
  | current : (m.decodePermanentPasswordH1FromStorage key config.password).isSome = true →
      config.salt ≠ "" → stored = config.password → PasswordOnDisk m last config stored
  | plain : Undecrypted key last config.password → DecryptsTo key m stored config.password →
      PasswordOnDisk m last config stored

structure OnDisk (m last : Machine) (config file : Config) : Prop where
  salt : file.salt = config.salt
  id : DecryptsTo key m file.encId config.id
  password : PasswordOnDisk key m last config file.password

section OnDisk

variable {key} {m m' last : Machine} {config file : Config}

theorem Undecrypted.before {password : Bytes} (h : Undecrypted key last password)
    (hg : m.Grows last) : Undecrypted key m password :=
  ⟨h.nonempty, h.plain, decryptStrOrOriginal_not_grows hg h.str,
    decryptPermanent_not_grows hg h.permanent⟩

theorem OnDisk.grows (h : OnDisk key m last config file) (hg : m.Grows m') :
    OnDisk key m' last config file where
  salt := h.salt
  id := h.id.grows hg
  password := by
    cases h.password with
    | empty hempty hstored => exact .empty hempty hstored
    | current hsome hsalt hstored => exact .current (decodeH1_grows hg hsome) hsalt hstored
    | plain hplain hdec => exact .plain hplain (hdec.grows hg)

/-! The four ways through the validation of a password. -/

theorem validate_empty (h : config.password = []) :
    config.validateOrDecryptPermanentPasswordStorage key m = .ok config := by
  unfold Config.validateOrDecryptPermanentPasswordStorage
  exact if_pos (by simp [h])

theorem validate_undecrypted (h : Undecrypted key m config.password) :
    config.validateOrDecryptPermanentPasswordStorage key m = .ok config := by
  unfold Config.validateOrDecryptPermanentPasswordStorage
  rw [if_neg (by simpa using h.nonempty)]
  split
  · rw [decryptStrOrOriginal_failed h.str, h.plain]
    simp [h.nonempty]
  · dsimp only
    rw [h.permanent]
    rfl

theorem validate_current
    (h : (m.decodePermanentPasswordH1FromStorage key config.password).isSome = true)
    (hsalt : config.salt ≠ "") :
    config.validateOrDecryptPermanentPasswordStorage key m = .ok config := by
  obtain ⟨hpre, hdec, hhash⟩ := decodeH1_isSome h
  have hne : config.password.isEmpty = false := by
    cases hp : config.password with
    | nil =>
      rw [hp] at hpre
      cases hpre
    | cons a rest => rfl
  have hold : passwordEncVersion.isPrefixOf config.password = false := by
    -- the two versions differ in their second character
    by_contra hold
    rw [Bool.not_eq_false, List.isPrefixOf_iff_prefix] at hold
    rw [List.isPrefixOf_iff_prefix] at hpre
    have heq := (List.prefix_of_prefix_length_le hpre hold (by decide)).eq_of_length rfl
    exact absurd heq (by decide)
  have hensure : config.ensurePermanentPasswordHashSalt = .ok () :=
    if_neg (by simpa [String.isEmpty_iff] using hsalt)
  unfold Config.validateOrDecryptPermanentPasswordStorage
  rw [hne, hold]
  dsimp only
  rw [hdec, hensure]
  dsimp only
  rw [hhash]
  rfl

theorem validate_decryptsTo {plain : Bytes} (h : DecryptsTo key m file.password plain) :
    file.validateOrDecryptPermanentPasswordStorage key m = .ok { file with password := plain } := by
  have hne := h.isEmpty
  have hpre := h.isPrefixOf
  unfold DecryptsTo at h
  unfold Config.validateOrDecryptPermanentPasswordStorage
  rw [hne, hpre, h]
  rfl

theorem validate_storable (h : StorablePassword key m last config) (hg : m.Grows last) :
    config.validateOrDecryptPermanentPasswordStorage key m = .ok config := by
  cases h with
  | empty hempty => exact validate_empty hempty
  | current hsome hsalt => exact validate_current hsome hsalt
  | plain _ _ henc hstr hperm =>
    by_cases hne : config.password = []
    · exact validate_empty hne
    · exact validate_undecrypted (Undecrypted.before ⟨hne, henc, hstr, hperm⟩ hg)

theorem store_eq {nonces : Config.Nonces}
    (h : config.validateOrDecryptPermanentPasswordStorage key m = .ok config) :
    config.store key m nonces file =
      { config with
        password :=
          if !config.password.isEmpty &&
              (m.decodePermanentPasswordH1FromStorage key config.password).isNone then
            m.keepEncryptedStorageIfPlaintextUnchanged key nonces.password.toList config.password
              file.password
          else config.password
        encId :=
          if !(m.decryptStrOrOriginal key config.encId passwordEncVersion).2.1 ||
              (m.decryptStrOrOriginal key config.encId passwordEncVersion).1 != config.id then
            m.encryptStrOrOriginal key nonces.id.toList config.id passwordEncVersion encryptMaxLen
          else config.encId
        id := [] } := by
  have hprepare : config.prepareConfigForStore key m = config := by
    unfold Config.prepareConfigForStore
    rw [h]
  unfold Config.store
  rw [hprepare]

theorem onDisk_store (hpass : StorablePassword key m last config) (hid : StorableId config)
    (hg : m.Grows last) (nonces : Config.Nonces) (stored : Config) :
    OnDisk key m last config (config.store key m nonces stored) := by
  rw [store_eq (validate_storable hpass hg)]
  refine ⟨rfl, ?_, ?_⟩
  · dsimp only
    split
    · exact decryptsTo_encrypted hid.text hid.nonempty hid.short hid.plain
    · rename_i hkeep
      rw [Bool.or_eq_true, not_or, Bool.not_eq_true, Bool.not_eq_false', bne_iff_ne, not_not]
        at hkeep
      exact decryptsTo_of_decrypted hkeep.1 hkeep.2
  · dsimp only
    cases hpass with
    | empty hempty =>
      refine .empty hempty ?_
      rw [hempty]
      rfl
    | current hsome hsalt =>
      refine .current hsome hsalt (if_neg ?_)
      rw [Option.isNone_eq_false_iff.mpr hsome, Bool.and_false]
      exact Bool.false_ne_true
    | plain htext hlen henc hstr hperm =>
      by_cases hne : config.password = []
      · refine .empty hne ?_
        rw [hne]
        rfl
      · have hplain : Undecrypted key last config.password := ⟨hne, henc, hstr, hperm⟩
        refine .plain hplain ?_
        rw [decodeH1_eq_none (hplain.before hg).permanent, if_pos (by simp [hne])]
        exact decryptsTo_kept htext hne hlen henc

/-- Loading what is on disk gives the secrets of the configuration and writes nothing. -/
theorem load_onDisk (h : OnDisk key m last config file) (nonces : Config.Nonces)
    (genId : Fin 3 → Option Bytes) :
    file.load key m nonces genId =
      ({ file with password := config.password, id := config.id }, file) := by
  have hvalidate : file.validateOrDecryptPermanentPasswordStorage key m =
      .ok { file with password := config.password } := by
    cases h.password with
    | empty hempty hstored =>
      rw [validate_empty hstored, hempty, ← hstored]
    | current hsome hsalt hstored =>
      rw [validate_current (hstored ▸ hsome) (h.salt ▸ hsalt), ← hstored]
    | plain _ hdec => exact validate_decryptsTo hdec
  have hid := h.id
  unfold DecryptsTo at hid
  unfold Config.load
  rw [hvalidate]
  dsimp only
  rw [hid]
  rfl

/-- Storing the loaded configuration writes the secrets that are there. -/
theorem store_loaded (h : OnDisk key m last config file) (hg : m.Grows last)
    (nonces : Config.Nonces) :
    Config.store key m nonces { file with password := config.password, id := config.id } file =
      { file with id := [] } := by
  have hid := h.id
  unfold DecryptsTo at hid
  have hvalidate : Config.validateOrDecryptPermanentPasswordStorage key m
      { file with password := config.password, id := config.id } =
        .ok { file with password := config.password, id := config.id } := by
    cases h.password with
    | empty hempty _ => exact validate_empty hempty
    | current hsome hsalt _ => exact validate_current hsome (h.salt ▸ hsalt)
    | plain hplain _ => exact validate_undecrypted (hplain.before hg)
  rw [store_eq hvalidate]
  dsimp only
  rw [hid, if_neg (by simp)]
  cases h.password with
  | empty hempty hstored =>
    rw [hempty, hstored]
    rfl
  | current hsome _ hstored =>
    rw [Option.isNone_eq_false_iff.mpr hsome, Bool.and_false, if_neg Bool.false_ne_true, ← hstored]
  | plain hplain hdec =>
    rw [decodeH1_eq_none (hplain.before hg).permanent, if_pos (by simp [hplain.nonempty]),
      keep_of_decryptsTo hdec]

end OnDisk

/-- A configuration whose secrets can be stored comes back with the password, the salt and the
id it had, loading writes nothing, and storing it once more leaves both secrets on disk as they
are. The key pair may become known between the steps. -/
theorem config_store_load (key : Bytes → B.Key) (m₀ m₁ m₂ : Machine) (config stored : Config)
    (nonces₀ nonces₁ nonces₂ : Config.Nonces) (genId : Fin 3 → Option Bytes) (h₁ : m₀.Grows m₁)
    (h₂ : m₁.Grows m₂) (hpass : StorablePassword key m₀ m₂ config) (hid : StorableId config) :
    let file := config.store key m₀ nonces₀ stored
    let loaded := file.load key m₁ nonces₁ genId
    let again := loaded.1.store key m₂ nonces₂ loaded.2
    loaded.1.password = config.password ∧ loaded.1.salt = config.salt ∧ loaded.1.id = config.id ∧
      loaded.2 = file ∧ again.password = file.password ∧ again.encId = file.encId := by
  intro file loaded again
  have hdisk : OnDisk key m₀ m₂ config file := onDisk_store hpass hid (h₁.trans h₂) nonces₀ stored
  have hload : loaded = ({ file with password := config.password, id := config.id }, file) :=
    load_onDisk (hdisk.grows h₁) nonces₁ genId
  have hagain : again = { file with id := [] } := by
    change loaded.1.store key m₂ nonces₂ loaded.2 = _
    rw [hload]
    exact store_loaded (hdisk.grows (h₁.trans h₂)) (.refl m₂) nonces₂
  rw [hload, hagain]
  exact ⟨rfl, hdisk.salt, rfl, rfl, rfl, rfl⟩

/-- A password that starts like an encrypted one. -/
def zerosConfig : Config :=
  { id := strBytes "123456789", password := strBytes "00pass", salt := "s" }

/-- The id is not on disk in the form it was encrypted in, and the machine learns its key pair
after the first store. -/
theorem config_store_load_zeros :
    let nonces : Config.Nonces := ⟨someNonce, someNonce⟩
    let file := zerosConfig.store bytesKey { uuid := [7] } nonces { encId := strBytes "00old" }
    let loaded := file.load bytesKey { uuid := [7], pk := some [8] } nonces fun _ => none
    let again := loaded.1.store bytesKey { uuid := [7], pk := some [8] } nonces loaded.2
    loaded.1.password = zerosConfig.password ∧ loaded.1.salt = zerosConfig.salt ∧
      loaded.1.id = zerosConfig.id ∧ loaded.2 = file ∧
      again.password = file.password ∧ again.encId = file.encId := by
  have hpass : StorablePassword bytesKey { uuid := [7] } { uuid := [7], pk := some [8] }
      zerosConfig := by
    refine .plain ⟨"00pass".toList, strBytes_eq_text "00pass"⟩ ?_ ?_ ?_ ?_
    all_goals decide +kernel
  have hid : StorableId zerosConfig := by
    refine ⟨⟨"123456789".toList, strBytes_eq_text "123456789"⟩, ?_, ?_, ?_⟩
    all_goals decide +kernel
  exact config_store_load bytesKey { uuid := [7] } { uuid := [7], pk := some [8] }
    { uuid := [7], pk := some [8] } zerosConfig { encId := strBytes "00old" }
    ⟨someNonce, someNonce⟩ ⟨someNonce, someNonce⟩ ⟨someNonce, someNonce⟩ (fun _ => none)
    ⟨rfl, rfl, .inl rfl⟩ (.refl _) hpass hid

end RustDesk.PermanentPassword
