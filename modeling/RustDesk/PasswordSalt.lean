import RustDesk.ConfigStore
import RustDesk.History

/-!
# The salt of the permanent password

The permanent password is stored as a hash over the password and a salt, and clients prove
that they know it with the salt the machine gives them. Four calls write the two: a new
password is hashed with the salt there is, or with a new one; a salt alone can be set only
while no hash depends on the old one; a service hands both to its user together.
-/

namespace RustDesk.PermanentPassword

open History

variable {B : SecretBox} (key : Bytes → B.Key)

def chars : List Char :=
  ['2', '3', '4', '5', '6', '7', '8', '9', 'a', 'b', 'c', 'd', 'e', 'f', 'g', 'h', 'i', 'j', 'k',
    'm', 'n', 'p', 'q', 'r', 's', 't', 'u', 'v', 'w', 'x', 'y', 'z']

def defaultSaltLen : Nat := 32

/-- The draws are those of the random generator. -/
def getAutoPassword {n : Nat} (draws : Fin n → Nat) : String :=
  String.ofList ((List.ofFn draws).map fun draw => chars.getD (draw % chars.length) '2')

def computePermanentPasswordH1 (sha256 : Bytes → Vector UInt8 32) (password salt : String) :
    Vector UInt8 32 :=
  sha256 (strBytes password ++ strBytes salt)

def presetPermanentPasswordStorageMatchesPlain (sha256 : Bytes → Vector UInt8 32)
    (storage : Bytes) (salt input : String) : Bool :=
  if storage.isEmpty || input.isEmpty then false
  else if salt.isEmpty then storage == strBytes input
  else match decodePresetPasswordH1FromStorage storage with
    | none => false
    | some storedH1 => (computePermanentPasswordH1 sha256 input salt).toList == storedH1

/-- A storage with the current prefix is bound to its salt even if it is no hash. -/
def Machine.passwordIsEmptyOrNotHashed (m : Machine) (storage : Bytes) : Bool :=
  if storage.isEmpty then true
  else if (m.decodePermanentPasswordH1FromStorage key storage).isSome then false
  else if permanentPasswordEncVersion.isPrefixOf storage then false
  else
    let (_, decrypted, looksLikePlaintext) := m.decryptStrOrOriginal key storage passwordEncVersion
    decrypted || looksLikePlaintext

/-! ### The calls -/

/-- What the calls read besides the configuration. -/
structure Settings where
  disableChangePermanentPassword : Bool := false
  presetStorage : Bytes := []
  presetSalt : String := ""
  deriving DecidableEq, Repr

/-- What one call draws at random. -/
structure Draws where
  salt : Fin defaultSaltLen → Nat
  h1 : Vector UInt8 24
  store : Config.Nonces

/-- The configuration, its file, and the devices that need no second factor. -/
structure PasswordStore where
  config : Config := {}
  file : Config := {}
  trustedDevices : List TrustedDevice := []

namespace Config

def ensurePermanentPasswordSalt (draws : Draws) (config : Config) : Config :=
  if config.salt.isEmpty then { config with salt := getAutoPassword draws.salt } else config

def computePermanentPasswordStorageForUpdate (m : Machine) (sha256 : Bytes → Vector UInt8 32)
    (draws : Draws) (password : String) (config : Config) : Config × Option Bytes :=
  let config := config.ensurePermanentPasswordSalt draws
  let h1 := computePermanentPasswordH1 sha256 password config.salt
  (config, m.encodePermanentPasswordEncryptedStorageFromH1 key draws.h1.toList h1.toList)

def applyPermanentPasswordStorageForSync (m : Machine) (storage : Bytes) (salt : String)
    (config : Config) : Config × Except String Bool :=
  if storage.isEmpty then
    if config.password.isEmpty && (salt.isEmpty || config.salt == salt) then (config, .ok false)
    else
      let config := { config with password := [] }
      (if salt.isEmpty then config else { config with salt := salt }, .ok true)
  else if salt.isEmpty then
    (config, .error "Refusing to persist permanent password storage without salt")
  else if (m.decodePermanentPasswordH1FromStorage key storage).isNone then
    (config, .error "Invalid permanent password storage sync payload")
  else if config.password = storage ∧ config.salt = salt then (config, .ok false)
  else ({ config with password := storage, salt := salt }, .ok true)

end Config

namespace PasswordStore

/-- `config.store()` -/
def storeConfig (m : Machine) (draws : Draws) (config : Config) (s : PasswordStore) :
    PasswordStore :=
  { s with config, file := config.store key m draws.store s.file }

def clearTrustedDevices (s : PasswordStore) : PasswordStore := { s with trustedDevices := [] }

def setPermanentPassword (m : Machine) (sha256 : Bytes → Vector UInt8 32) (settings : Settings)
    (draws : Draws) (password : String) (s : PasswordStore) : PasswordStore × Bool :=
  if settings.disableChangePermanentPassword then (s, false)
  else if presetPermanentPasswordStorageMatchesPlain sha256 settings.presetStorage
      settings.presetSalt password && s.config.password.isEmpty then (s, true)
  else
    let (config, stored) :=
      if password.isEmpty then (s.config, some [])
      else s.config.computePermanentPasswordStorageForUpdate key m sha256 draws password
    match stored with
    | none => ({ s with config }, false)
    | some stored =>
      if stored = config.password then ({ s with config }, true)
      else
        ((s.storeConfig key m draws { config with password := stored }).clearTrustedDevices, true)

def setPermanentPasswordStorageForSync (m : Machine) (draws : Draws) (storage : Bytes)
    (salt : String) (s : PasswordStore) : PasswordStore × Except String Bool :=
  match s.config.applyPermanentPasswordStorageForSync key m storage salt with
  | (config, .error e) => ({ s with config }, .error e)
  | (config, .ok false) => ({ s with config }, .ok false)
  | (config, .ok true) => ((s.storeConfig key m draws config).clearTrustedDevices, .ok true)

/-- A salt that a hash depends on is not replaced. -/
def setSalt (m : Machine) (draws : Draws) (salt : String) (s : PasswordStore) : PasswordStore :=
  if salt = s.config.salt then s
  else if !m.passwordIsEmptyOrNotHashed key s.config.password && !s.config.salt.isEmpty then s
  else s.storeConfig key m draws { s.config with salt := salt }

def getSalt (m : Machine) (draws : Draws) (s : PasswordStore) : PasswordStore × String :=
  if s.config.salt.isEmpty then
    let salt := getAutoPassword draws.salt
    (s.setSalt key m draws salt, salt)
  else (s, s.config.salt)

def getEffectivePermanentPasswordSalt (m : Machine) (settings : Settings) (draws : Draws)
    (s : PasswordStore) : PasswordStore × String :=
  if !s.config.password.isEmpty then
    if m.localPermanentPasswordStorageIsUsableForAuth key s.config.password s.config.salt then
      s.getSalt key m draws
    else (s, "")
  else if !settings.presetSalt.isEmpty then
    if presetPermanentPasswordStorageIsUsableForAuth settings.presetStorage settings.presetSalt then
      (s, settings.presetSalt)
    else (s, "")
  else s.getSalt key m draws

end PasswordStore

/-! ### Runs -/

/-- What a service exports: the storage, the salt, and the password they are for. -/
structure SyncPayload where
  storage : Bytes
  salt : String
  last : Option String

inductive PasswordCall
  | setPermanentPassword (settings : Settings) (password : String)
  | setSalt (salt : String)
  | getSalt
  | setPermanentPasswordStorageForSync (payload : SyncPayload)

/-- `last` is the password that was last set or synchronised. -/
structure PasswordRun where
  store : PasswordStore := {}
  last : Option String := none

namespace PasswordRun

def step (m : Machine) (sha256 : Bytes → Vector UInt8 32) (r : PasswordRun) :
    PasswordCall × Draws → PasswordRun
  | (.setPermanentPassword settings password, draws) =>
    match r.store.setPermanentPassword key m sha256 settings draws password with
    | (store, true) => ⟨store, some password⟩
    | (store, false) => { r with store }
  | (.setSalt salt, draws) => { r with store := r.store.setSalt key m draws salt }
  | (.getSalt, draws) => { r with store := (r.store.getSalt key m draws).1 }
  | (.setPermanentPasswordStorageForSync payload, draws) =>
    match r.store.setPermanentPasswordStorageForSync key m draws payload.storage payload.salt with
    | (store, .ok _) => ⟨store, payload.last⟩
    | (store, .error _) => { r with store }

end PasswordRun

/-- The stored hash is that of the last password and the stored salt. -/
def Bound (m : Machine) (sha256 : Bytes → Vector UInt8 32) (storage : Bytes) (salt : String)
    (last : Option String) : Prop :=
  ∀ h1, m.decodePermanentPasswordH1FromStorage key storage = some h1 →
    salt ≠ "" ∧ ∃ p, last = some p ∧ h1 = (computePermanentPasswordH1 sha256 p salt).toList

/-- The payload of another instance, which this machine reads as the other one does. -/
def Exported (m : Machine) (sha256 : Bytes → Vector UInt8 32) (payload : SyncPayload) : Prop :=
  ∃ other : Machine, Bound key other sha256 payload.storage payload.salt payload.last ∧
    m.decodePermanentPasswordH1FromStorage key payload.storage =
      other.decodePermanentPasswordH1FromStorage key payload.storage

def PasswordCall.Exported (m : Machine) (sha256 : Bytes → Vector UInt8 32) : PasswordCall → Prop
  | .setPermanentPasswordStorageForSync payload =>
    PermanentPassword.Exported key m sha256 payload
  | _ => True

/-! ### What each call does -/

section Calls

variable {key} {m : Machine} {sha256 : Bytes → Vector UInt8 32}

theorem isEmpty_eq_false_iff {text : String} : text.isEmpty = false ↔ text ≠ "" := by
  rw [← Bool.not_eq_true, String.isEmpty_iff]

theorem getAutoPassword_ne_empty (draws : Fin defaultSaltLen → Nat) :
    getAutoPassword draws ≠ "" := by
  intro h
  have hlen : (getAutoPassword draws).length = defaultSaltLen := by
    unfold getAutoPassword
    simp
  rw [h] at hlen
  exact absurd hlen (by decide)

theorem ensurePermanentPasswordSalt_spec (draws : Draws) (config : Config) :
    (config.ensurePermanentPasswordSalt draws).salt ≠ "" ∧
      (config.ensurePermanentPasswordSalt draws).password = config.password := by
  unfold Config.ensurePermanentPasswordSalt
  split
  · exact ⟨getAutoPassword_ne_empty draws.salt, rfl⟩
  · rename_i hne
    rw [Bool.not_eq_true, isEmpty_eq_false_iff] at hne
    exact ⟨hne, rfl⟩

/-- The storage of a hash is always made, and the machine that made it reads it. -/
theorem encodeEncrypted_decode (key : Bytes → B.Key) (m : Machine)
    (nonce : Vector UInt8 24) (h1 : Vector UInt8 32) :
    ∃ storage,
      m.encodePermanentPasswordEncryptedStorageFromH1 key nonce.toList h1.toList = some storage ∧
        storage ≠ [] ∧ m.decodePermanentPasswordH1FromStorage key storage = some h1.toList := by
  have hlen : h1.toList.length = permanentPasswordH1Len := by
    simp
    rfl
  have hsome : ∃ storage,
      m.encodePermanentPasswordEncryptedStorageFromH1 key nonce.toList h1.toList = some storage := by
    have hle : charCount (encodePermanentPasswordStorageFromH1 h1.toList) ≤
        (encodePermanentPasswordStorageFromH1 h1.toList).length := List.countP_le_length
    unfold encodePermanentPasswordStorageFromH1 at hle
    rw [List.length_append, Base64.length_encode, hlen] at hle
    exact ⟨_, if_neg (Nat.not_lt.mpr (Nat.le_trans hle (by decide)))⟩
  obtain ⟨storage, hstorage⟩ := hsome
  have heq := encodeEncryptedStorage_eq hlen hstorage
  have hpre : permanentPasswordEncVersion.isPrefixOf storage = true := by
    rw [heq]
    simp
  refine ⟨storage, hstorage, ?_, ?_⟩
  · rintro rfl
    cases hpre
  · unfold Machine.decodePermanentPasswordH1FromStorage
    rw [if_pos hpre, decryptPermanent_storage heq,
      symmetricDecrypt_symmetricEncrypt (by simp; rfl)]
    exact decode_encodePermanentPasswordStorageFromH1 hlen

theorem decode_nil : m.decodePermanentPasswordH1FromStorage key [] = none := rfl

variable {draws : Draws} {s : PasswordStore}

/-- A new password is refused, is the preset one, is cleared, or is stored as a hash. -/
theorem setPermanentPassword_cases (key : Bytes → B.Key) (m : Machine)
    (sha256 : Bytes → Vector UInt8 32) (settings : Settings) (draws : Draws) (password : String)
    (s : PasswordStore) :
    s.setPermanentPassword key m sha256 settings draws password = (s, false) ∨
      s.setPermanentPassword key m sha256 settings draws password = (s, true) ∧
        s.config.password = [] ∧ settings.presetStorage ≠ [] ∨
      (s.setPermanentPassword key m sha256 settings draws password).2 = true ∧ password = "" ∧
        (s.setPermanentPassword key m sha256 settings draws password).1.config.password = [] ∨
      (s.setPermanentPassword key m sha256 settings draws password).2 = true ∧ password ≠ "" ∧
        ∃ config, (s.setPermanentPassword key m sha256 settings draws password).1.config = config ∧
          config.salt ≠ "" ∧ m.decodePermanentPasswordH1FromStorage key config.password =
            some (computePermanentPasswordH1 sha256 password config.salt).toList := by
  unfold PasswordStore.setPermanentPassword
  by_cases hdisabled : settings.disableChangePermanentPassword = true
  · exact .inl (if_pos hdisabled)
  · rw [if_neg hdisabled]
    by_cases hpreset : (presetPermanentPasswordStorageMatchesPlain sha256 settings.presetStorage
        settings.presetSalt password && s.config.password.isEmpty) = true
    · rw [if_pos hpreset]
      rw [Bool.and_eq_true, List.isEmpty_iff] at hpreset
      refine .inr (.inl ⟨rfl, hpreset.2, fun hnil => ?_⟩)
      rw [hnil] at hpreset
      exact absurd hpreset.1 Bool.false_ne_true
    · rw [if_neg hpreset]
      refine .inr (.inr ?_)
      by_cases hempty : password = ""
      · left
        subst hempty
        dsimp only
        rw [if_pos (show ("" : String).isEmpty = true by rfl)]
        dsimp only
        split
        · rename_i heq
          exact ⟨rfl, rfl, heq.symm⟩
        · exact ⟨rfl, rfl, rfl⟩
      · right
        obtain ⟨hsalt, -⟩ := ensurePermanentPasswordSalt_spec draws s.config
        obtain ⟨storage, hstorage, -, hdecode⟩ := encodeEncrypted_decode key m
          draws.h1 (computePermanentPasswordH1 sha256 password
            (s.config.ensurePermanentPasswordSalt draws).salt)
        rw [if_neg (by simpa [String.isEmpty_iff] using hempty)]
        unfold Config.computePermanentPasswordStorageForUpdate
        dsimp only
        rw [hstorage]
        dsimp only
        split
        · rename_i heq
          refine ⟨rfl, hempty, _, rfl, hsalt, ?_⟩
          rw [← heq]
          exact hdecode
        · exact ⟨rfl, hempty, _, rfl, hsalt, hdecode⟩

/-- A payload is refused, or its storage is the stored one afterwards, or there is none. -/
theorem sync_cases (key : Bytes → B.Key) (m : Machine) (draws : Draws) (storage : Bytes)
    (salt : String) (s : PasswordStore) :
    (∃ e, s.setPermanentPasswordStorageForSync key m draws storage salt = (s, .error e)) ∨
      (∃ b, (s.setPermanentPasswordStorageForSync key m draws storage salt).2 = .ok b) ∧
        ((s.setPermanentPasswordStorageForSync key m draws storage salt).1.config.password = [] ∨
          (s.setPermanentPasswordStorageForSync key m draws storage salt).1.config.password =
              storage ∧
            (s.setPermanentPasswordStorageForSync key m draws storage salt).1.config.salt = salt ∧
            (m.decodePermanentPasswordH1FromStorage key storage).isSome = true) := by
  unfold PasswordStore.setPermanentPasswordStorageForSync
    Config.applyPermanentPasswordStorageForSync
  by_cases hstorage : storage.isEmpty = true
  · rw [if_pos hstorage]
    by_cases hsame : (s.config.password.isEmpty && (salt.isEmpty || s.config.salt == salt)) = true
    · rw [if_pos hsame]
      rw [Bool.and_eq_true, List.isEmpty_iff] at hsame
      exact .inr ⟨⟨false, rfl⟩, .inl hsame.1⟩
    · rw [if_neg hsame]
      refine .inr ⟨⟨true, rfl⟩, .inl ?_⟩
      dsimp only
      split <;> rfl
  · rw [if_neg hstorage]
    by_cases hsalt : salt.isEmpty = true
    · rw [if_pos hsalt]
      exact .inl ⟨_, rfl⟩
    · rw [if_neg hsalt]
      by_cases hnone : (m.decodePermanentPasswordH1FromStorage key storage).isNone = true
      · rw [if_pos hnone]
        exact .inl ⟨_, rfl⟩
      · rw [if_neg hnone]
        have hsome : (m.decodePermanentPasswordH1FromStorage key storage).isSome = true := by
          rwa [Bool.not_eq_true, Option.isNone_eq_false_iff] at hnone
        by_cases hsame : s.config.password = storage ∧ s.config.salt = salt
        · rw [if_pos hsame]
          exact .inr ⟨⟨false, rfl⟩, .inr ⟨hsame.1, hsame.2, hsome⟩⟩
        · rw [if_neg hsame]
          exact .inr ⟨⟨true, rfl⟩, .inr ⟨rfl, rfl, hsome⟩⟩

theorem passwordIsEmptyOrNotHashed_of_isSome {storage : Bytes}
    (h : (m.decodePermanentPasswordH1FromStorage key storage).isSome = true) :
    m.passwordIsEmptyOrNotHashed key storage = false := by
  have hne : ¬ storage.isEmpty = true := by
    intro hempty
    rw [List.isEmpty_iff.mp hempty] at h
    cases h
  unfold Machine.passwordIsEmptyOrNotHashed
  rw [if_neg hne, if_pos h]

theorem setSalt_of_refused {salt : String}
    (hhashed : m.passwordIsEmptyOrNotHashed key s.config.password = false)
    (hsalt : s.config.salt ≠ "") : s.setSalt key m draws salt = s := by
  unfold PasswordStore.setSalt
  rw [hhashed, isEmpty_eq_false_iff.mpr hsalt]
  split <;> rfl

theorem setSalt_password (salt : String) :
    (s.setSalt key m draws salt).config.password = s.config.password := by
  unfold PasswordStore.setSalt
  split
  · rfl
  · split <;> rfl

theorem getSalt_password : (s.getSalt key m draws).1.config.password = s.config.password := by
  unfold PasswordStore.getSalt
  split
  · exact setSalt_password _
  · rfl

theorem getSalt_of_salt (hsalt : s.config.salt ≠ "") :
    s.getSalt key m draws = (s, s.config.salt) := by
  unfold PasswordStore.getSalt
  rw [isEmpty_eq_false_iff.mpr hsalt]
  rfl

end Calls

/-! ### The invariant -/

/-- No password is stored, or a hash of the last password with the salt. -/
def PasswordRun.Paired (m : Machine) (sha256 : Bytes → Vector UInt8 32) (r : PasswordRun) : Prop :=
  r.store.config.password = [] ∨
    ∃ p, r.last = some p ∧ r.store.config.salt ≠ "" ∧
      m.decodePermanentPasswordH1FromStorage key r.store.config.password =
        some (computePermanentPasswordH1 sha256 p r.store.config.salt).toList

section Invariant

variable {key} {m : Machine} {sha256 : Bytes → Vector UInt8 32} {r : PasswordRun}

theorem bound_of_paired (h : r.Paired key m sha256) :
    Bound key m sha256 r.store.config.password r.store.config.salt r.last := by
  intro h1 hdecode
  rcases h with hempty | ⟨p, hlast, hsalt, hpaired⟩
  · rw [hempty, decode_nil] at hdecode
    cases hdecode
  · exact ⟨hsalt, p, hlast, Option.some.inj (hdecode.symm.trans hpaired)⟩

theorem paired_setPermanentPassword {settings : Settings} {draws : Draws} {password : String}
    (h : r.Paired key m sha256) :
    (r.step key m sha256 (.setPermanentPassword settings password, draws)).Paired key m sha256 := by
  unfold PasswordRun.step
  dsimp only
  rcases setPermanentPassword_cases key m sha256 settings draws password r.store with
    heq | ⟨heq, hempty, -⟩ | ⟨htrue, -, hempty⟩ | ⟨htrue, -, config, hconfig, hsalt, hdecode⟩
  · rw [heq]
    exact h
  · rw [heq]
    exact .inl hempty
  · cases hset : r.store.setPermanentPassword key m sha256 settings draws password with
    | mk store result =>
      rw [hset] at htrue hempty
      subst htrue
      exact .inl hempty
  · cases hset : r.store.setPermanentPassword key m sha256 settings draws password with
    | mk store result =>
      rw [hset] at htrue hconfig
      subst htrue
      subst hconfig
      exact .inr ⟨password, rfl, hsalt, hdecode⟩

theorem paired_setSalt {salt : String} {draws : Draws} (h : r.Paired key m sha256) :
    PasswordRun.Paired key m sha256 { r with store := r.store.setSalt key m draws salt } := by
  rcases h with hempty | ⟨p, hlast, hsalt, hdecode⟩
  · exact .inl ((setSalt_password salt).trans hempty)
  · rw [setSalt_of_refused (passwordIsEmptyOrNotHashed_of_isSome (by rw [hdecode]; rfl)) hsalt]
    exact .inr ⟨p, hlast, hsalt, hdecode⟩

theorem paired_getSalt {draws : Draws} (h : r.Paired key m sha256) :
    PasswordRun.Paired key m sha256 { r with store := (r.store.getSalt key m draws).1 } := by
  rcases h with hempty | ⟨p, hlast, hsalt, hdecode⟩
  · exact .inl (getSalt_password.trans hempty)
  · rw [getSalt_of_salt hsalt]
    exact .inr ⟨p, hlast, hsalt, hdecode⟩

theorem paired_sync {payload : SyncPayload} {draws : Draws} (h : r.Paired key m sha256)
    (hexported : Exported key m sha256 payload) :
    (r.step key m sha256 (.setPermanentPasswordStorageForSync payload, draws)).Paired key m
      sha256 := by
  obtain ⟨other, hbound, hsame⟩ := hexported
  unfold PasswordRun.step
  dsimp only
  rcases sync_cases key m draws payload.storage payload.salt r.store with
    ⟨e, heq⟩ | ⟨⟨b, hok⟩, hempty | ⟨hstorage, hsalt, hsome⟩⟩
  · rw [heq]
    exact h
  · cases hset : r.store.setPermanentPasswordStorageForSync key m draws payload.storage
        payload.salt with
    | mk store result =>
      rw [hset] at hok hempty
      subst hok
      exact .inl hempty
  · cases hset : r.store.setPermanentPasswordStorageForSync key m draws payload.storage
        payload.salt with
    | mk store result =>
      rw [hset] at hok hstorage hsalt
      subst hok
      obtain ⟨h1, hh1⟩ := Option.isSome_iff_exists.mp hsome
      obtain ⟨hne, p, hlast, rfl⟩ := hbound h1 (hsame.symm.trans hh1)
      refine .inr ⟨p, hlast, ?_, ?_⟩
      · dsimp only at hsalt ⊢
        rw [hsalt]
        exact hne
      · dsimp only at hstorage hsalt ⊢
        rw [hstorage, hsalt]
        exact hh1

theorem paired_step {call : PasswordCall × Draws} (hcall : call.1.Exported key m sha256)
    (h : r.Paired key m sha256) : (r.step key m sha256 call).Paired key m sha256 := by
  obtain ⟨call, draws⟩ := call
  cases call with
  | setPermanentPassword settings password => exact paired_setPermanentPassword h
  | setSalt salt => exact paired_setSalt h
  | getSalt => exact paired_getSalt h
  | setPermanentPasswordStorageForSync payload => exact paired_sync h hcall

theorem paired_run (calls : List (PasswordCall × Draws))
    (hcalls : ∀ call ∈ calls, call.1.Exported key m sha256) (h : r.Paired key m sha256) :
    (run (PasswordRun.step key m sha256) r calls).Paired key m sha256 := by
  induction calls generalizing r with
  | nil => exact h
  | cons call calls ih =>
    exact ih (fun c hc => hcalls c (List.mem_cons_of_mem call hc))
      (paired_step (hcalls call List.mem_cons_self) h)

theorem getEffectivePermanentPasswordSalt_of_hash {s : PasswordStore} {h1 : Bytes}
    (hdecode : m.decodePermanentPasswordH1FromStorage key s.config.password = some h1)
    (hsalt : s.config.salt ≠ "") (settings : Settings) (draws : Draws) :
    s.getEffectivePermanentPasswordSalt key m settings draws = (s, s.config.salt) := by
  have hne : s.config.password.isEmpty = false := by
    rw [List.isEmpty_eq_false_iff]
    intro hnil
    rw [hnil, decode_nil] at hdecode
    cases hdecode
  have husable : m.localPermanentPasswordStorageIsUsableForAuth key s.config.password
      s.config.salt = true := by
    unfold Machine.localPermanentPasswordStorageIsUsableForAuth
    rw [hne, hdecode, isEmpty_eq_false_iff.mpr hsalt]
    rfl
  unfold PasswordStore.getEffectivePermanentPasswordSalt
  rw [hne, husable]
  exact getSalt_of_salt hsalt

/-- A storage that holds a hash accepts the login proof for that hash. -/
theorem validatePasswordStorage_of_hash {e : Env} {c : Connection} {storage : String} {h1 : Bytes}
    (hdecode : m.decodePermanentPasswordH1FromStorage key (strBytes storage) = some h1)
    (hproof : c.lr.password = e.sha256 (h1 ++ strBytes c.hash.challenge)) :
    c.validatePasswordStorage (m.env key e) storage = true := by
  have hne : storage.isEmpty = false := by
    refine isEmpty_of_strBytes fun hnil => ?_
    rw [hnil, decode_nil] at hdecode
    cases hdecode
  have hread : (m.env key e).decodePermanentPasswordH1 storage = some h1 := hdecode
  unfold Connection.validatePasswordStorage
  rw [hne, hread]
  dsimp only
  unfold Connection.verifyH1
  rw [hproof]
  exact beq_self_eq_true _

end Invariant

/-- In every run of the calls the stored hash is that of the last password and of the stored
salt. A call that fails or refuses changes nothing. A password that was accepted, with no
preset one, is accepted as a login proof with the salt that clients are then given. -/
theorem permanent_password_salt_bound (key : Bytes → B.Key) (m : Machine)
    (sha256 : Bytes → Vector UInt8 32) (calls : List (PasswordCall × Draws))
    (hcalls : ∀ call ∈ calls, call.1.Exported key m sha256) (r : PasswordRun)
    (hr : r = run (PasswordRun.step key m sha256) {} calls) :
    Bound key m sha256 r.store.config.password r.store.config.salt r.last ∧
      (∀ settings draws p,
        (r.store.setPermanentPassword key m sha256 settings draws p).2 = false →
          (r.store.setPermanentPassword key m sha256 settings draws p).1 = r.store) ∧
      (∀ draws storage salt e,
        (r.store.setPermanentPasswordStorageForSync key m draws storage salt).2 = .error e →
          (r.store.setPermanentPasswordStorageForSync key m draws storage salt).1 = r.store) ∧
      (∀ draws salt, m.passwordIsEmptyOrNotHashed key r.store.config.password = false →
        r.store.config.salt ≠ "" → r.store.setSalt key m draws salt = r.store) ∧
      ∀ settings settings' draws draws' p, p ≠ "" → settings.presetStorage = [] →
        (r.store.setPermanentPassword key m sha256 settings draws p).2 = true →
        let s := (r.store.setPermanentPassword key m sha256 settings draws p).1
        let salt := (s.getEffectivePermanentPasswordSalt key m settings' draws').2
        ∀ (e : Env) (c : Connection) (storage : String), strBytes storage = s.config.password →
          e.sha256 = (fun bytes => (sha256 bytes).toList) →
          c.lr.password = e.sha256 (e.sha256 (strBytes p ++ strBytes salt) ++
            strBytes c.hash.challenge) →
          c.validatePasswordStorage (m.env key e) storage = true := by
  have hpaired : r.Paired key m sha256 := hr ▸ paired_run calls hcalls (.inl rfl)
  refine ⟨bound_of_paired hpaired, ?_, ?_, ?_, ?_⟩
  · intro settings draws p hfalse
    rcases setPermanentPassword_cases key m sha256 settings draws p r.store with
      heq | ⟨heq, -, -⟩ | ⟨htrue, -, -⟩ | ⟨htrue, -, -⟩
    · rw [heq]
    · rw [heq]
    · rw [htrue] at hfalse
      cases hfalse
    · rw [htrue] at hfalse
      cases hfalse
  · intro draws storage salt e herror
    rcases sync_cases key m draws storage salt r.store with ⟨e', heq⟩ | ⟨⟨b, hok⟩, -⟩
    · rw [heq]
    · rw [hok] at herror
      cases herror
  · intro draws salt hhashed hsalt
    exact setSalt_of_refused hhashed hsalt
  · intro settings settings' draws draws' p hp hpreset htrue s salt e c storage hstorage hsha hproof
    rcases setPermanentPassword_cases key m sha256 settings draws p r.store with
      heq | ⟨-, -, hne⟩ | ⟨-, hempty, -⟩ | ⟨-, -, config, hconfig, hsalt, hdecode⟩
    · rw [heq] at htrue
      cases htrue
    · exact absurd hpreset hne
    · exact absurd hempty hp
    · subst hconfig
      have heffective : salt = s.config.salt :=
        congrArg Prod.snd (getEffectivePermanentPasswordSalt_of_hash hdecode hsalt settings' draws')
      have hread : m.decodePermanentPasswordH1FromStorage key (strBytes storage) =
          some (e.sha256 (strBytes p ++ strBytes salt)) := by
        rw [hstorage, heffective, hsha]
        exact hdecode
      exact validatePasswordStorage_of_hash hread hproof

/-- A hash that keeps the first bytes. -/
def firstBytes (bytes : Bytes) : Vector UInt8 32 := Vector.ofFn fun i => bytes.getD i 0

def someDraws : Draws := ⟨fun i => i, someNonce, ⟨someNonce, someNonce⟩⟩

/-- What an instance on the machine with the uuid `[7]` exports. -/
def exportedPayload : SyncPayload where
  storage := (Machine.encodePermanentPasswordEncryptedStorageFromH1 bytesKey { uuid := [7] }
    someNonce.toList (computePermanentPasswordH1 firstBytes "other" "salt").toList).getD []
  salt := "salt"
  last := some "other"

def syncCalls : List (PasswordCall × Draws) :=
  [(.setPermanentPassword {} "first", someDraws),
    (.setPermanentPasswordStorageForSync exportedPayload, someDraws), (.setSalt "new", someDraws)]

/-- The machine reads what `[7]` exports with its public key. -/
def pkMachine : Machine := { uuid := [8], pk := some [7] }

def syncRun : PasswordRun := run (PasswordRun.step bytesKey pkMachine firstBytes) {} syncCalls

theorem exported_exportedPayload : Exported bytesKey pkMachine firstBytes exportedPayload := by
  have hread : ∀ m : Machine, m = pkMachine ∨ m = { uuid := [7] } →
      m.decodePermanentPasswordH1FromStorage bytesKey exportedPayload.storage =
        some (computePermanentPasswordH1 firstBytes "other" "salt").toList := by
    rintro m (rfl | rfl) <;> decide +kernel
  refine ⟨{ uuid := [7] }, fun h1 hh1 => ⟨by decide, "other", rfl, ?_⟩, ?_⟩
  · exact Option.some.inj (hh1.symm.trans (hread _ (.inr rfl)))
  · exact (hread _ (.inl rfl)).trans (hread _ (.inr rfl)).symm

/-- A synchronised salt stays with its storage when another one is set. -/
theorem permanent_password_salt_bound_sync :
    syncRun.store.config.salt = "salt" ∧ Bound bytesKey pkMachine firstBytes
      syncRun.store.config.password syncRun.store.config.salt syncRun.last := by
  have hcalls : ∀ call ∈ syncCalls, call.1.Exported bytesKey pkMachine firstBytes := by
    intro call hcall
    simp only [syncCalls, List.mem_cons, List.not_mem_nil, or_false] at hcall
    rcases hcall with rfl | rfl | rfl
    · trivial
    · exact exported_exportedPayload
    · trivial
  refine ⟨by decide +kernel, ?_⟩
  exact (permanent_password_salt_bound bytesKey pkMachine firstBytes syncCalls hcalls syncRun
    rfl).1

end RustDesk.PermanentPassword
