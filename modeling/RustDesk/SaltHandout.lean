import RustDesk.PasswordSalt

/-!
# Handing out the salt

`get_salt` reads the salt under one lock, and if there is none draws one and stores it under
another. Between the two another task may store a salt of its own. `set_permanent_password`
looks for a preset password under one lock and hashes and stores under another, and the salt
that it needs is drawn under the second.

Every task is cut where it holds no lock. The log keeps what was stored after each section
that writes, and what was returned, newest first.
-/

namespace RustDesk.PermanentPassword.SaltHandout

open History

variable {B : SecretBox} (key : Bytes → B.Key) (m : Machine) (sha256 : Bytes → Vector UInt8 32)

/-! ### The sections of a call -/

/-- The first section of `get_salt`, which returns the salt if there is one. -/
def readSalt (s : PasswordStore) : Option String :=
  if s.config.salt.isEmpty then none else some s.config.salt

/-- The second section, with the salt it returns. -/
def storeSalt (draws : Draws) (s : PasswordStore) : PasswordStore × String :=
  let salt := getAutoPassword draws.salt
  (s.setSalt key m draws salt, salt)

/-- What `set_permanent_password` does before it locks the configuration to write. -/
def presetCheck (settings : Settings) (password : String) (s : PasswordStore) : Option Bool :=
  if settings.disableChangePermanentPassword then some false
  else if presetPermanentPasswordStorageMatchesPlain sha256 settings.presetStorage
      settings.presetSalt password && s.config.password.isEmpty then some true
  else none

/-- The section of `set_permanent_password` that writes. -/
def updatePassword (draws : Draws) (password : String) (s : PasswordStore) :
    PasswordStore × Bool :=
  let (config, stored) :=
    if password.isEmpty then (s.config, some [])
    else s.config.computePermanentPasswordStorageForUpdate key m sha256 draws password
  match stored with
  | none => ({ s with config }, false)
  | some stored =>
    if stored = config.password then ({ s with config }, true)
    else
      ((s.storeConfig key m draws { config with password := stored }).clearTrustedDevices, true)

theorem getSalt_eq (draws : Draws) (s : PasswordStore) :
    s.getSalt key m draws =
      match readSalt s with
      | some salt => (s, salt)
      | none => storeSalt key m draws s := by
  unfold PasswordStore.getSalt readSalt
  by_cases h : s.config.salt.isEmpty = true
  · rw [if_pos h, if_pos h]
    rfl
  · rw [if_neg h, if_neg h]

theorem setPermanentPassword_eq (settings : Settings) (draws : Draws) (password : String)
    (s : PasswordStore) :
    s.setPermanentPassword key m sha256 settings draws password =
      match presetCheck sha256 settings password s with
      | some accepted => (s, accepted)
      | none => updatePassword key m sha256 draws password s := by
  unfold PasswordStore.setPermanentPassword presetCheck
  split
  · rfl
  · split
    · rfl
    · rfl

/-! ### Tasks -/

/-- Where a task has let go of the lock. -/
inductive Call
  | getSalt
  | setPermanentPassword (password : String)
  deriving DecidableEq, Repr

inductive Entry
  | began (task : Nat)
  | stored (salt : String) (newPassword : Bool)
  | returned (task : Nat) (salt : String)
  deriving DecidableEq, Repr

structure State where
  store : PasswordStore
  calls : Nat → Option Call := fun _ => none
  log : List Entry := []

/-- A section of one task; `Draws` are the random numbers it takes. -/
inductive Section
  | readSalt (task : Nat)
  | storeSalt (task : Nat) (draws : Draws)
  | presetCheck (task : Nat) (settings : Settings) (password : String)
  | updatePassword (task : Nat) (draws : Draws)

namespace State

def setCall (task : Nat) (call : Option Call) (s : State) : State :=
  { s with calls := Function.update s.calls task call }

def emit (e : Entry) (s : State) : State := { s with log := e :: s.log }

/-- The store after a section that writes. -/
def write (store : PasswordStore) (s : State) : State :=
  { s with
    store
    log := .stored store.config.salt (decide (store.config.password ≠ s.store.config.password)) ::
      s.log }

/-- A task in the middle of a call begins no other one. -/
def step (s : State) : Section → State
  | .readSalt task =>
    match s.calls task with
    | some _ => s
    | none =>
      let s := s.emit (.began task)
      match SaltHandout.readSalt s.store with
      | some salt => s.emit (.returned task salt)
      | none => s.setCall task (some .getSalt)
  | .storeSalt task draws =>
    match s.calls task with
    | some .getSalt =>
      let (store, salt) := SaltHandout.storeSalt key m draws s.store
      ((s.write store).emit (.returned task salt)).setCall task none
    | _ => s
  | .presetCheck task settings password =>
    match s.calls task with
    | some _ => s
    | none =>
      match SaltHandout.presetCheck sha256 settings password s.store with
      | some _ => s
      | none => s.setCall task (some (.setPermanentPassword password))
  | .updatePassword task draws =>
    match s.calls task with
    | some (.setPermanentPassword password) =>
      (s.write (SaltHandout.updatePassword key m sha256 draws password s.store).1).setCall task none
    | _ => s

end State

/-! ### What is promised -/

/-- The salt that was stored last. -/
def storedSalt (first : String) : List Entry → String
  | [] => first
  | .stored salt _ :: _ => salt
  | _ :: log => storedSalt first log

/-- The salts that were stored at some moment since the task began its call. -/
def duringCall (first : String) (task : Nat) : List Entry → List String
  | [] => []
  | .began other :: log =>
    if other = task then [storedSalt first log] else duringCall first task log
  | .stored salt _ :: log => salt :: duringCall first task log
  | .returned _ _ :: log => duringCall first task log

/-- A salt that is returned was stored during the call, and one that was returned is replaced
only together with the password. -/
def Honest (first : String) : Entry → List Entry → Prop
  | .began _, _ => True
  | .stored salt newPassword, log =>
    (∃ task, .returned task (storedSalt first log) ∈ log) →
      salt = storedSalt first log ∨ newPassword = true
  | .returned task salt, log => salt ∈ duringCall first task log

def Kept (first : String) (s : State) : Prop := Always (Honest first) s.log

/-- No other salt has been stored since the task found none. -/
def StillEmpty (s : State) : Section → Prop
  | .storeSalt task draws =>
    s.calls task = some .getSalt →
      s.store.config.salt = "" ∨ s.store.config.salt = getAutoPassword draws.salt
  | _ => True

/-! ### One section -/

variable {key m sha256} {s : State} {store : PasswordStore} {first : String} {draws : Draws}
  {task : Nat}

/-- A salt that is empty, or the same, is stored. -/
theorem storeSalt_salt (key : Bytes → B.Key) (m : Machine)
    (h : store.config.salt = "" ∨ store.config.salt = getAutoPassword draws.salt) :
    (storeSalt key m draws store).1.config.salt = getAutoPassword draws.salt := by
  unfold storeSalt PasswordStore.setSalt
  dsimp only
  split
  · rename_i heq
    exact heq.symm
  · rename_i hne
    have hempty : store.config.salt.isEmpty = true :=
      String.isEmpty_iff.mpr (h.resolve_right fun heq => hne heq.symm)
    rw [hempty, Bool.not_true, Bool.and_false, if_neg Bool.false_ne_true]
    rfl

/-- A salt that there is stays. -/
theorem updatePassword_salt (key : Bytes → B.Key) (m : Machine)
    (sha256 : Bytes → Vector UInt8 32) (draws : Draws) (password : String)
    (h : store.config.salt ≠ "") :
    (updatePassword key m sha256 draws password store).1.config.salt = store.config.salt := by
  have hensure : store.config.ensurePermanentPasswordSalt draws = store.config := by
    rw [Config.ensurePermanentPasswordSalt, isEmpty_eq_false_iff.mpr h, if_neg Bool.false_ne_true]
  unfold updatePassword
  by_cases hempty : password.isEmpty = true
  · rw [if_pos hempty]
    dsimp only
    split
    · rfl
    · rfl
  · rw [if_neg hempty]
    unfold Config.computePermanentPasswordStorageForUpdate
    rw [hensure]
    dsimp only
    split
    · rfl
    · split
      · rfl
      · rfl

structure Inv (first : String) (s : State) : Prop where
  stored : storedSalt first s.log = s.store.config.salt
  nonempty : ∀ task salt, .returned task salt ∈ s.log → salt ≠ ""
  kept : Kept first s

theorem Inv.began (h : Inv first s) (task : Nat) : Inv first (s.emit (.began task)) where
  stored := h.stored
  nonempty task' salt hm := by
    rcases List.mem_cons.mp hm with hm | hm
    · cases hm
    · exact h.nonempty task' salt hm
  kept := ⟨trivial, h.kept⟩

theorem Inv.returned {salt : String} (h : Inv first s) (hne : salt ≠ "")
    (hduring : salt ∈ duringCall first task s.log) : Inv first (s.emit (.returned task salt)) where
  stored := h.stored
  nonempty task' salt' hm := by
    rcases List.mem_cons.mp hm with hm | hm
    · cases hm
      exact hne
    · exact h.nonempty task' salt' hm
  kept := ⟨hduring, h.kept⟩

/-- A section that replaces no salt keeps what was promised. -/
theorem Inv.write (h : Inv first s)
    (hsalt : s.store.config.salt ≠ "" → store.config.salt = s.store.config.salt) :
    Inv first (s.write store) where
  stored := rfl
  nonempty task salt hm := by
    rcases List.mem_cons.mp hm with hm | hm
    · cases hm
    · exact h.nonempty task salt hm
  kept := by
    refine ⟨?_, h.kept⟩
    rintro ⟨task, hm⟩
    have hne := h.nonempty task _ hm
    rw [h.stored] at hne ⊢
    exact .inl (hsalt hne)

theorem inv_step (key : Bytes → B.Key) (m : Machine) (sha256 : Bytes → Vector UInt8 32)
    (i : Section) (h : Inv first s) (hok : StillEmpty s i) :
    Inv first (s.step key m sha256 i) := by
  cases i with
  | readSalt task =>
    simp only [State.step]
    split
    · exact h
    · unfold readSalt
      by_cases hempty : s.store.config.salt.isEmpty = true
      · rw [show (s.emit (.began task)).store = s.store from rfl, if_pos hempty]
        exact ⟨h.stored, (h.began task).nonempty, (h.began task).kept⟩
      · rw [show (s.emit (.began task)).store = s.store from rfl, if_neg hempty]
        refine (h.began task).returned (fun hnil => hempty (String.isEmpty_iff.mpr hnil)) ?_
        change s.store.config.salt ∈ if task = task then [storedSalt first s.log] else _
        rw [if_pos rfl, h.stored]
        exact List.mem_singleton_self _
  | storeSalt task draws =>
    simp only [State.step]
    split
    · rename_i hcall
      have hsalt := storeSalt_salt key m (hok hcall)
      have hwrite : Inv first (s.write (storeSalt key m draws s.store).1) := by
        refine h.write fun hne => ?_
        rw [hsalt]
        exact ((hok hcall).resolve_left hne).symm
      have hduring : getAutoPassword draws.salt ∈
          duringCall first task (s.write (storeSalt key m draws s.store).1).log := by
        rw [State.write, hsalt]
        exact List.mem_cons_self
      have hreturned := hwrite.returned (getAutoPassword_ne_empty draws.salt) hduring
      exact ⟨hreturned.stored, hreturned.nonempty, hreturned.kept⟩
    · exact h
  | presetCheck task settings password =>
    simp only [State.step]
    split
    · exact h
    · split
      · exact h
      · exact ⟨h.stored, h.nonempty, h.kept⟩
  | updatePassword task draws =>
    simp only [State.step]
    split
    · rename_i password hcall
      have hwrite := h.write (updatePassword_salt key m sha256 draws password)
      exact ⟨hwrite.stored, hwrite.nonempty, hwrite.kept⟩
    · exact h

/-- As long as no task stores a salt beside one that was stored since it found none, every
salt that is handed out is the stored one and stays. -/
theorem salt_handout (key : Bytes → B.Key) (m : Machine) (sha256 : Bytes → Vector UInt8 32)
    (store : PasswordStore) (sections : List Section)
    (h : Guarded (State.step key m sha256) StillEmpty { store } sections) :
    Throughout (State.step key m sha256) (Kept store.config.salt) { store } sections := by
  have hstart : Inv store.config.salt { store } := ⟨rfl, fun _ _ hm => (by cases hm), trivial⟩
  have hinv := throughout_of_guarded (fun s i hi hok => inv_step key m sha256 i hi hok) hstart h
  exact throughout_imp (fun s hs => hs.kept) hinv

instance decidableStillEmpty (s : State) : ∀ i, Decidable (StillEmpty s i)
  | .storeSalt task draws =>
    inferInstanceAs (Decidable (s.calls task = some .getSalt →
      s.store.config.salt = "" ∨ s.store.config.salt = getAutoPassword draws.salt))
  | .readSalt _ => .isTrue trivial
  | .presetCheck _ _ _ => .isTrue trivial
  | .updatePassword _ _ => .isTrue trivial

def otherDraws : Draws := { someDraws with salt := fun _ => 0 }

/-- The first salt is stored before the other task asks, and a password is set with it. -/
def inTurn : List Section :=
  [.readSalt 0, .storeSalt 0 someDraws, .readSalt 1, .presetCheck 0 {} "p",
    .updatePassword 0 otherDraws]

theorem salt_handout_in_turn :
    Kept "" (run (State.step bytesKey { uuid := [7] } firstBytes) { store := {} } inTurn) ∧
      Entry.returned 1 (getAutoPassword someDraws.salt) ∈
        (run (State.step bytesKey { uuid := [7] } firstBytes) { store := {} } inTurn).log := by
  have hguard : Guarded (State.step bytesKey { uuid := [7] } firstBytes) StillEmpty
      { store := {} } inTurn := by decide +kernel
  exact ⟨throughout_last (salt_handout bytesKey { uuid := [7] } firstBytes {} inTurn hguard),
    by decide +kernel⟩

/-- Both tasks find no salt, and the one that stores last replaces what the other returned. -/
def bothEmpty : List Section :=
  [.readSalt 0, .readSalt 1, .storeSalt 0 someDraws, .storeSalt 1 otherDraws]

/-- A password is stored with a salt of its own after the other task found none. -/
def passwordBetween : List Section :=
  [.readSalt 0, .presetCheck 1 {} "p", .updatePassword 1 someDraws, .storeSalt 0 otherDraws]

theorem returned_salt_lost :
    ¬Kept "" (run (State.step bytesKey { uuid := [7] } firstBytes) { store := {} } bothEmpty) ∧
      ¬Kept "" (run (State.step bytesKey { uuid := [7] } firstBytes) { store := {} }
        passwordBetween) := by
  have hboth : (run (State.step bytesKey { uuid := [7] } firstBytes) { store := {} }
      bothEmpty).log =
        [.returned 1 (getAutoPassword otherDraws.salt),
          .stored (getAutoPassword otherDraws.salt) false,
          .returned 0 (getAutoPassword someDraws.salt),
          .stored (getAutoPassword someDraws.salt) false, .began 1, .began 0] := by decide +kernel
  have hbetween : (run (State.step bytesKey { uuid := [7] } firstBytes) { store := {} }
      passwordBetween).log =
        [.returned 0 (getAutoPassword otherDraws.salt),
          .stored (getAutoPassword someDraws.salt) false,
          .stored (getAutoPassword someDraws.salt) true, .began 0] := by decide +kernel
  have hne : getAutoPassword otherDraws.salt ≠ getAutoPassword someDraws.salt := by decide +kernel
  constructor
  · rw [Kept, hboth]
    rintro ⟨-, hstored, -⟩
    rcases hstored ⟨0, List.mem_cons_self⟩ with heq | hfalse
    · exact hne heq
    · exact absurd hfalse Bool.false_ne_true
  · rw [Kept, hbetween]
    rintro ⟨hreturned, -⟩
    change _ ∈ [getAutoPassword someDraws.salt, getAutoPassword someDraws.salt, ""] at hreturned
    simp [hne, getAutoPassword_ne_empty] at hreturned

end RustDesk.PermanentPassword.SaltHandout
