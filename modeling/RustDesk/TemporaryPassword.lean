import RustDesk.ConnectionLogin
import RustDesk.History

/-!
# Rotation of the temporary password

The failed logins are counted in a state that all connections share. It remembers the value
that the count is for, so that a password which was changed elsewhere is noticed at the next
check. Logins come one at a time, from any connection, between updates of the password from
outside; the log has what `validate_password` found for each value, the newest first.
-/

namespace RustDesk.TemporaryPassword

open History

/-! ### Passwords -/

def numChars : List Char := "0123456789".toList

def chars : List Char := "23456789abcdefghijkmnpqrstuvwxyz".toList

def temporaryPasswordLength (option : String) : Nat :=
  if option = "8" then 8 else if option = "10" then 10 else 6

/-- What `get_auto_password` reads: two options, and random numbers. -/
structure Auto where
  temporaryPasswordLength : String := ""
  allowNumericOneTimePassword : Bool := false
  rng : Nat → Nat

def getAutoPasswordWithChars (length : Nat) (chars : List Char) (rng : Nat → Nat) : String :=
  String.ofList ((List.range length).map fun i => chars.getD (rng i % chars.length) '0')

def getAutoPassword (auto : Auto) : String :=
  getAutoPasswordWithChars (temporaryPasswordLength auto.temporaryPasswordLength)
    (if auto.allowNumericOneTimePassword then numChars else chars) auto.rng

theorem getAutoPassword_ne_empty (auto : Auto) : getAutoPassword auto ≠ "" := by
  have hpos : temporaryPasswordLength auto.temporaryPasswordLength ≠ 0 := by
    unfold temporaryPasswordLength
    split_ifs <;> decide
  unfold getAutoPassword getAutoPasswordWithChars
  rw [Ne, String.ofList_eq_empty_iff, List.map_eq_nil_iff, List.range_eq_nil]
  exact hpos

/-! ### The shared state -/

/-- What `validate_password` found about the temporary password it was called with. -/
inductive Outcome
  | matched
  | permanent
  | failed
  deriving DecidableEq, Repr

structure Test where
  password : String
  outcome : Outcome
  deriving DecidableEq, Repr

/-- `TEMPORARY_PASSWORD_FAILURES` -/
structure FailureState where
  password : String := ""
  failures : Nat := 0
  deriving DecidableEq, Repr

/-- `used` has every value that `TEMPORARY_PASSWORD` ever had. -/
structure Server where
  temporaryPassword : String
  state : FailureState := {}
  used : List String
  log : List Test := []
  deriving DecidableEq, Repr

namespace Server

def start (auto : Auto) : Server :=
  { temporaryPassword := getAutoPassword auto, used := [getAutoPassword auto] }

def updateTemporaryPassword (auto : Auto) (s : Server) : Server :=
  { s with temporaryPassword := getAutoPassword auto, used := getAutoPassword auto :: s.used }

def maxConsecutiveFailures : Nat := 10

def checkUpdateTemporaryPassword (enabled : Bool) (auto : Auto) (success : Bool) (s : Server) :
    Server :=
  if !enabled then s
  else if s.temporaryPassword.isEmpty then s
  else
    let state := if s.state.password ≠ s.temporaryPassword then ⟨s.temporaryPassword, 0⟩ else s.state
    if success then { s with state := { state with failures := 0 } }
    else
      let state := { state with failures := state.failures + 1 }
      if state.failures < maxConsecutiveFailures then { s with state }
      else
        let s := s.updateTemporaryPassword auto
        { s with state := ⟨s.temporaryPassword, 0⟩ }

end Server

/-! ### Logins -/

/-- The calls of `check_update_temporary_password` that a connection made, oldest first. -/
def checks (before after : Connection) : List Bool :=
  ((after.log.take (after.log.length - before.log.length)).filterMap fun
    | .temporaryPassword success => some success
    | _ => none).reverse

/-- A login with a password at a connection; `auto` is for a new password, if it comes to that. -/
structure Attempt where
  conn : Connection
  env : Env
  allowPermanentPassword : Bool
  auto : Auto

inductive Input
  | login (a : Attempt)
  | update (auto : Auto)

def Input.auto : Input → Auto
  | .login a => a.auto
  | .update auto => auto

namespace Server

def envOf (s : Server) (a : Attempt) : Env := { a.env with temporaryPassword := s.temporaryPassword }

def outcomeOf (s : Server) (a : Attempt) : Outcome :=
  let r := a.conn.validatePassword (s.envOf a) a.allowPermanentPassword
  if checks a.conn r.1 = [true] then .matched else if r.2 then .permanent else .failed

/-- `validate_password` looks at the temporary password only while it is enabled. -/
def tested (s : Server) (a : Attempt) : Server :=
  if a.env.temporaryEnabled then
    { s with log := ⟨s.temporaryPassword, s.outcomeOf a⟩ :: s.log }
  else s

/-- The password branch of `on_message`: the check of a success is made in `validate_password`,
that of a failure after it. -/
def login (a : Attempt) (s : Server) : Server :=
  if (a.conn.checkFailure (s.envOf a) 0 .default).2 then
    let r := a.conn.validatePassword (s.envOf a) a.allowPermanentPassword
    let check := checkUpdateTemporaryPassword a.env.temporaryEnabled a.auto
    let s := (checks a.conn r.1).foldl (fun s success => s |> check success) (s.tested a)
    if r.2 then s else s |> check false
  else s

def step (s : Server) : Input → Server
  | .login a => s.login a
  | .update auto => s.updateTemporaryPassword auto

end Server

/-- The failures of a value since it was last matched. -/
def failuresSince (password : String) : List Test → Nat
  | [] => 0
  | t :: log =>
    if t.password = password then
      match t.outcome with
      | .matched => 0
      | .permanent => failuresSince password log
      | .failed => failuresSince password log + 1
    else failuresSince password log

/-- The count for the password in force. -/
def Server.count (s : Server) : Nat :=
  if s.state.password = s.temporaryPassword then s.state.failures else 0

/-- `update_temporary_password` produces a value not used before. -/
def Fresh (s : Server) (i : Input) : Prop := getAutoPassword i.auto ∉ s.used

/-- The password in force has fewer than ten failures, no value has more than ten, and the
count is that of the password in force. -/
structure Bounded (s : Server) : Prop where
  current : failuresSince s.temporaryPassword s.log < Server.maxConsecutiveFailures
  all : ∀ password, failuresSince password s.log ≤ Server.maxConsecutiveFailures
  count : s.count = failuresSince s.temporaryPassword s.log

/-- After a login that was matched or a change of the password the count begins again, and a
login that fails for the tenth time changes the password. -/
structure Rotates (s : Server) (i : Input) : Prop where
  changed : (s.step i).temporaryPassword ≠ s.temporaryPassword → (s.step i).count = 0
  matched : (s.step i).log = ⟨s.temporaryPassword, .matched⟩ :: s.log → (s.step i).count = 0
  failed : (s.step i).log = ⟨s.temporaryPassword, .failed⟩ :: s.log →
    failuresSince s.temporaryPassword (s.step i).log = Server.maxConsecutiveFailures →
    (s.step i).temporaryPassword ≠ s.temporaryPassword

/-! ### What a step does -/

/-- The ways a step goes, of which the first four leave the password as it is. -/
inductive Server.Goes (s : Server) (auto : Auto) : Server → Prop
  | same : Goes s auto s
  | matched : Goes s auto { s with
      log := ⟨s.temporaryPassword, .matched⟩ :: s.log
      state := ⟨s.temporaryPassword, 0⟩ }
  | permanent : Goes s auto { s with log := ⟨s.temporaryPassword, .permanent⟩ :: s.log }
  | failed (h : s.count + 1 < Server.maxConsecutiveFailures) : Goes s auto { s with
      log := ⟨s.temporaryPassword, .failed⟩ :: s.log
      state := ⟨s.temporaryPassword, s.count + 1⟩ }
  | rotated (h : Server.maxConsecutiveFailures ≤ s.count + 1) : Goes s auto
      { s.updateTemporaryPassword auto with
        log := ⟨s.temporaryPassword, .failed⟩ :: s.log
        state := ⟨getAutoPassword auto, 0⟩ }
  | updated : Goes s auto (s.updateTemporaryPassword auto)

section Steps

variable {s s' : Server} {a : Attempt} {auto : Auto} {i : Input}

theorem checks_of_log {before after : Connection} (new : List Effect)
    (h : after.log = new ++ before.log) : checks before after = (new.filterMap fun
      | .temporaryPassword success => some success
      | _ => none).reverse := by
  rw [checks, h, List.length_append, Nat.add_sub_cancel, List.take_left]

/-- `validate_password` makes the check itself only for a temporary password that matches. -/
theorem validatePassword_cases (env : Env) (allow : Bool) (c : Connection) :
    (env.temporaryEnabled = true ∧ checks c (c.validatePassword env allow).1 = [true] ∧
        (c.validatePassword env allow).2 = true) ∨
      (checks c (c.validatePassword env allow).1 = [] ∧ (c.validatePassword env allow).2 = true) ∨
      (checks c (c.validatePassword env allow).1 = [] ∧ (c.validatePassword env allow).2 = false) := by
  unfold Connection.validatePassword
  split_ifs with htemporary hpermanent
  · left
    exact ⟨(Bool.and_eq_true_iff.mp htemporary).1,
      checks_of_log [.validatePassword true, .temporaryPassword true] rfl, rfl⟩
  · right; left
    exact ⟨checks_of_log [.validatePassword true] rfl, rfl⟩
  · right; right
    exact ⟨checks_of_log [.validatePassword false] rfl, rfl⟩

/-- The value that the count is kept for becomes the password in force. -/
theorem state_eq (s : Server) :
    (if s.state.password ≠ s.temporaryPassword then (⟨s.temporaryPassword, 0⟩ : FailureState)
      else s.state) = ⟨s.temporaryPassword, s.count⟩ := by
  unfold Server.count
  by_cases h : s.state.password = s.temporaryPassword
  · rw [if_neg (not_not.mpr h), if_pos h, ← h]
  · rw [if_pos h, if_neg h]

theorem check_disabled (success : Bool) :
    s.checkUpdateTemporaryPassword false auto success = s := rfl

theorem check_true (hne : s.temporaryPassword ≠ "") :
    s.checkUpdateTemporaryPassword true auto true =
      { s with state := ⟨s.temporaryPassword, 0⟩ } := by
  have hempty : ¬s.temporaryPassword.isEmpty = true := by simpa [String.isEmpty_iff] using hne
  unfold Server.checkUpdateTemporaryPassword
  rw [if_neg (by simp), if_neg hempty, if_pos rfl, state_eq]

theorem check_false (hne : s.temporaryPassword ≠ "") :
    s.checkUpdateTemporaryPassword true auto false =
      if s.count + 1 < Server.maxConsecutiveFailures then
        { s with state := ⟨s.temporaryPassword, s.count + 1⟩ }
      else { s.updateTemporaryPassword auto with state := ⟨getAutoPassword auto, 0⟩ } := by
  have hempty : ¬s.temporaryPassword.isEmpty = true := by simpa [String.isEmpty_iff] using hne
  unfold Server.checkUpdateTemporaryPassword
  rw [if_neg (by simp), if_neg hempty, if_neg Bool.false_ne_true]
  dsimp only
  rw [state_eq]
  rfl

theorem goes_login (hne : s.temporaryPassword ≠ "") : s.Goes a.auto (s.login a) := by
  unfold Server.login
  split_ifs with hallowed
  · dsimp only
    rcases validatePassword_cases (s.envOf a) a.allowPermanentPassword a.conn with
      ⟨henabled, hchecks, hok⟩ | ⟨hchecks, hok⟩ | ⟨hchecks, hok⟩
    · have hen : a.env.temporaryEnabled = true := henabled
      rw [hchecks, hok, if_pos rfl, hen]
      simp only [List.foldl_cons, List.foldl_nil]
      have htested : s.tested a = { s with log := ⟨s.temporaryPassword, .matched⟩ :: s.log } := by
        rw [Server.tested, if_pos hen, Server.outcomeOf, if_pos hchecks]
      rw [htested, check_true (by exact hne)]
      exact .matched
    · rw [hchecks, hok, if_pos rfl]
      simp only [List.foldl_nil]
      cases hen : a.env.temporaryEnabled with
      | false =>
        rw [Server.tested, if_neg (by simp [hen])]
        exact .same
      | true =>
        have hout : s.outcomeOf a = .permanent := by
          rw [Server.outcomeOf, if_neg (by simp [hchecks]), if_pos hok]
        rw [Server.tested, if_pos hen, hout]
        exact .permanent
    · rw [hchecks, hok, if_neg Bool.false_ne_true]
      simp only [List.foldl_nil]
      cases hen : a.env.temporaryEnabled with
      | false =>
        rw [Server.tested, if_neg (by simp [hen]), check_disabled]
        exact .same
      | true =>
        have hout : s.outcomeOf a = .failed := by
          rw [Server.outcomeOf, if_neg (by simp [hchecks]), if_neg (by simp [hok])]
        rw [Server.tested, if_pos hen, hout, check_false (by exact hne)]
        split_ifs with hcount
        · exact .failed hcount
        · exact .rotated (Nat.le_of_not_lt hcount)
  · exact .same

theorem goes_step (hne : s.temporaryPassword ≠ "") (i : Input) : s.Goes i.auto (s.step i) := by
  cases i with
  | login a => exact goes_login hne
  | update auto => exact .updated

end Steps

/-! ### Counting -/

section Counting

variable {password : String} {outcome : Outcome} {log : List Test}

theorem failuresSince_matched : failuresSince password (⟨password, .matched⟩ :: log) = 0 := by
  rw [failuresSince, if_pos rfl]

theorem failuresSince_permanent :
    failuresSince password (⟨password, .permanent⟩ :: log) = failuresSince password log := by
  rw [failuresSince, if_pos rfl]

theorem failuresSince_failed :
    failuresSince password (⟨password, .failed⟩ :: log) = failuresSince password log + 1 := by
  rw [failuresSince, if_pos rfl]

theorem failuresSince_of_ne {other : String} (h : other ≠ password) :
    failuresSince password (⟨other, outcome⟩ :: log) = failuresSince password log := by
  rw [failuresSince, if_neg h]

theorem failuresSince_of_notMem (h : ∀ t ∈ log, t.password ≠ password) :
    failuresSince password log = 0 := by
  induction log with
  | nil => rfl
  | cons t log ih =>
    rw [List.forall_mem_cons] at h
    rw [failuresSince_of_ne h.1]
    exact ih h.2

end Counting

/-- The values of the log and of the count were all in force at some time. -/
structure Sound (s : Server) : Prop extends Bounded s where
  ne_empty : s.temporaryPassword ≠ ""
  used : s.temporaryPassword ∈ s.used
  counted : s.state.password = "" ∨ s.state.password ∈ s.used
  logged : ∀ t ∈ s.log, t.password ∈ s.used

section Invariant

variable {s s' : Server} {auto : Auto} {i : Input}

theorem maxConsecutiveFailures_pos : 0 < Server.maxConsecutiveFailures := by decide

theorem sound_start (auto : Auto) : Sound (Server.start auto) := by
  have hne := getAutoPassword_ne_empty auto
  have hcount : ("" : String) ≠ getAutoPassword auto := hne.symm
  exact ⟨⟨maxConsecutiveFailures_pos, fun password => Nat.zero_le _, if_neg hcount⟩, hne,
    List.mem_singleton.mpr rfl, .inl rfl, fun t ht => absurd ht List.not_mem_nil⟩

/-- A test of the password in force changes nothing about the failures of other values. -/
theorem failuresSince_le_of_test (h : Bounded s) {outcome : Outcome}
    (hcurrent : failuresSince s.temporaryPassword (⟨s.temporaryPassword, outcome⟩ :: s.log) ≤
      Server.maxConsecutiveFailures) (password : String) :
    failuresSince password (⟨s.temporaryPassword, outcome⟩ :: s.log) ≤
      Server.maxConsecutiveFailures := by
  by_cases hp : s.temporaryPassword = password
  · rw [← hp]
    exact hcurrent
  · rw [failuresSince_of_ne hp]
    exact h.all password

theorem logged_test (h : Sound s) (outcome : Outcome) :
    ∀ t ∈ (⟨s.temporaryPassword, outcome⟩ :: s.log : List Test), t.password ∈ s.used := by
  rw [List.forall_mem_cons]
  exact ⟨h.used, h.logged⟩

theorem failuresSince_fresh {log : List Test} (hlogged : ∀ t ∈ log, t.password ∈ s.used)
    (hfresh : getAutoPassword auto ∉ s.used) : failuresSince (getAutoPassword auto) log = 0 := by
  apply failuresSince_of_notMem
  intro t ht heq
  exact hfresh (heq ▸ hlogged t ht)

theorem sound_tested (h : Sound s) (outcome : Outcome) (state : FailureState)
    (hlt : failuresSince s.temporaryPassword (⟨s.temporaryPassword, outcome⟩ :: s.log) <
      Server.maxConsecutiveFailures)
    (hcount : (if state.password = s.temporaryPassword then state.failures else 0) =
      failuresSince s.temporaryPassword (⟨s.temporaryPassword, outcome⟩ :: s.log))
    (hstate : state.password = "" ∨ state.password ∈ s.used) :
    Sound { s with log := ⟨s.temporaryPassword, outcome⟩ :: s.log, state := state } where
  current := hlt
  all := failuresSince_le_of_test h.toBounded (Nat.le_of_lt hlt)
  count := hcount
  ne_empty := h.ne_empty
  used := h.used
  counted := hstate
  logged := logged_test h outcome

theorem sound_changed (hfresh : getAutoPassword auto ∉ s.used) {log : List Test}
    {state : FailureState} (hall : ∀ password, failuresSince password log ≤
      Server.maxConsecutiveFailures) (hlogged : ∀ t ∈ log, t.password ∈ s.used)
    (hcount : state.password = getAutoPassword auto → state.failures = 0)
    (hstate : state.password = "" ∨ state.password ∈ getAutoPassword auto :: s.used) :
    Sound { s.updateTemporaryPassword auto with log := log, state := state } := by
  have hzero : failuresSince (getAutoPassword auto) log = 0 := failuresSince_fresh hlogged hfresh
  refine ⟨⟨?_, hall, ?_⟩, getAutoPassword_ne_empty auto, List.mem_cons_self, hstate,
    fun t ht => List.mem_cons_of_mem _ (hlogged t ht)⟩
  · exact Nat.lt_of_le_of_lt (Nat.le_of_eq hzero) maxConsecutiveFailures_pos
  · refine Eq.trans ?_ hzero.symm
    by_cases hp : state.password = getAutoPassword auto
    · exact (if_pos hp).trans (hcount hp)
    · exact if_neg hp

theorem sound_goes (h : Sound s) (hfresh : getAutoPassword auto ∉ s.used)
    (hgoes : s.Goes auto s') : Sound s' := by
  cases hgoes with
  | same => exact h
  | matched =>
    apply sound_tested h .matched
    · rw [failuresSince_matched]
      exact maxConsecutiveFailures_pos
    · rw [failuresSince_matched, if_pos rfl]
    · exact .inr h.used
  | permanent =>
    apply sound_tested h .permanent s.state
    · rw [failuresSince_permanent]
      exact h.current
    · rw [failuresSince_permanent]
      exact h.count
    · exact h.counted
  | failed hcount =>
    rw [h.count] at hcount ⊢
    apply sound_tested h .failed
    · rw [failuresSince_failed]
      exact hcount
    · rw [failuresSince_failed, if_pos rfl]
    · exact .inr h.used
  | rotated hcount =>
    apply sound_changed hfresh
    · apply failuresSince_le_of_test h.toBounded
      rw [failuresSince_failed]
      exact h.current
    · exact logged_test h .failed
    · exact fun _ => rfl
    · exact .inr List.mem_cons_self
  | updated =>
    apply sound_changed hfresh h.all h.logged
    · intro heq
      rcases h.counted with hempty | hused
      · exact absurd (heq.symm.trans hempty) (getAutoPassword_ne_empty auto)
      · exact absurd (heq ▸ hused) hfresh
    · exact h.counted.imp_right (List.mem_cons_of_mem _)

theorem sound_step (h : Sound s) (hfresh : Fresh s i) : Sound (s.step i) :=
  sound_goes h hfresh (goes_step h.ne_empty i)

theorem failuresSince_of_changed (h : Sound s) (hfresh : getAutoPassword auto ∉ s.used)
    (hgoes : s.Goes auto s') (hchanged : s'.temporaryPassword ≠ s.temporaryPassword) :
    failuresSince s'.temporaryPassword s'.log = 0 := by
  cases hgoes with
  | same => exact absurd rfl hchanged
  | matched => exact absurd rfl hchanged
  | permanent => exact absurd rfl hchanged
  | failed => exact absurd rfl hchanged
  | rotated => exact failuresSince_fresh (logged_test h .failed) hfresh
  | updated => exact failuresSince_fresh h.logged hfresh

theorem rotates_step (h : Sound s) (hfresh : Fresh s i) : Rotates s i := by
  have hnext := sound_step h hfresh
  have hchanged : (s.step i).temporaryPassword ≠ s.temporaryPassword → (s.step i).count = 0 := by
    intro hne
    rw [hnext.count]
    exact failuresSince_of_changed h hfresh (goes_step h.ne_empty i) hne
  refine ⟨hchanged, fun hmatched => ?_, fun _ hten hsame => ?_⟩
  · by_cases hsame : (s.step i).temporaryPassword = s.temporaryPassword
    · rw [hnext.count, hmatched, hsame, failuresSince_matched]
    · exact hchanged hsame
  · have hlt := hnext.current
    rw [hsame, hten] at hlt
    exact Nat.lt_irrefl _ hlt

/-- In every run each value is bounded at every state, and rotated as it has to be. -/
theorem temporary_password_rotated (auto : Auto) (is : List Input)
    (hfresh : Guarded Server.step Fresh (Server.start auto) is) :
    Throughout Server.step Bounded (Server.start auto) is ∧
      Guarded Server.step Rotates (Server.start auto) is := by
  have hstart := sound_start auto
  constructor
  · have hsound : Throughout Server.step Sound (Server.start auto) is :=
      throughout_of_guarded (fun s i h hf => sound_step h hf) hstart hfresh
    exact throughout_imp (fun s h => h.toBounded) hsound
  · exact guarded_of_inv (fun s i h hf => sound_step h hf) (fun s i h hf => rotates_step h hf) hstart
      hfresh

/-- All characters of the password are the same. -/
def constant (n : Nat) : Auto := { rng := fun _ => n }

/-- A login without a valid proof. -/
def wrongLogin : Attempt where
  conn :=
    { id := 1, hash := ⟨"salt", "challenge"⟩, require2fa := none
      perms := ⟨true, true, true, true, true, true, true, true⟩, controlPermissions := none }
  env := {}
  allowPermanentPassword := false
  auto := constant 1

theorem temporary_password_rotated_once :
    Throughout Server.step Bounded (Server.start (constant 0))
        [.login wrongLogin, .update (constant 2)] ∧
      Guarded Server.step Rotates (Server.start (constant 0))
        [.login wrongLogin, .update (constant 2)] := by
  apply temporary_password_rotated
  refine ⟨?_, ?_, trivial⟩
  · show getAutoPassword (constant 1) ∉ [getAutoPassword (constant 0)]
    decide +kernel
  · show getAutoPassword (constant 2) ∉ ((Server.start (constant 0)).login wrongLogin).used
    decide +kernel

end Invariant

end RustDesk.TemporaryPassword
