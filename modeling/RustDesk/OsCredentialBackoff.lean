import Mathlib
import RustDesk.ConnectionState
import RustDesk.History

/-!
# Waiting after wrong credentials

`login_failure_check.rs` counts the failed logins with the credentials of the system. From the third
failure on the next attempt has to wait, for a time that doubles with each failure up to half an
hour, and two hours without a failure let the count begin anew. The waiting time stays below these
two hours, so waiting as long as one has to never resets the count.

The times are in milliseconds, a count is an `i32` and a time an `i64`.
-/

namespace RustDesk.OsCredential

open History (Guarded Throughout throughout_of_guarded throughout_imp)

def totalIdleResetMs : Int := 120 * 60 * 1000
def backoffBaseSeconds : Int := 15
def backoffMaxSeconds : Int := 30 * 60

/-- The alarm of this file. -/
inductive AlarmAuditType
  | terminalOsLoginBackoff
  deriving DecidableEq, Repr

structure OsCredentialPolicyDecision where
  allowed : Bool
  loginError : Option String
  audit : Option AlarmAuditType
  deriving DecidableEq, Repr

structure OsCredentialFailureState where
  totalFailures : Int := 0
  backoffUntilMs : Option Int := none
  lastFailureMs : Option Int := none
  deriving DecidableEq, Repr

def isOsCredentialScope (scope : FailureScope) : Bool := scope = .terminalOsLogin

def backoffAuditTypeForScope : FailureScope → Option AlarmAuditType
  | .terminalOsLogin => some .terminalOsLoginBackoff
  | .default => none

def osCredentialLoginBackoffSeconds (totalFailures : Int) : Int :=
  if totalFailures ≤ 2 then 0
  else
    let exp := min (totalFailures - 3) 7
    min (backoffBaseSeconds * 2 ^ exp.toNat) backoffMaxSeconds

/-- `saturating_add` of `i32` and `saturating_sub` of `i64`. -/
def saturatingAdd (a b : Int) : Int := max (-2 ^ 31) (min (2 ^ 31 - 1) (a + b))

def saturatingSub (a b : Int) : Int := max (-2 ^ 63) (min (2 ^ 63 - 1) (a - b))

def allowDecision : OsCredentialPolicyDecision := ⟨true, none, none⟩

def blockDecision (loginError : String) (alarmType : Option AlarmAuditType) :
    OsCredentialPolicyDecision := ⟨false, some loginError, alarmType⟩

def remainingSeconds (untilMs nowMs : Int) : Int :=
  let remainingMs := max (untilMs - nowMs) 0
  max ((remainingMs + 999) / 1000) 1

def loginError (remainingSeconds : Int) : String :=
  "Please try again in " ++ toString remainingSeconds ++
    (if remainingSeconds = 1 then " second." else " seconds.")

namespace OsCredentialFailureState

def normalizeBackoff (nowMs : Int) (s : OsCredentialFailureState) : OsCredentialFailureState :=
  match s.backoffUntilMs with
  | some untilMs => if untilMs ≤ nowMs then { s with backoffUntilMs := none } else s
  | none => s

/-- The time without a failure is over. -/
def idleElapsed (nowMs : Int) (s : OsCredentialFailureState) : Bool :=
  s.lastFailureMs.any fun lastMs => totalIdleResetMs ≤ saturatingSub nowMs lastMs

def resetTotalsOnIdle (nowMs : Int) (s : OsCredentialFailureState) : OsCredentialFailureState :=
  if s.idleElapsed nowMs then {} else s

def evaluateOsCredentialPolicy (scope : FailureScope) (nowMs : Int) (s : OsCredentialFailureState) :
    OsCredentialFailureState × OsCredentialPolicyDecision :=
  if !isOsCredentialScope scope then (s, allowDecision)
  else
    let s := (s.resetTotalsOnIdle nowMs).normalizeBackoff nowMs
    match s.backoffUntilMs with
    | some untilMs =>
      (s, blockDecision (loginError (remainingSeconds untilMs nowMs)) (backoffAuditTypeForScope scope))
    | none => (s, allowDecision)

/-- `record_os_credential_failure`, at the time `nowMs`. -/
def recordOsCredentialFailure (scope : FailureScope) (nowMs : Int) (s : OsCredentialFailureState) :
    OsCredentialFailureState :=
  if !isOsCredentialScope scope then s
  else
    let s := (s.resetTotalsOnIdle nowMs).normalizeBackoff nowMs
    let totalFailures := saturatingAdd s.totalFailures 1
    let backoffSeconds := osCredentialLoginBackoffSeconds totalFailures
    { totalFailures
      lastFailureMs := some nowMs
      backoffUntilMs :=
        if 0 < backoffSeconds then some (nowMs + backoffSeconds * 1000) else s.backoffUntilMs }

end OsCredentialFailureState

/-! ### With the checks of the machine -/

def checkedI32 (n : Int) : Option Int := if -2 ^ 31 ≤ n ∧ n < 2 ^ 31 then some n else none

def checkedI64 (n : Int) : Option Int := if -2 ^ 63 ≤ n ∧ n < 2 ^ 63 then some n else none

/-- `1_i64 << exp` -/
def checkedShl (exp : Int) : Option Int :=
  if 0 ≤ exp ∧ exp < 64 then checkedI64 (2 ^ exp.toNat) else none

def backoffSecondsChecked (totalFailures : Int) : Option Int :=
  if totalFailures ≤ 2 then some 0
  else do
    let above ← checkedI32 (totalFailures - 3)
    let power ← checkedShl (min above 7)
    let seconds ← checkedI64 (backoffBaseSeconds * power)
    some (min seconds backoffMaxSeconds)

/-- `now_ms + backoff_seconds * 1_000` -/
def backoffUntilChecked (nowMs totalFailures : Int) : Option Int := do
  let seconds ← backoffSecondsChecked totalFailures
  let ms ← checkedI64 (seconds * 1000)
  checkedI64 (nowMs + ms)

def remainingSecondsChecked (untilMs nowMs : Int) : Option Int := do
  let difference ← checkedI64 (untilMs - nowMs)
  let rounded ← checkedI64 (max difference 0 + 999)
  some (max (rounded / 1000) 1)

/-! ### Runs -/

inductive Event
  | evaluate (scope : FailureScope) (nowMs : Int)
  | record (scope : FailureScope) (nowMs : Int)
  deriving DecidableEq, Repr

/-- The state with what a run has been: the failures since the count was last reset, oldest first,
the time of the last event, and the time of an evaluation that allowed a login, until a failure is
recorded or a login is blocked. -/
structure Watch where
  state : OsCredentialFailureState := {}
  failures : List Int := []
  clock : Int
  allowedAt : Option Int := none
  deriving DecidableEq, Repr

namespace Watch

/-- What `evaluate` and `record` begin with. -/
def settle (nowMs : Int) (w : Watch) : Watch where
  state := (w.state.resetTotalsOnIdle nowMs).normalizeBackoff nowMs
  failures := if w.state.idleElapsed nowMs then [] else w.failures
  clock := nowMs
  allowedAt := w.allowedAt

def step (w : Watch) : Event → Watch
  | .evaluate scope nowMs =>
    let r := w.state.evaluateOsCredentialPolicy scope nowMs
    if isOsCredentialScope scope then
      { w.settle nowMs with state := r.1, allowedAt := if r.2.allowed then some nowMs else none }
    else { w with state := r.1, clock := nowMs }
  | .record scope nowMs =>
    let state := w.state.recordOsCredentialFailure scope nowMs
    if isOsCredentialScope scope then
      { state, failures := (w.settle nowMs).failures ++ [nowMs], clock := nowMs }
    else { w with state, clock := nowMs }

/-- The clock does not go back, and a failure follows an evaluation that allowed the login, at the
same time and with no other failure in between. -/
def Admissible (w : Watch) : Event → Prop
  | .evaluate _ nowMs => w.clock ≤ nowMs
  | .record scope nowMs =>
    w.clock ≤ nowMs ∧ (isOsCredentialScope scope = true → w.allowedAt = some nowMs)

instance (w : Watch) : ∀ e, Decidable (w.Admissible e)
  | .evaluate _ nowMs => inferInstanceAs (Decidable (w.clock ≤ nowMs))
  | .record _ _ => inferInstanceAs (Decidable (_ ∧ _))

end Watch

/-- How long one has to wait after the `n`-th failure. -/
def backoffMs (n : Nat) : Int := osCredentialLoginBackoffSeconds n * 1000

/-- Between two failures is at least the waiting time of the first of them. -/
def Spaced (failures : List Int) : Prop :=
  ∀ i l t, failures[i]? = some l → failures[i + 1]? = some t → l + backoffMs (i + 1) ≤ t

namespace Watch

/-- The state tells what the failures were, and whether the waiting time of the last one is over. -/
structure Kept (w : Watch) : Prop where
  count : w.state.totalFailures = min (w.failures.length : Int) (2 ^ 31 - 1)
  last : w.state.lastFailureMs = w.failures.getLast?
  past : ∀ l, w.failures.getLast? = some l → l ≤ w.clock
  waiting : ∀ u, w.state.backoffUntilMs = some u →
    ∃ l, w.failures.getLast? = some l ∧ u = l + backoffMs w.failures.length
  ended : w.state.backoffUntilMs = none →
    ∀ l, w.failures.getLast? = some l → l + backoffMs w.failures.length ≤ w.clock
  spaced : Spaced w.failures
  allowed : w.allowedAt ≠ none → w.state.backoffUntilMs = none

end Watch

/-! ### The waiting time -/

theorem backoffSeconds_of_ge {n : Int} (h : 10 ≤ n) : osCredentialLoginBackoffSeconds n = 1800 := by
  unfold osCredentialLoginBackoffSeconds
  rw [if_neg (by omega), min_eq_right (by omega : (7 : Int) ≤ n - 3)]
  rfl

theorem backoffSeconds_nonneg (n : Int) : 0 ≤ osCredentialLoginBackoffSeconds n := by
  unfold osCredentialLoginBackoffSeconds backoffBaseSeconds backoffMaxSeconds
  split_ifs
  · exact le_rfl
  · have hpow : (0 : Int) ≤ 2 ^ (min (n - 3) 7).toNat := pow_nonneg (by omega) _
    dsimp only
    omega

theorem backoffSeconds_le (n : Int) : osCredentialLoginBackoffSeconds n ≤ backoffMaxSeconds := by
  unfold osCredentialLoginBackoffSeconds
  split_ifs
  · decide
  · exact min_le_right _ _

theorem backoffSeconds_mono {m n : Int} (h : m ≤ n) :
    osCredentialLoginBackoffSeconds m ≤ osCredentialLoginBackoffSeconds n := by
  by_cases hm : m ≤ 2
  · have hzero : osCredentialLoginBackoffSeconds m = 0 := if_pos hm
    rw [hzero]
    exact backoffSeconds_nonneg n
  · unfold osCredentialLoginBackoffSeconds
    rw [if_neg hm, if_neg (by omega)]
    have hexp : (min (m - 3) 7).toNat ≤ (min (n - 3) 7).toNat := by omega
    have hpow : (2 : Int) ^ (min (m - 3) 7).toNat ≤ 2 ^ (min (n - 3) 7).toNat :=
      pow_le_pow_right₀ (by omega) hexp
    apply min_le_min_right
    exact mul_le_mul_of_nonneg_left hpow (by decide)

/-- The count stops at the largest `i32`, where the waiting time has long been the longest. -/
theorem backoffSeconds_saturated (n : Nat) :
    osCredentialLoginBackoffSeconds (min (n : Int) (2 ^ 31 - 1)) = osCredentialLoginBackoffSeconds n := by
  obtain h | h := le_total (n : Int) (2 ^ 31 - 1)
  · rw [min_eq_left h]
  · rw [min_eq_right h, backoffSeconds_of_ge (by omega), backoffSeconds_of_ge (by omega)]

theorem backoff_lt_idle (n : Int) : osCredentialLoginBackoffSeconds n * 1000 < totalIdleResetMs := by
  have h := backoffSeconds_le n
  unfold backoffMaxSeconds at h
  unfold totalIdleResetMs
  omega

theorem idle_le_saturatingSub {a b : Int} :
    totalIdleResetMs ≤ saturatingSub a b ↔ totalIdleResetMs ≤ a - b := by
  unfold totalIdleResetMs saturatingSub
  omega

/-! ### No overflow -/

theorem backoffSecondsChecked_eq {n : Int} (hn : n < 2 ^ 31) :
    backoffSecondsChecked n = some (osCredentialLoginBackoffSeconds n) := by
  unfold backoffSecondsChecked osCredentialLoginBackoffSeconds
  by_cases hsmall : n ≤ 2
  · rw [if_pos hsmall, if_pos hsmall]
  · have habove : checkedI32 (n - 3) = some (n - 3) := if_pos (by omega)
    have hexp : 0 ≤ min (n - 3) 7 ∧ min (n - 3) 7 < 64 := by omega
    have hle : (2 : Int) ^ (min (n - 3) 7).toNat ≤ 2 ^ 7 := pow_le_pow_right₀ (by omega) (by omega)
    have hpos : (0 : Int) < 2 ^ (min (n - 3) 7).toNat := pow_pos (by omega) _
    have hshl : checkedShl (min (n - 3) 7) = some (2 ^ (min (n - 3) 7).toNat) := by
      unfold checkedShl
      rw [if_pos hexp]
      exact if_pos (by omega)
    have hmul : checkedI64 (backoffBaseSeconds * 2 ^ (min (n - 3) 7).toNat) =
        some (backoffBaseSeconds * 2 ^ (min (n - 3) 7).toNat) := by
      unfold backoffBaseSeconds
      exact if_pos (by omega)
    rw [if_neg hsmall, if_neg hsmall, habove, Option.bind_eq_bind, Option.bind_some, hshl,
      Option.bind_some, hmul]
    rfl

theorem backoffUntilChecked_eq {nowMs n : Int} (hn : n < 2 ^ 31) (hlow : -2 ^ 63 ≤ nowMs)
    (hhigh : nowMs < 2 ^ 63 - 1800000) :
    backoffUntilChecked nowMs n = some (nowMs + osCredentialLoginBackoffSeconds n * 1000) := by
  have hle := backoffSeconds_le n
  have hnonneg := backoffSeconds_nonneg n
  unfold backoffMaxSeconds at hle
  unfold backoffUntilChecked
  rw [backoffSecondsChecked_eq hn]
  have hms : checkedI64 (osCredentialLoginBackoffSeconds n * 1000) =
      some (osCredentialLoginBackoffSeconds n * 1000) := if_pos (by omega)
  rw [Option.bind_eq_bind, Option.bind_some, hms, Option.bind_some]
  exact if_pos (by omega)

theorem remainingSecondsChecked_eq {untilMs nowMs : Int} (h : untilMs ≤ nowMs + 1800000)
    (h' : nowMs < untilMs) : remainingSecondsChecked untilMs nowMs =
      some (remainingSeconds untilMs nowMs) := by
  have hdiff : checkedI64 (untilMs - nowMs) = some (untilMs - nowMs) := if_pos (by omega)
  have hround : checkedI64 (max (untilMs - nowMs) 0 + 999) = some (max (untilMs - nowMs) 0 + 999) :=
    if_pos (by omega)
  unfold remainingSecondsChecked
  rw [hdiff, Option.bind_eq_bind, Option.bind_some, hround]
  rfl

/-! ### What is kept -/

namespace OsCredentialFailureState

variable (nowMs : Int) (s : OsCredentialFailureState)

theorem normalizeBackoff_eq : s.normalizeBackoff nowMs =
    { s with backoffUntilMs := s.backoffUntilMs.filter (nowMs < ·) } := by
  unfold normalizeBackoff
  obtain ⟨total, _ | untilMs, last⟩ := s
  · rfl
  · dsimp only [Option.filter]
    by_cases h : untilMs ≤ nowMs
    · rw [if_pos h, if_neg (by simpa using h)]
    · rw [if_neg h, if_pos (by simpa using h)]

theorem evaluate_eq : s.evaluateOsCredentialPolicy .terminalOsLogin nowMs =
    ((s.resetTotalsOnIdle nowMs).normalizeBackoff nowMs,
      match ((s.resetTotalsOnIdle nowMs).normalizeBackoff nowMs).backoffUntilMs with
      | some untilMs => blockDecision (loginError (remainingSeconds untilMs nowMs))
          (some .terminalOsLoginBackoff)
      | none => allowDecision) := by
  unfold evaluateOsCredentialPolicy
  dsimp only [isOsCredentialScope]
  generalize (s.resetTotalsOnIdle nowMs).normalizeBackoff nowMs = s'
  obtain ⟨total, _ | untilMs, last⟩ := s'
  · rfl
  · rfl

end OsCredentialFailureState

theorem Spaced.concat {failures : List Int} (h : Spaced failures) {t : Int}
    (hlast : ∀ l, failures.getLast? = some l → l + backoffMs failures.length ≤ t) :
    Spaced (failures ++ [t]) := by
  intro i l t' hl ht'
  have hlt : i + 1 < (failures ++ [t]).length := (List.getElem?_eq_some_iff.mp ht').1
  rw [List.length_append, List.length_singleton] at hlt
  rw [List.getElem?_append_left (by omega)] at hl
  by_cases hi : i + 1 < failures.length
  · rw [List.getElem?_append_left hi] at ht'
    exact h i l t' hl ht'
  · have hend : i + 1 = failures.length := by omega
    rw [hend, List.getElem?_concat_length] at ht'
    obtain rfl := Option.some.inj ht'
    rw [hend]
    apply hlast
    rw [List.getLast?_eq_getElem?, ← hend]
    exact hl

/-- The waiting times of the failures before the `n`-th add up. -/
theorem Spaced.sum_le {failures : List Int} (h : Spaced failures) {n : Nat} {first t : Int}
    (hfirst : failures[0]? = some first) (ht : failures[n]? = some t) :
    first + ∑ k ∈ Finset.range n, backoffMs (k + 1) ≤ t := by
  induction n generalizing t with
  | zero =>
    obtain rfl := Option.some.inj (hfirst.symm.trans ht)
    rw [Finset.sum_range_zero, add_zero]
  | succ n ih =>
    have hlt : n + 1 < failures.length := (List.getElem?_eq_some_iff.mp ht).1
    have hprior : failures[n]? = some failures[n] := List.getElem?_eq_getElem (by omega)
    have hgap := h n _ t hprior ht
    have hsum := ih hprior
    rw [Finset.sum_range_succ]
    omega

namespace Watch

variable {w : Watch} {nowMs : Int}

theorem settle_state (w : Watch) (nowMs : Int) : (w.settle nowMs).state =
    { w.state.resetTotalsOnIdle nowMs with
      backoffUntilMs := (w.state.resetTotalsOnIdle nowMs).backoffUntilMs.filter (nowMs < ·) } :=
  OsCredentialFailureState.normalizeBackoff_eq nowMs _

theorem settle_idle (h : w.state.idleElapsed nowMs = true) :
    (w.settle nowMs).state = {} ∧ (w.settle nowMs).failures = [] := by
  refine ⟨?_, if_pos h⟩
  rw [settle_state, OsCredentialFailureState.resetTotalsOnIdle, if_pos h]
  rfl

theorem settle_busy (h : w.state.idleElapsed nowMs = false) :
    (w.settle nowMs).state =
      { w.state with backoffUntilMs := w.state.backoffUntilMs.filter (nowMs < ·) } ∧
      (w.settle nowMs).failures = w.failures := by
  refine ⟨?_, if_neg (by rw [h]; exact Bool.false_ne_true)⟩
  rw [settle_state, OsCredentialFailureState.resetTotalsOnIdle,
    if_neg (by rw [h]; exact Bool.false_ne_true)]

theorem kept_of_empty {w : Watch} (hstate : w.state = {}) (hfailures : w.failures = []) : w.Kept := by
  constructor
  · rw [hstate, hfailures]
    rfl
  · rw [hstate, hfailures]
    rfl
  · rw [hfailures]
    exact nofun
  · rw [hstate]
    exact nofun
  · rw [hfailures]
    exact fun _ => nofun
  · rw [hfailures]
    exact nofun
  · intro _
    rw [hstate]

theorem Kept.settle (h : w.Kept) (hclock : w.clock ≤ nowMs) : (w.settle nowMs).Kept := by
  cases hidle : w.state.idleElapsed nowMs with
  | true =>
    obtain ⟨hstate, hfailures⟩ := settle_idle hidle
    exact kept_of_empty hstate hfailures
  | false =>
    obtain ⟨hstate, hfailures⟩ := settle_busy hidle
    constructor
    · rw [hstate, hfailures]
      exact h.count
    · rw [hstate, hfailures]
      exact h.last
    · rw [hfailures]
      intro l hl
      exact (h.past l hl).trans hclock
    · rw [hstate, hfailures]
      intro u hu
      exact h.waiting u (Option.filter_eq_some_iff.mp hu).1
    · rw [hstate, hfailures]
      intro hnone l hl
      change l + backoffMs w.failures.length ≤ nowMs
      cases hu : w.state.backoffUntilMs with
      | none => exact (h.ended hu l hl).trans hclock
      | some u =>
        obtain ⟨l', hl', rfl⟩ := h.waiting u hu
        obtain rfl := Option.some.inj (hl.symm.trans hl')
        have hover := Option.filter_eq_none_iff.mp hnone _ hu
        exact not_lt.mp (by simpa using hover)
    · rw [hfailures]
      exact h.spaced
    · rw [hstate]
      intro hallowed
      change w.state.backoffUntilMs.filter _ = none
      rw [h.allowed hallowed]
      rfl

/-- An evaluation allows a login when nothing is left to wait for. -/
theorem allowed_iff : (w.state.evaluateOsCredentialPolicy .terminalOsLogin nowMs).2.allowed = true ↔
    (w.settle nowMs).state.backoffUntilMs = none := by
  rw [OsCredentialFailureState.evaluate_eq, settle]
  dsimp only
  cases ((w.state.resetTotalsOnIdle nowMs).normalizeBackoff nowMs).backoffUntilMs with
  | none => exact ⟨fun _ => rfl, fun _ => rfl⟩
  | some untilMs => exact ⟨nofun, nofun⟩

theorem Kept.evaluate (h : w.Kept) (hclock : w.clock ≤ nowMs) :
    (w.step (.evaluate .terminalOsLogin nowMs)).Kept := by
  have hs := h.settle hclock
  have hstate : (w.step (.evaluate .terminalOsLogin nowMs)).state = (w.settle nowMs).state := by
    change (w.state.evaluateOsCredentialPolicy .terminalOsLogin nowMs).1 = _
    rw [OsCredentialFailureState.evaluate_eq]
    rfl
  constructor
  · rw [hstate]
    exact hs.count
  · rw [hstate]
    exact hs.last
  · exact hs.past
  · rw [hstate]
    exact hs.waiting
  · rw [hstate]
    exact hs.ended
  · exact hs.spaced
  · intro hallowed
    rw [hstate, ← allowed_iff]
    by_contra hblocked
    exact hallowed (if_neg hblocked)

/-- The count that the next failure makes is that of the failures with it. -/
theorem Kept.next_count (h : w.Kept) (t : Int) :
    saturatingAdd w.state.totalFailures 1 = min ((w.failures ++ [t]).length : Int) (2 ^ 31 - 1) := by
  rw [h.count, List.length_append, List.length_singleton]
  unfold saturatingAdd
  omega

theorem Kept.next_backoff (h : w.Kept) (t : Int) :
    osCredentialLoginBackoffSeconds (saturatingAdd w.state.totalFailures 1) * 1000 =
      backoffMs (w.failures ++ [t]).length := by
  rw [h.next_count t, backoffSeconds_saturated]
  rfl

theorem Kept.record (h : w.Kept) (hclock : w.clock ≤ nowMs) (hallowed : w.allowedAt = some nowMs) :
    (w.step (.record .terminalOsLogin nowMs)).Kept := by
  have hs := h.settle hclock
  have huntil : (w.settle nowMs).state.backoffUntilMs = none :=
    hs.allowed (by rw [Watch.settle, hallowed]; exact Option.some_ne_none nowMs)
  have hbackoff := hs.next_backoff nowMs
  have hnonneg := backoffSeconds_nonneg (saturatingAdd (w.settle nowMs).state.totalFailures 1)
  -- The state that the failure leaves.
  have hstate : (w.step (.record .terminalOsLogin nowMs)).state =
      { totalFailures := saturatingAdd (w.settle nowMs).state.totalFailures 1
        lastFailureMs := some nowMs
        backoffUntilMs :=
          if 0 < osCredentialLoginBackoffSeconds
              (saturatingAdd (w.settle nowMs).state.totalFailures 1) then
            some (nowMs + osCredentialLoginBackoffSeconds
              (saturatingAdd (w.settle nowMs).state.totalFailures 1) * 1000)
          else (w.settle nowMs).state.backoffUntilMs } := rfl
  have hfailures : (w.step (.record .terminalOsLogin nowMs)).failures =
      (w.settle nowMs).failures ++ [nowMs] := rfl
  have hlast : ((w.settle nowMs).failures ++ [nowMs]).getLast? = some nowMs := List.getLast?_concat
  constructor
  · rw [hstate, hfailures]
    exact hs.next_count nowMs
  · rw [hstate, hfailures, hlast]
  · rw [hfailures, hlast]
    intro l hl
    exact (Option.some.inj hl).ge
  · rw [hstate, hfailures, hlast, huntil]
    intro u hu
    dsimp only at hu
    split_ifs at hu
    exact ⟨nowMs, rfl, by rw [← hbackoff]; exact (Option.some.inj hu).symm⟩
  · rw [hstate, hfailures, hlast, huntil]
    intro hu l hl
    dsimp only at hu
    split_ifs at hu
    rw [← hbackoff]
    have hl := Option.some.inj hl
    change l + _ ≤ nowMs
    omega
  · rw [hfailures]
    exact hs.spaced.concat (hs.ended huntil)
  · exact fun hnone => absurd rfl hnone

theorem Kept.tick (h : w.Kept) (hclock : w.clock ≤ nowMs) : Kept { w with clock := nowMs } := by
  obtain ⟨hcount, hlast, hpast, hwaiting, hover, hspaced, hallowed⟩ := h
  refine ⟨hcount, hlast, ?_, hwaiting, ?_, hspaced, hallowed⟩
  · intro l hl
    exact (hpast l hl).trans hclock
  · intro hnone l hl
    exact (hover hnone l hl).trans hclock

theorem Kept.step (w : Watch) (e : Event) (h : w.Kept) (he : w.Admissible e) : (w.step e).Kept := by
  cases e with
  | evaluate scope nowMs =>
    cases scope with
    | terminalOsLogin => exact h.evaluate he
    | default => exact h.tick he
  | record scope nowMs =>
    cases scope with
    | terminalOsLogin => exact h.record he.1 (he.2 rfl)
    | default => exact h.tick he.1

theorem idleElapsed_iff {l : Int} (hl : w.state.lastFailureMs = some l) :
    w.state.idleElapsed nowMs = true ↔ totalIdleResetMs ≤ nowMs - l := by
  unfold OsCredentialFailureState.idleElapsed
  rw [hl, Option.any_some, decide_eq_true_eq, idle_le_saturatingSub]

theorem Kept.backoff_eq (h : w.Kept) :
    osCredentialLoginBackoffSeconds w.state.totalFailures * 1000 = backoffMs w.failures.length := by
  rw [h.count, backoffSeconds_saturated]
  rfl

theorem Kept.blocked_iff (h : w.Kept) (hclock : w.clock ≤ nowMs) :
    (w.state.evaluateOsCredentialPolicy .terminalOsLogin nowMs).2.allowed = false ↔
      ∃ l, w.state.lastFailureMs = some l ∧
        nowMs < l + osCredentialLoginBackoffSeconds w.state.totalFailures * 1000 ∧
        nowMs - l < totalIdleResetMs := by
  have hs := h.settle hclock
  rw [← Bool.not_eq_true, allowed_iff, h.backoff_eq, h.last]
  constructor
  · intro hblocked
    obtain ⟨u, hu⟩ := Option.ne_none_iff_exists'.mp hblocked
    cases hidle : w.state.idleElapsed nowMs with
    | true =>
      rw [(settle_idle hidle).1] at hu
      cases hu
    | false =>
      obtain ⟨hstate, hfailures⟩ := settle_busy hidle
      obtain ⟨l, hl, hul⟩ := hs.waiting u hu
      rw [hfailures] at hl hul
      rw [hstate] at hu
      have hlt : nowMs < u := by simpa using (Option.filter_eq_some_iff.mp hu).2
      have hrecent : ¬ totalIdleResetMs ≤ nowMs - l := by
        rw [← idleElapsed_iff (h.last.trans hl), hidle]
        exact Bool.false_ne_true
      exact ⟨l, hl, hul ▸ hlt, not_le.mp hrecent⟩
  · rintro ⟨l, hl, hlt, hrecent⟩ hnone
    have hidle : w.state.idleElapsed nowMs = false := by
      rw [← Bool.not_eq_true, idleElapsed_iff (h.last.trans hl)]
      exact not_le.mpr hrecent
    have hfailures := (settle_busy hidle).2
    have hover := hs.ended hnone l (by rw [hfailures]; exact hl)
    rw [hfailures] at hover
    exact absurd hlt (not_lt.mpr hover)

/-- As long as the waiting time lasts, and when it is just over, the count stays. -/
theorem count_stays {l : Int} (hl : w.state.lastFailureMs = some l)
    (hwait : nowMs ≤ l + osCredentialLoginBackoffSeconds w.state.totalFailures * 1000) :
    (w.state.evaluateOsCredentialPolicy .terminalOsLogin nowMs).1.totalFailures =
      w.state.totalFailures := by
  have hlt := backoff_lt_idle w.state.totalFailures
  have hidle : w.state.idleElapsed nowMs = false := by
    rw [← Bool.not_eq_true, idleElapsed_iff hl]
    omega
  rw [OsCredentialFailureState.evaluate_eq]
  change (w.settle nowMs).state.totalFailures = _
  rw [(settle_busy hidle).1]

end Watch

/-! ### Every run -/

/-- What holds of a state that a run reaches. -/
structure BacksOff (w : Watch) : Prop where
  spacing : ∀ n first t, w.failures[0]? = some first → w.failures[n]? = some t →
    first + ∑ k ∈ Finset.range n, backoffMs (k + 1) ≤ t
  count : w.state.totalFailures = min (w.failures.length : Int) (2 ^ 31 - 1)
  blocks : ∀ nowMs, w.clock ≤ nowMs →
    ((w.state.evaluateOsCredentialPolicy .terminalOsLogin nowMs).2.allowed = false ↔
      ∃ l, w.state.lastFailureMs = some l ∧
        nowMs < l + osCredentialLoginBackoffSeconds w.state.totalFailures * 1000 ∧
        nowMs - l < totalIdleResetMs)
  waits : ∀ l nowMs, w.state.lastFailureMs = some l →
    nowMs ≤ l + osCredentialLoginBackoffSeconds w.state.totalFailures * 1000 →
    (w.state.evaluateOsCredentialPolicy .terminalOsLogin nowMs).1.totalFailures =
      w.state.totalFailures
  noOverflow : ∀ nowMs, w.clock ≤ nowMs → -2 ^ 63 ≤ nowMs → nowMs < 2 ^ 63 - 1800000 →
    backoffUntilChecked nowMs (saturatingAdd (w.settle nowMs).state.totalFailures 1) =
        some (nowMs + osCredentialLoginBackoffSeconds
          (saturatingAdd (w.settle nowMs).state.totalFailures 1) * 1000) ∧
      ∀ u, (w.settle nowMs).state.backoffUntilMs = some u →
        remainingSecondsChecked u nowMs = some (remainingSeconds u nowMs)

theorem backsOff_of_kept {w : Watch} (h : w.Kept) : BacksOff w := by
  constructor
  · intro n first t hfirst ht
    exact h.spaced.sum_le hfirst ht
  · exact h.count
  · intro nowMs hclock
    exact h.blocked_iff hclock
  · intro l nowMs hl hwait
    exact Watch.count_stays hl hwait
  · intro nowMs hclock hlow hhigh
    have hs := h.settle hclock
    constructor
    · apply backoffUntilChecked_eq _ hlow hhigh
      unfold saturatingAdd
      omega
    · intro u hu
      obtain ⟨l, hl, rfl⟩ := hs.waiting u hu
      have hpast : l ≤ nowMs := hs.past l hl
      have hmax := backoffSeconds_le (w.settle nowMs).failures.length
      unfold backoffMaxSeconds at hmax
      unfold backoffMs at hu ⊢
      rw [Watch.settle_state] at hu
      have hlt : nowMs < l + osCredentialLoginBackoffSeconds (w.settle nowMs).failures.length * 1000 := by
        simpa using (Option.filter_eq_some_iff.mp hu).2
      exact remainingSecondsChecked_eq (by omega) hlt

/-- Whoever tries as soon as it is allowed waits longer and longer. -/
theorem os_credential_backoff (start : Int) (events : List Event)
    (hrun : Guarded Watch.step Watch.Admissible { clock := start } events) :
    Throughout Watch.step BacksOff { clock := start } events ∧
      Monotone osCredentialLoginBackoffSeconds ∧
      (∀ n, osCredentialLoginBackoffSeconds n ≤ backoffMaxSeconds ∧
        osCredentialLoginBackoffSeconds n * 1000 < totalIdleResetMs) ∧
      ∀ n < 2 ^ 31, backoffSecondsChecked n = some (osCredentialLoginBackoffSeconds n) := by
  have hstart : Watch.Kept { clock := start } := Watch.kept_of_empty rfl rfl
  refine ⟨?_, fun _ _ => backoffSeconds_mono, fun n => ⟨backoffSeconds_le n, backoff_lt_idle n⟩,
    fun n => backoffSecondsChecked_eq⟩
  have hkept := throughout_of_guarded Watch.Kept.step hstart hrun
  exact throughout_imp (fun _ => backsOff_of_kept) hkept

/-- A failed login at `nowMs`. -/
def attempt (nowMs : Int) : List Event :=
  [.evaluate .terminalOsLogin nowMs, .record .terminalOsLogin nowMs]

/-- Three failures at once, an evaluation too early, and two failures that waited. -/
def patient : List Event :=
  attempt 0 ++ attempt 0 ++ attempt 0 ++ [Event.evaluate .terminalOsLogin 14999] ++ attempt 15000 ++
    attempt 45000

theorem os_credential_backoff_patient :
    Guarded Watch.step Watch.Admissible { clock := 0 } patient ∧
      (History.run Watch.step { clock := 0 } patient).failures = [0, 0, 0, 15000, 45000] ∧
      Throughout Watch.step BacksOff { clock := 0 } patient := by
  have hrun : Guarded Watch.step Watch.Admissible { clock := 0 } patient := by decide +kernel
  exact ⟨hrun, by decide +kernel, (os_credential_backoff 0 patient hrun).1⟩

end RustDesk.OsCredential
