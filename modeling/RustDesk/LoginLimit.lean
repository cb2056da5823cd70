import RustDesk.History
import Mathlib.Algebra.BigOperators.Group.Finset.Basic
import Mathlib.Algebra.Order.BigOperators.Group.Finset

/-!
# The limit on wrong passwords

`LOGIN_FAILURES` holds one entry for each address, and for an IPv6 address one for each of
its /64, /56 and /48 blocks. A password attempt checks the entries, evaluates the password
and updates the entries. The three are separate critical sections, so attempts of other
connections come between them, and the minute of an attempt is the one that its check read.

A key of the map is the text of the address or of the block; here it is the address or the
block itself.
-/

namespace RustDesk.LoginLimit

inductive Ip
  | v4 (octets : BitVec 32)
  | v6 (octets : BitVec 128)
  deriving DecidableEq, Repr

inductive Block
  | p64
  | p56
  | p48
  deriving DecidableEq, Repr

def Block.prefixNum : Block → Nat
  | .p64 => 64
  | .p56 => 56
  | .p48 => 48

inductive Key
  | ip (a : Ip)
  | block (p : Block) (masked : BitVec 128)
  deriving DecidableEq, Repr

def maskU128 (addr : BitVec 128) (len : Nat) : BitVec 128 :=
  let mask : BitVec 128 := if len = 0 ∨ 128 < len then 0 else BitVec.allOnes 128 <<< (128 - len)
  addr &&& mask

/-- `get_ipv6_prefixes`, as a list. -/
def getIpv6Prefixes : Ip → List (Block × Key)
  | .v4 _ => []
  | .v6 a => [.p64, .p56, .p48].map fun p => (p, .block p (maskU128 a p.prefixNum))

/-- The entries that an attempt from the address bumps or removes. -/
def keysOf (a : Ip) : List Key := (getIpv6Prefixes a).map (·.2) ++ [.ip a]

/-- `(minute, failures in that minute, failures)` -/
structure Failure where
  minute : Int := 0
  inMinute : Int := 0
  total : Int := 0
  deriving DecidableEq, Repr

def bumpFailureEntry (cur : Failure) (time : Int) : Failure :=
  if cur.minute = time then { cur with inMinute := cur.inMinute + 1, total := cur.total + 1 }
  else { minute := time, inMinute := 1, total := cur.total + 1 }

/-- The failures above which a block is refused. -/
def Block.thresh : Block → Int
  | .p64 => 60
  | .p56 => 80
  | .p48 => 100

abbrev Failures := Key → Option Failure

namespace Failures

def get (m : Failures) (key : Key) : Failure := (m key).getD {}

def bump (time : Int) (m : Failures) (key : Key) : Failures :=
  Function.update m key (some (bumpFailureEntry (m.get key) time))

def remove (m : Failures) (key : Key) : Failures := Function.update m key none

/-- `check_failure_ipv6_prefix` for the blocks in order: the first refusal. -/
def checkPrefixes (m : Failures) : List (Block × Key) → Option String
  | [] => none
  | (p, key) :: rest =>
    if p.thresh < (m.get key).total then
      some ("Too many wrong attempts for IPv6 prefix /" ++ toString p.prefixNum)
    else checkPrefixes m rest

/-- `check_failure`: the refusal that is sent, or the entry that was read. -/
def checkFailure (a : Ip) (time : Int) (m : Failures) : Except String Failure :=
  match m.checkPrefixes (getIpv6Prefixes a) with
  | some error => .error error
  | none =>
    let failure := m.get (.ip a)
    if 30 < failure.total then .error "Too many wrong attempts"
    else if time = failure.minute ∧ 6 < failure.inMinute then .error "Please try 1 minute later"
    else .ok failure

def updateFailure (a : Ip) (failure : Failure) (time : Int) (success : Bool) (m : Failures) :
    Failures :=
  if success then
    if failure.minute ≠ 0 then (keysOf a).foldl remove m else m
  else (keysOf a).foldl (bump time) m

end Failures

abbrev ConnId := Nat

/-- An attempt in flight: the entry and the minute of its check, and the result of the
password once it was evaluated. -/
structure Attempt where
  failure : Failure
  time : Int
  result : Option Bool := none
  deriving DecidableEq, Repr

/-- What was done: a call of `validate_password` with the minute of the check and the minute
of the call, a recorded failure, a removal. -/
inductive Done
  | validated (conn : ConnId) (time now : Int)
  | recorded (conn : ConnId)
  | removed (conn : ConnId)
  deriving DecidableEq, Repr

structure Logins where
  failures : Failures := fun _ => none
  attempts : ConnId → Option Attempt := fun _ => none
  clock : Int := 0
  log : List Done := []

/-- `osAuthFailed` is the attempt that fails at the desktop session, before the password. -/
inductive Event
  | clock (minute : Int)
  | check (conn : ConnId)
  | validate (conn : ConnId) (ok : Bool)
  | update (conn : ConnId)
  | osAuthFailed (conn : ConnId)
  deriving DecidableEq, Repr

namespace Logins

variable (ip : ConnId → Ip)

def check (c : ConnId) (s : Logins) : Logins :=
  match s.attempts c with
  | some _ => s
  | none =>
    match s.failures.checkFailure (ip c) s.clock with
    | .error _ => s
    | .ok failure =>
      { s with attempts := Function.update s.attempts c (some { failure, time := s.clock }) }

def validate (c : ConnId) (ok : Bool) (s : Logins) : Logins :=
  match s.attempts c with
  | some { failure, time, result := none } =>
    { s with
      attempts := Function.update s.attempts c (some { failure, time, result := some ok })
      log := .validated c time s.clock :: s.log }
  | _ => s

/-- The end of an attempt of `c`. -/
def finish (c : ConnId) (failure : Failure) (time : Int) (ok : Bool) (s : Logins) : Logins :=
  { s with
    failures := s.failures.updateFailure (ip c) failure time ok
    attempts := Function.update s.attempts c none
    log := if ok then (if failure.minute ≠ 0 then .removed c :: s.log else s.log)
      else .recorded c :: s.log }

def update (c : ConnId) (s : Logins) : Logins :=
  match s.attempts c with
  | some { failure, time, result := some ok } => s.finish ip c failure time ok
  | _ => s

def osAuthFailed (c : ConnId) (s : Logins) : Logins :=
  match s.attempts c with
  | some { failure, time, result := none } => s.finish ip c failure time false
  | _ => s

def step (s : Logins) : Event → Logins
  | .clock minute => { s with clock := minute }
  | .check c => s.check ip c
  | .validate c ok => s.validate c ok
  | .update c => s.update ip c
  | .osAuthFailed c => s.osAuthFailed ip c

/-! ### Counting -/

/-- The recorded failures of a key since it was last removed. -/
def recordedSince (key : Key) : List Done → Nat
  | [] => 0
  | .validated .. :: log => recordedSince key log
  | .recorded c :: log =>
    if key ∈ keysOf (ip c) then recordedSince key log + 1 else recordedSince key log
  | .removed c :: log => if key ∈ keysOf (ip c) then 0 else recordedSince key log

/-- The calls of `validate_password` for a key, of those whose two minutes meet `p`. -/
def calls (key : Key) (p : Int → Int → Bool) (log : List Done) : Nat :=
  log.countP fun
    | .validated c time now => decide (key ∈ keysOf (ip c)) && p time now
    | .recorded _ | .removed _ => false

end Logins

/-- The failures above which a key is refused. -/
def Key.limit : Key → Int
  | .ip _ => 30
  | .block p _ => p.thresh

/-! ### The entries -/

section Entries

variable {m : Failures} {key : Key} {a : Ip} {time : Int}

theorem nodup_keysOf (a : Ip) : (keysOf a).Nodup := by
  cases a <;> simp [keysOf, getIpv6Prefixes]

theorem total_bump (cur : Failure) (time : Int) :
    (bumpFailureEntry cur time).total = cur.total + 1 := by
  unfold bumpFailureEntry
  split <;> rfl

theorem get_foldl_bump {keys : List Key} (hn : keys.Nodup) :
    (keys.foldl (Failures.bump time) m).get key =
      if key ∈ keys then bumpFailureEntry (m.get key) time else m.get key := by
  induction keys generalizing m with
  | nil => rfl
  | cons k keys ih =>
    obtain ⟨hk, hn⟩ := List.nodup_cons.mp hn
    rw [List.foldl_cons, ih hn]
    by_cases hkey : key = k
    · subst hkey
      rw [if_neg hk, if_pos List.mem_cons_self]
      simp [Failures.bump, Failures.get]
    · have hsame : (m.bump time k).get key = m.get key := by
        simp [Failures.bump, Failures.get, Function.update_of_ne hkey]
      simp only [hsame, List.mem_cons, hkey, false_or]

theorem get_foldl_remove {keys : List Key} :
    (keys.foldl Failures.remove m).get key = if key ∈ keys then {} else m.get key := by
  induction keys generalizing m with
  | nil => rfl
  | cons k keys ih =>
    rw [List.foldl_cons, ih]
    by_cases hkey : key = k
    · subst hkey
      simp [Failures.remove, Failures.get]
    · have hsame : (m.remove k).get key = m.get key := by
        simp [Failures.remove, Failures.get, Function.update_of_ne hkey]
      simp only [hsame, List.mem_cons, hkey, false_or]

theorem checkPrefixes_none {l : List (Block × Key)} (h : m.checkPrefixes l = none) :
    ∀ x ∈ l, (m.get x.2).total ≤ x.1.thresh := by
  induction l with
  | nil => simp
  | cons y l ih =>
    obtain ⟨p, k⟩ := y
    unfold Failures.checkPrefixes at h
    split at h
    · cases h
    · rename_i hle
      intro x hx
      rcases List.mem_cons.mp hx with rfl | hx
      · exact Int.not_lt.mp hle
      · exact ih h x hx

/-- A check that passes has found every entry of the address within its limit. -/
theorem checkFailure_ok {failure : Failure} (h : m.checkFailure a time = .ok failure) :
    (∀ key ∈ keysOf a, (m.get key).total ≤ key.limit) ∧ failure = m.get (.ip a) ∧
      (time = (m.get (.ip a)).minute → (m.get (.ip a)).inMinute ≤ 6) := by
  unfold Failures.checkFailure at h
  split at h
  · cases h
  · rename_i hnone
    have hblocks := checkPrefixes_none hnone
    dsimp only at h
    split at h
    · cases h
    · rename_i htotal
      split at h
      · cases h
      · rename_i hminute
        cases h
        refine ⟨fun key hkey => ?_, rfl, fun ht => ?_⟩
        · unfold keysOf at hkey
          rcases List.mem_append.mp hkey with hkey | hkey
          · obtain ⟨x, hx, rfl⟩ := List.mem_map.mp hkey
            have hlimit : x.2.limit = x.1.thresh := by
              cases a with
              | v4 a => cases hx
              | v6 a =>
                obtain ⟨p, -, rfl⟩ := List.mem_map.mp hx
                rfl
            rw [hlimit]
            exact hblocks x hx
          · rw [List.mem_singleton.mp hkey]
            exact Int.not_lt.mp htotal
        · by_contra hgt
          exact hminute ⟨ht, Int.not_le.mp hgt⟩

end Entries

namespace Logins

section

variable (ip : ConnId → Ip) {s : Logins}

theorem get_finish (c : ConnId) (failure : Failure) (time : Int) (ok : Bool) (key : Key) :
    (s.finish ip c failure time ok).failures.get key =
      if key ∈ keysOf (ip c) then
        if ok then (if failure.minute ≠ 0 then {} else s.failures.get key)
        else bumpFailureEntry (s.failures.get key) time
      else s.failures.get key := by
  unfold finish Failures.updateFailure
  cases ok with
  | false =>
    simp only [Bool.false_eq_true, if_false]
    exact get_foldl_bump (nodup_keysOf _)
  | true =>
    simp only [if_true]
    split
    · exact get_foldl_remove
    · simp

/-- No update of an entry is lost. -/
def Counted (s : Logins) : Prop :=
  ∀ key, (s.failures.get key).total = recordedSince ip key s.log

theorem counted_finish (h : Counted ip s) (c : ConnId) (failure : Failure) (time : Int)
    (ok : Bool) : Counted ip (s.finish ip c failure time ok) := by
  intro key
  have hkey := h key
  rw [get_finish]
  by_cases hmem : key ∈ keysOf (ip c)
  · rw [if_pos hmem]
    cases ok with
    | false =>
      have hlog : recordedSince ip key (s.finish ip c failure time false).log =
          recordedSince ip key s.log + 1 := if_pos hmem
      rw [hlog, if_neg (by simp), total_bump, hkey]
      simp
    | true =>
      by_cases hm : failure.minute ≠ 0
      · have hlog : recordedSince ip key (s.finish ip c failure time true).log = 0 := by
          simp only [finish, if_true, if_pos hm]
          exact if_pos hmem
        rw [hlog, if_pos rfl, if_pos hm]
        rfl
      · have hlog : (s.finish ip c failure time true).log = s.log := by
          simp only [finish, if_true, if_neg hm]
        rw [hlog, if_pos rfl, if_neg hm]
        exact hkey
  · rw [if_neg hmem]
    have hlog : recordedSince ip key (s.finish ip c failure time ok).log =
        recordedSince ip key s.log := by
      simp only [finish]
      split
      · split
        · exact if_neg hmem
        · rfl
      · exact if_neg hmem
    rw [hlog]
    exact hkey

/-- What a step can do. -/
inductive Moved (s : Logins) (ev : Event) : Logins → Prop
  | stays (minute : Int) : (ev = .clock minute ∨ minute = s.clock) →
      Moved s ev { s with clock := minute }
  | starts (c : ConnId) (failure : Failure) : ev = .check c → s.attempts c = none →
      s.failures.checkFailure (ip c) s.clock = .ok failure →
      Moved s ev { s with
        attempts := Function.update s.attempts c (some { failure, time := s.clock }) }
  | calls (c : ConnId) (a : Attempt) (ok : Bool) : ev = .validate c ok → s.attempts c = some a →
      a.result = none →
      Moved s ev { s with
        attempts := Function.update s.attempts c (some { a with result := some ok })
        log := .validated c a.time s.clock :: s.log }
  | ends (c : ConnId) (a : Attempt) (ok : Bool) :
      (ev = .update c ∧ a.result = some ok ∨
        ev = .osAuthFailed c ∧ a.result = none ∧ ok = false) →
      s.attempts c = some a → Moved s ev (s.finish ip c a.failure a.time ok)

theorem step_moved (s : Logins) (ev : Event) : Moved ip s ev (s.step ip ev) := by
  have hsame : Moved ip s ev s := .stays s.clock (.inr rfl)
  cases ev with
  | clock minute => exact .stays minute (.inl rfl)
  | check c =>
    dsimp only [step]
    unfold check
    split
    · exact hsame
    · rename_i hnone
      split
      · exact hsame
      · rename_i failure hok
        exact .starts c failure rfl hnone hok
  | validate c ok =>
    dsimp only [step]
    unfold validate
    split
    · rename_i failure time hsome
      exact .calls c _ ok rfl hsome rfl
    · exact hsame
  | update c =>
    dsimp only [step]
    unfold update
    split
    · rename_i failure time ok hsome
      exact .ends c _ ok (.inl ⟨rfl, rfl⟩) hsome
    · exact hsame
  | osAuthFailed c =>
    dsimp only [step]
    unfold osAuthFailed
    split
    · rename_i failure time hsome
      exact .ends c _ false (.inr ⟨rfl, rfl, rfl⟩) hsome
    · exact hsame

theorem counted_step (h : Counted ip s) (ev : Event) : Counted ip (s.step ip ev) := by
  have hmoved := step_moved ip s ev
  generalize s.step ip ev = s' at hmoved
  cases hmoved with
  | stays minute => exact h
  | starts c failure => exact h
  | calls c a ok => exact h
  | ends c a ok => exact counted_finish ip h c a.failure a.time ok

theorem counted_run (minute : Int) (evs : List Event) :
    Counted ip (History.run (step ip) { clock := minute } evs) := by
  have hstart : Counted ip { clock := minute } := fun key => rfl
  generalize ({ clock := minute } : Logins) = s at hstart
  induction evs generalizing s with
  | nil => exact hstart
  | cons ev evs ih => exact ih _ (counted_step ip hstart ev)

/-! ### The limit for several connections -/

/-- The attempt has passed its check and not called `validate_password`. -/
def awaitsCall : Option Attempt → Nat
  | some { result := none, .. } => 1
  | _ => 0

/-- The attempt has called `validate_password` and not been recorded. -/
def awaitsUpdate : Option Attempt → Nat
  | some { result := some _, .. } => 1
  | _ => 0

theorem awaits_none : awaitsCall none = 0 ∧ awaitsUpdate none = 0 := ⟨rfl, rfl⟩

theorem awaits_started (failure : Failure) (time : Int) :
    awaitsCall (some { failure, time }) = 1 ∧ awaitsUpdate (some { failure, time }) = 0 := ⟨rfl, rfl⟩

theorem awaits_called (a : Attempt) (ok : Bool) :
    awaitsCall (some { a with result := some ok }) = 0 ∧
      awaitsUpdate (some { a with result := some ok }) = 1 := ⟨rfl, rfl⟩

theorem awaits_le_one (a : Option Attempt) : awaitsCall a + awaitsUpdate a ≤ 1 := by
  rcases a with _ | ⟨_, _, _ | _⟩ <;> simp [awaitsCall, awaitsUpdate]

theorem sum_attempts_update {S : Finset ConnId} {c : ConnId} (hc : c ∈ S)
    (f : Option Attempt → Nat) (attempts : ConnId → Option Attempt) (a : Option Attempt) :
    ∑ x ∈ S, f (Function.update attempts c a x) + f (attempts c) =
      ∑ x ∈ S, f (attempts x) + f a := by
  have hrest : ∑ x ∈ S.erase c, f (Function.update attempts c a x) =
      ∑ x ∈ S.erase c, f (attempts x) :=
    Finset.sum_congr rfl fun x hx => by
      rw [Function.update_of_ne (Finset.ne_of_mem_erase hx)]
  have hnew := Finset.add_sum_erase S (fun x => f (Function.update attempts c a x)) hc
  have hold := Finset.add_sum_erase S (fun x => f (attempts x)) hc
  simp only [Function.update_self] at hnew
  omega

theorem sum_attempts_of_notMem {S : Finset ConnId} {c : ConnId} (hc : c ∉ S)
    (f : Option Attempt → Nat) (attempts : ConnId → Option Attempt) (a : Option Attempt) :
    ∑ x ∈ S, f (Function.update attempts c a x) = ∑ x ∈ S, f (attempts x) :=
  Finset.sum_congr rfl fun x hx => by
    rw [Function.update_of_ne fun hxc => hc (by rw [← hxc]; exact hx)]

theorem sum_awaits_lt {S : Finset ConnId} {c : ConnId} (hc : c ∈ S)
    {attempts : ConnId → Option Attempt} (hnone : attempts c = none) :
    ∑ x ∈ S, awaitsCall (attempts x) + ∑ x ∈ S, awaitsUpdate (attempts x) + 1 ≤ S.card := by
  rw [← Finset.sum_add_distrib, ← Finset.add_sum_erase S _ hc, hnone]
  have hle : ∑ x ∈ S.erase c, (awaitsCall (attempts x) + awaitsUpdate (attempts x)) ≤
      ∑ _x ∈ S.erase c, 1 := Finset.sum_le_sum fun x _ => awaits_le_one (attempts x)
  rw [← Finset.card_eq_sum_ones, Finset.card_erase_of_mem hc] at hle
  have hpos := Finset.card_pos.mpr ⟨c, hc⟩
  rw [awaits_none.1, awaits_none.2]
  omega

theorem update_eq_some {attempts : ConnId → Option Attempt} {c d : ConnId} {v : Option Attempt}
    {a : Attempt} (h : Function.update attempts c v d = some a) :
    d = c ∧ v = some a ∨ attempts d = some a := by
  by_cases hdc : d = c
  · subst hdc
    rw [Function.update_self] at h
    exact .inl ⟨rfl, h⟩
  · rw [Function.update_of_ne hdc] at h
    exact .inr h

/-- All calls of a key. -/
def allCalls (key : Key) (log : List Done) : Nat := calls ip key (fun _ _ => true) log

/-- The connections of `S` are those of the key that act, and none of them succeeds. -/
structure Bounded (key : Key) (S : Finset ConnId) (s : Logins) : Prop where
  inside : ∀ c a, s.attempts c = some a → key ∈ keysOf (ip c) → c ∈ S
  failing : ∀ c a ok, s.attempts c = some a → a.result = some ok → key ∈ keysOf (ip c) → ok = false
  counted : (allCalls ip key s.log : Int) ≤
    (s.failures.get key).total + (∑ c ∈ S, awaitsUpdate (s.attempts c) : Nat)
  limited : (allCalls ip key s.log : Int) + (∑ c ∈ S, awaitsCall (s.attempts c) : Nat) ≤
    key.limit + S.card

/-- The connection of an event. -/
def Event.conn : Event → Option ConnId
  | .clock _ => none
  | .check c | .validate c _ | .update c | .osAuthFailed c => some c

/-- A connection of the key that acts is one of `S`, and does not succeed. -/
def Within (key : Key) (S : Finset ConnId) (ev : Event) : Prop :=
  ∀ c, Event.conn ev = some c → key ∈ keysOf (ip c) → c ∈ S ∧ ev ≠ .validate c true

theorem calls_validated (key : Key) (p : Int → Int → Bool) (c : ConnId) (time now : Int)
    (log : List Done) :
    calls ip key p (.validated c time now :: log) =
      calls ip key p log + if key ∈ keysOf (ip c) ∧ p time now = true then 1 else 0 := by
  unfold calls
  rw [List.countP_cons]
  simp

theorem calls_finish (key : Key) (p : Int → Int → Bool) (c : ConnId) (failure : Failure)
    (time : Int) (ok : Bool) :
    calls ip key p (s.finish ip c failure time ok).log = calls ip key p s.log := by
  unfold finish calls
  cases ok with
  | false => simp
  | true =>
    simp only [if_true]
    split
    · simp
    · rfl

section Bounded

variable {key : Key} {S : Finset ConnId}

theorem bounded_starts {c : ConnId} {failure : Failure} (hS : ∀ c ∈ S, key ∈ keysOf (ip c))
    (h : Bounded ip key S s) (hev : Within ip key S (.check c)) (hnone : s.attempts c = none)
    (hok : s.failures.checkFailure (ip c) s.clock = .ok failure) :
    Bounded ip key S
      { s with attempts := Function.update s.attempts c (some { failure, time := s.clock }) } := by
  obtain ⟨hle, -, -⟩ := checkFailure_ok hok
  have hcounted := h.counted
  have hlimited := h.limited
  refine ⟨fun d a hd hkey => ?_, fun d a ok hd hres hkey => ?_, ?_, ?_⟩
  · rcases update_eq_some hd with ⟨rfl, -⟩ | hd
    · exact (hev d rfl hkey).1
    · exact h.inside d a hd hkey
  · rcases update_eq_some hd with ⟨-, hd⟩ | hd
    · cases hd
      cases hres
    · exact h.failing d a ok hd hres hkey
  · by_cases hc : c ∈ S
    · have hsum := sum_attempts_update hc awaitsUpdate s.attempts
        (some { failure, time := s.clock })
      rw [hnone, awaits_none.2, (awaits_started failure s.clock).2] at hsum
      dsimp only
      rw [Nat.add_zero, Nat.add_zero] at hsum
      rw [hsum]
      exact hcounted
    · dsimp only
      rw [sum_attempts_of_notMem hc]
      exact hcounted
  · by_cases hc : c ∈ S
    · have hsum := sum_attempts_update hc awaitsCall s.attempts
        (some { failure, time := s.clock })
      have hroom := sum_awaits_lt hc hnone
      have htotal := hle key (hS c hc)
      rw [hnone, awaits_none.1, (awaits_started failure s.clock).1] at hsum
      dsimp only
      rw [Nat.add_zero] at hsum
      rw [hsum]
      omega
    · dsimp only
      rw [sum_attempts_of_notMem hc]
      exact hlimited

theorem bounded_calls {c : ConnId} {a : Attempt} {ok : Bool} (hS : ∀ c ∈ S, key ∈ keysOf (ip c))
    (h : Bounded ip key S s) (hev : Within ip key S (.validate c ok))
    (hsome : s.attempts c = some a) (hres : a.result = none) :
    Bounded ip key S { s with
      attempts := Function.update s.attempts c (some { a with result := some ok })
      log := .validated c a.time s.clock :: s.log } := by
  have hcounted := h.counted
  have hlimited := h.limited
  have hcall : awaitsCall (s.attempts c) = 1 ∧ awaitsUpdate (s.attempts c) = 0 := by
    obtain ⟨failure, time, result⟩ := a
    cases hres
    rw [hsome]
    exact ⟨rfl, rfl⟩
  refine ⟨fun d x hd hkey => ?_, fun d x ok' hd hres' hkey => ?_, ?_, ?_⟩
  · rcases update_eq_some hd with ⟨rfl, -⟩ | hd
    · exact (hev d rfl hkey).1
    · exact h.inside d x hd hkey
  · rcases update_eq_some hd with ⟨rfl, hv⟩ | hd
    · cases hv
      cases hres'
      have hne := (hev d rfl hkey).2
      cases ok with
      | false => rfl
      | true => exact absurd rfl hne
    · exact h.failing d x ok' hd hres' hkey
  · dsimp only
    rw [allCalls, calls_validated]
    change (allCalls ip key s.log : Int) ≤ _ at hcounted
    by_cases hkey : key ∈ keysOf (ip c)
    · have hc := (hev c rfl hkey).1
      have hsum := sum_attempts_update hc awaitsUpdate s.attempts (some { a with result := some ok })
      rw [hcall.2, (awaits_called a ok).2, Nat.add_zero] at hsum
      rw [hsum, if_pos ⟨hkey, rfl⟩]
      unfold allCalls at hcounted
      omega
    · have hc : c ∉ S := fun hc => hkey (hS c hc)
      rw [sum_attempts_of_notMem hc, if_neg fun hx => hkey hx.1]
      exact hcounted
  · dsimp only
    rw [allCalls, calls_validated]
    by_cases hkey : key ∈ keysOf (ip c)
    · have hc := (hev c rfl hkey).1
      have hsum := sum_attempts_update hc awaitsCall s.attempts (some { a with result := some ok })
      rw [hcall.1, (awaits_called a ok).1] at hsum
      rw [if_pos ⟨hkey, rfl⟩]
      unfold allCalls at hlimited
      omega
    · have hc : c ∉ S := fun hc => hkey (hS c hc)
      rw [sum_attempts_of_notMem hc, if_neg fun hx => hkey hx.1]
      exact hlimited

theorem bounded_ends {c : ConnId} {a : Attempt} {ok : Bool} (hS : ∀ c ∈ S, key ∈ keysOf (ip c))
    (h : Bounded ip key S s) (hin : key ∈ keysOf (ip c) → c ∈ S)
    (hfail : key ∈ keysOf (ip c) → ok = false) :
    Bounded ip key S (s.finish ip c a.failure a.time ok) := by
  have hcounted := h.counted
  have hlimited := h.limited
  have hold : ∀ d x, (s.finish ip c a.failure a.time ok).attempts d = some x →
      s.attempts d = some x := by
    intro d x hd
    rcases update_eq_some hd with ⟨-, hd⟩ | hd
    · cases hd
    · exact hd
  have hcalls : allCalls ip key (s.finish ip c a.failure a.time ok).log =
      allCalls ip key s.log := calls_finish ip key _ c a.failure a.time ok
  refine ⟨fun d x hd => h.inside d x (hold d x hd), fun d x ok' hd => h.failing d x ok' (hold d x hd),
    ?_, ?_⟩
  · rw [hcalls, get_finish]
    change _ ≤ _ + ((∑ d ∈ S, awaitsUpdate (Function.update s.attempts c none d) : Nat) : Int)
    by_cases hkey : key ∈ keysOf (ip c)
    · have hc := hin hkey
      have hsum := sum_attempts_update hc awaitsUpdate s.attempts none
      have hone := awaits_le_one (s.attempts c)
      rw [awaits_none.2] at hsum
      rw [hfail hkey, if_pos hkey, if_neg (by simp), total_bump]
      omega
    · have hc : c ∉ S := fun hc => hkey (hS c hc)
      rw [sum_attempts_of_notMem hc, if_neg hkey]
      exact hcounted
  · rw [hcalls]
    change _ + ((∑ d ∈ S, awaitsCall (Function.update s.attempts c none d) : Nat) : Int) ≤ _
    by_cases hc : c ∈ S
    · have hsum := sum_attempts_update hc awaitsCall s.attempts none
      rw [awaits_none.1] at hsum
      omega
    · rw [sum_attempts_of_notMem hc]
      exact hlimited

theorem bounded_step (hS : ∀ c ∈ S, key ∈ keysOf (ip c)) (h : Bounded ip key S s) {ev : Event}
    (hev : Within ip key S ev) : Bounded ip key S (s.step ip ev) := by
  have hmoved := step_moved ip s ev
  generalize s.step ip ev = s' at hmoved
  cases hmoved with
  | stays minute => exact ⟨h.inside, h.failing, h.counted, h.limited⟩
  | starts c failure hev' hnone hok =>
    subst hev'
    exact bounded_starts ip hS h hev hnone hok
  | calls c a ok hev' hsome hres =>
    subst hev'
    exact bounded_calls ip hS h hev hsome hres
  | ends c a ok hev' hsome =>
    have hconn : Event.conn ev = some c := by
      rcases hev' with ⟨rfl, -⟩ | ⟨rfl, -⟩ <;> rfl
    refine bounded_ends ip hS h (fun hkey => (hev c hconn hkey).1) fun hkey => ?_
    rcases hev' with ⟨-, hres⟩ | ⟨-, -, hok⟩
    · exact h.failing c a ok hsome hres hkey
    · exact hok

end Bounded

/-! ### The limit for a minute -/

/-- The calls for the address of `c` whose attempt was checked in the minute. -/
def callsOfMinute (c : ConnId) (t : Int) (log : List Done) : Nat :=
  calls ip (.ip (ip c)) (fun time _ => time == t) log

/-- The calls for the address of `c` that were made in the minute. -/
def callsMadeIn (c : ConnId) (t : Int) (log : List Done) : Nat :=
  calls ip (.ip (ip c)) (fun _ now => now == t) log

/-- The calls made in the minute whose attempt was checked before it. -/
def lateCalls (c : ConnId) (t : Int) (log : List Done) : Nat :=
  calls ip (.ip (ip c)) (fun time now => now == t && decide (time < t)) log

theorem callsMadeIn_le {c : ConnId} {t : Int} {log : List Done}
    (h : ∀ d time now, .validated d time now ∈ log → time ≤ now) :
    callsMadeIn ip c t log ≤ callsOfMinute ip c t log + lateCalls ip c t log := by
  unfold callsMadeIn callsOfMinute lateCalls
  induction log with
  | nil => simp [calls]
  | cons e log ih =>
    have hlog := ih fun d time now hm => h d time now (List.mem_cons_of_mem e hm)
    cases e with
    | validated d time now =>
      have hle := h d time now List.mem_cons_self
      simp only [calls_validated, beq_iff_eq, Bool.and_eq_true, decide_eq_true_eq]
      by_cases hkey : Key.ip (ip c) ∈ keysOf (ip d)
      · by_cases hnow : now = t
        · by_cases htime : time = t
          · simp only [hkey, hnow, htime, and_self, if_true]
            omega
          · have hlt : time < t := by omega
            simp only [hkey, hnow, hlt, and_self, if_true]
            omega
        · simp only [hnow, and_false, if_false]
          omega
      · simp only [hkey, false_and, if_false]
        omega
    | recorded d => exact hlog
    | removed d => exact hlog

/-- The recorded failures of the minute. -/
def recordedIn (c : ConnId) (t : Int) (m : Failures) : Int :=
  if (m.get (.ip (ip c))).minute = t then (m.get (.ip (ip c))).inMinute else 0

/-- `c` is the only connection of its address, and the clock does not go back. -/
structure Paced (c : ConnId) (s : Logins) : Prop where
  failing : ∀ a ok, s.attempts c = some a → a.result = some ok → ok = false
  nonneg : 0 ≤ (s.failures.get (.ip (ip c))).inMinute
  started : ∀ d a, s.attempts d = some a → a.time ≤ s.clock
  ordered : ∀ d time now, .validated d time now ∈ s.log → time ≤ now
  ahead : ∀ t, s.clock < t → callsOfMinute ip c t s.log = 0 ∧ lateCalls ip c t s.log = 0
  seven : ∀ t, callsOfMinute ip c t s.log ≤ 7
  late : ∀ t, lateCalls ip c t s.log ≤ 1
  idle : s.attempts c = none → (callsOfMinute ip c s.clock s.log : Int) ≤
    recordedIn ip c s.clock s.failures
  checked : ∀ a, s.attempts c = some a → a.result = none →
    callsOfMinute ip c a.time s.log ≤ 6 ∧
      (callsOfMinute ip c a.time s.log : Int) ≤ recordedIn ip c a.time s.failures ∧
      (a.time < s.clock → callsOfMinute ip c s.clock s.log = 0 ∧ lateCalls ip c s.clock s.log = 0)
  called : ∀ a ok, s.attempts c = some a → a.result = some ok →
    (callsOfMinute ip c a.time s.log : Int) ≤ recordedIn ip c a.time s.failures + 1 ∧
      (a.time < s.clock → callsOfMinute ip c s.clock s.log = 0)

theorem mem_keysOf_self (a : Ip) : Key.ip a ∈ keysOf a := by
  unfold keysOf
  exact List.mem_append_right _ (List.mem_singleton.mpr rfl)

theorem recordedIn_nonneg {c : ConnId} {m : Failures}
    (h : 0 ≤ (m.get (.ip (ip c))).inMinute) (t : Int) : 0 ≤ recordedIn ip c t m := by
  unfold recordedIn
  split
  · exact h
  · exact Int.le_refl 0

theorem paced_clock {c : ConnId} (h : Paced ip c s) {minute : Int} (hle : s.clock ≤ minute) :
    Paced ip c { s with clock := minute } := by
  rcases Int.lt_or_eq_of_le hle with hlt | rfl
  · obtain ⟨hof, hlate⟩ := h.ahead minute hlt
    exact
      { failing := h.failing
        nonneg := h.nonneg
        started := fun d a hd => Int.le_trans (h.started d a hd) hle
        ordered := h.ordered
        ahead := fun t ht => h.ahead t (Int.lt_trans hlt ht)
        seven := h.seven
        late := h.late
        idle := fun _ => by
          dsimp only
          rw [hof]
          exact recordedIn_nonneg ip h.nonneg minute
        checked := fun a ha hr =>
          ⟨(h.checked a ha hr).1, (h.checked a ha hr).2.1, fun _ => ⟨hof, hlate⟩⟩
        called := fun a ok ha hr => ⟨(h.called a ok ha hr).1, fun _ => hof⟩ }
  · exact h

theorem paced_starts {c d : ConnId} (h : Paced ip c s) (hnone : s.attempts d = none)
    {failure : Failure} (hok : s.failures.checkFailure (ip d) s.clock = .ok failure) :
    Paced ip c { s with
      attempts := Function.update s.attempts d (some { failure, time := s.clock }) } where
  failing a ok ha hr := by
    rcases update_eq_some ha with ⟨rfl, hv⟩ | ha
    · cases hv
      cases hr
    · exact h.failing a ok ha hr
  nonneg := h.nonneg
  started e a ha := by
    rcases update_eq_some ha with ⟨-, hv⟩ | ha
    · cases hv
      exact Int.le_refl _
    · exact h.started e a ha
  ordered := h.ordered
  ahead := h.ahead
  seven := h.seven
  late := h.late
  idle ha := by
    by_cases hcd : c = d
    · subst hcd
      simp at ha
    · exact h.idle (by simpa only [Function.update_of_ne hcd] using ha)
  checked a ha hr := by
    rcases update_eq_some ha with ⟨rfl, hv⟩ | ha
    · cases hv
      obtain ⟨-, -, hsix⟩ := checkFailure_ok hok
      have hidle := h.idle hnone
      have hrec : recordedIn ip c s.clock s.failures ≤ 6 := by
        unfold recordedIn
        split
        · rename_i hm
          exact hsix hm.symm
        · decide
      exact ⟨by dsimp only; omega, hidle, fun hlt => absurd hlt (Int.lt_irrefl _)⟩
    · exact h.checked a ha hr
  called a ok ha hr := by
    rcases update_eq_some ha with ⟨rfl, hv⟩ | ha
    · cases hv
      cases hr
    · exact h.called a ok ha hr

theorem callsOfMinute_validated (c : ConnId) (time now t : Int) (log : List Done) :
    callsOfMinute ip c t (.validated c time now :: log) =
      callsOfMinute ip c t log + if time = t then 1 else 0 := by
  unfold callsOfMinute
  rw [calls_validated]
  simp [mem_keysOf_self]

theorem lateCalls_validated (c : ConnId) (time now t : Int) (log : List Done) :
    lateCalls ip c t (.validated c time now :: log) =
      lateCalls ip c t log + if now = t ∧ time < t then 1 else 0 := by
  unfold lateCalls
  rw [calls_validated]
  simp [mem_keysOf_self]

/-- The call of an attempt of `c`. -/
theorem paced_calls {c : ConnId} (h : Paced ip c s) {a : Attempt} (hsome : s.attempts c = some a)
    (hres : a.result = none) :
    Paced ip c { s with
      attempts := Function.update s.attempts c (some { a with result := some false })
      log := .validated c a.time s.clock :: s.log } := by
  have htime := h.started c a hsome
  obtain ⟨hsix, hrec, hlate⟩ := h.checked a hsome hres
  exact
    { failing := fun x ok hx hr => by
        rcases update_eq_some hx with ⟨-, hv⟩ | hx
        · cases hv
          cases hr
          rfl
        · rw [hsome] at hx
          cases hx
          rw [hres] at hr
          cases hr
      nonneg := h.nonneg
      started := fun d x hx => by
        rcases update_eq_some hx with ⟨-, hv⟩ | hx
        · cases hv
          exact htime
        · exact h.started d x hx
      ordered := fun d time now hm => by
        rcases List.mem_cons.mp hm with hm | hm
        · cases hm
          exact htime
        · exact h.ordered d time now hm
      ahead := fun t ht => by
        obtain ⟨h₁, h₂⟩ := h.ahead t ht
        dsimp only at ht ⊢
        rw [callsOfMinute_validated, lateCalls_validated, if_neg (by omega), if_neg (by omega)]
        exact ⟨h₁, h₂⟩
      seven := fun t => by
        have ht := h.seven t
        dsimp only
        rw [callsOfMinute_validated]
        split
        · rename_i hat
          rw [← hat]
          omega
        · exact ht
      late := fun t => by
        have ht := h.late t
        dsimp only
        rw [lateCalls_validated]
        split
        · rename_i hat
          obtain ⟨rfl, hlt⟩ := hat
          have := (hlate hlt).2
          omega
        · exact ht
      idle := fun hnone => by simp at hnone
      checked := fun x hx hr => by
        have hnew : some { a with result := some false } = some x := by simpa using hx
        cases hnew
        cases hr
      called := fun x ok hx _ => by
        have hxa : x.time = a.time := by
          have : some { a with result := some false } = some x := by simpa using hx
          cases this
          rfl
        rw [hxa]
        dsimp only
        refine ⟨?_, fun hlt => ?_⟩
        · rw [callsOfMinute_validated, if_pos rfl]
          omega
        · rw [callsOfMinute_validated, if_neg (by omega)]
          exact (hlate hlt).1 }

/-- The end of an attempt of `c`. -/
theorem paced_ends {c : ConnId} (h : Paced ip c s) {a : Attempt} (hsome : s.attempts c = some a)
    (hres : a.result = none ∨ a.result = some false) :
    Paced ip c (s.finish ip c a.failure a.time false) := by
  have hget : (s.finish ip c a.failure a.time false).failures.get (.ip (ip c)) =
      bumpFailureEntry (s.failures.get (.ip (ip c))) a.time := by
    rw [get_finish, if_pos (mem_keysOf_self _)]
    rfl
  have hnonneg : 0 ≤ (bumpFailureEntry (s.failures.get (.ip (ip c))) a.time).inMinute := by
    have := h.nonneg
    unfold bumpFailureEntry
    split
    · dsimp only
      omega
    · exact Int.zero_le_ofNat 1
  have hrec : recordedIn ip c a.time (s.finish ip c a.failure a.time false).failures =
      recordedIn ip c a.time s.failures + 1 := by
    unfold recordedIn
    rw [hget]
    unfold bumpFailureEntry
    split <;> simp
  have hcalls : ∀ p, calls ip (.ip (ip c)) p (s.finish ip c a.failure a.time false).log =
      calls ip (.ip (ip c)) p s.log := fun p => calls_finish ip _ p c a.failure a.time false
  have hof : ∀ t, callsOfMinute ip c t (s.finish ip c a.failure a.time false).log =
      callsOfMinute ip c t s.log := fun t => hcalls _
  have hlate : ∀ t, lateCalls ip c t (s.finish ip c a.failure a.time false).log =
      lateCalls ip c t s.log := fun t => hcalls _
  have hone : (callsOfMinute ip c a.time s.log : Int) ≤ recordedIn ip c a.time s.failures + 1 := by
    rcases hres with hres | hres
    · have := (h.checked a hsome hres).2.1
      omega
    · exact (h.called a false hsome hres).1
  have hzero : a.time < s.clock → callsOfMinute ip c s.clock s.log = 0 := by
    intro hlt
    rcases hres with hres | hres
    · exact ((h.checked a hsome hres).2.2 hlt).1
    · exact (h.called a false hsome hres).2 hlt
  have hnone : (s.finish ip c a.failure a.time false).attempts c = none := Function.update_self ..
  exact
    { failing := fun x ok hx => by rw [hnone] at hx; cases hx
      nonneg := by rw [hget]; exact hnonneg
      started := fun d x hx => by
        rcases update_eq_some hx with ⟨-, hv⟩ | hx
        · cases hv
        · exact h.started d x hx
      ordered := fun d time now hm => by
        rcases List.mem_cons.mp hm with hm | hm
        · cases hm
        · exact h.ordered d time now hm
      ahead := fun t ht => by
        rw [hof, hlate]
        exact h.ahead t ht
      seven := fun t => by rw [hof]; exact h.seven t
      late := fun t => by rw [hlate]; exact h.late t
      idle := fun _ => by
        rw [hof]
        change (callsOfMinute ip c s.clock s.log : Int) ≤ recordedIn ip c s.clock _
        rcases Int.lt_or_eq_of_le (h.started c a hsome) with hlt | heq
        · rw [hzero hlt]
          exact recordedIn_nonneg ip (by rw [hget]; exact hnonneg) s.clock
        · rw [← heq, hrec]
          exact hone
      checked := fun x hx => by rw [hnone] at hx; cases hx
      called := fun x ok hx => by rw [hnone] at hx; cases hx }

theorem Paced.frame {c d : ConnId} {s' : Logins} (h : Paced ip c s) (hcd : c ≠ d)
    {v : Option Attempt} (ha : s'.attempts = Function.update s.attempts d v)
    (hv : ∀ a, v = some a → a.time ≤ s.clock) (hclock : s'.clock = s.clock)
    (hget : s'.failures.get (.ip (ip c)) = s.failures.get (.ip (ip c)))
    (hordered : ∀ e time now, .validated e time now ∈ s'.log → time ≤ now)
    (hcalls : ∀ p, calls ip (.ip (ip c)) p s'.log = calls ip (.ip (ip c)) p s.log) :
    Paced ip c s' := by
  have hof : ∀ t, callsOfMinute ip c t s'.log = callsOfMinute ip c t s.log := fun t => hcalls _
  have hlate : ∀ t, lateCalls ip c t s'.log = lateCalls ip c t s.log := fun t => hcalls _
  have hrec : ∀ t, recordedIn ip c t s'.failures = recordedIn ip c t s.failures := by
    intro t
    unfold recordedIn
    rw [hget]
  have hatt : s'.attempts c = s.attempts c := by rw [ha, Function.update_of_ne hcd]
  constructor
  · rw [hatt]
    exact h.failing
  · rw [hget]
    exact h.nonneg
  · intro e a he
    rw [ha] at he
    rw [hclock]
    rcases update_eq_some he with ⟨-, hva⟩ | he
    · exact hv a hva
    · exact h.started e a he
  · exact hordered
  · intro t ht
    rw [hclock] at ht
    rw [hof, hlate]
    exact h.ahead t ht
  · intro t
    rw [hof]
    exact h.seven t
  · intro t
    rw [hlate]
    exact h.late t
  · rw [hatt, hclock, hof, hrec]
    exact h.idle
  · intro a hx hr
    rw [hatt] at hx
    rw [hclock, hof, hof, hlate, hrec]
    exact h.checked a hx hr
  · intro a ok hx hr
    rw [hatt] at hx
    rw [hclock, hof, hof, hrec]
    exact h.called a ok hx hr

/-- The clock does not go back. -/
def Forward (s : Logins) (ev : Event) : Prop := ∀ minute, ev = .clock minute → s.clock ≤ minute

theorem paced_step {c : ConnId} (h : Paced ip c s) {ev : Event}
    (hev : Within ip (.ip (ip c)) {c} ev) (hclock : Forward s ev) :
    Paced ip c (s.step ip ev) := by
  have hmoved := step_moved ip s ev
  generalize s.step ip ev = s' at hmoved
  cases hmoved with
  | stays minute hm =>
    rcases hm with hm | rfl
    · exact paced_clock ip h (hclock minute hm)
    · exact h
  | starts d failure hev' hnone hok => exact paced_starts ip h hnone hok
  | calls d a ok hev' hsome hres =>
    subst hev'
    by_cases hkey : Key.ip (ip c) ∈ keysOf (ip d)
    · obtain ⟨hd, hne⟩ := hev d rfl hkey
      obtain rfl := Finset.mem_singleton.mp hd
      cases ok with
      | false => exact paced_calls ip h hsome hres
      | true => exact absurd rfl hne
    · have hcd : c ≠ d := by
        rintro rfl
        exact hkey (mem_keysOf_self _)
      refine h.frame ip hcd rfl (fun x hx => ?_) rfl rfl (fun e time now hm => ?_) fun p => ?_
      · cases hx
        exact h.started d a hsome
      · rcases List.mem_cons.mp hm with hm | hm
        · cases hm
          exact h.started d a hsome
        · exact h.ordered e time now hm
      · dsimp only
        rw [calls_validated, if_neg fun hx => hkey hx.1]
        rfl
  | ends d a ok hev' hsome =>
    have hconn : Event.conn ev = some d := by
      rcases hev' with ⟨rfl, -⟩ | ⟨rfl, -⟩ <;> rfl
    by_cases hkey : Key.ip (ip c) ∈ keysOf (ip d)
    · obtain ⟨hd, -⟩ := hev d hconn hkey
      obtain rfl := Finset.mem_singleton.mp hd
      rcases hev' with ⟨-, hres⟩ | ⟨-, hres, rfl⟩
      · obtain rfl := h.failing a ok hsome hres
        exact paced_ends ip h hsome (.inr hres)
      · exact paced_ends ip h hsome (.inl hres)
    · have hcd : c ≠ d := by
        rintro rfl
        exact hkey (mem_keysOf_self _)
      refine h.frame ip hcd rfl (fun x hx => by cases hx) rfl ?_ (fun e time now hm => ?_) fun p => ?_
      · rw [get_finish, if_neg hkey]
      · refine h.ordered e time now ?_
        unfold finish at hm
        dsimp only at hm
        split at hm
        · split at hm
          · exact (List.mem_cons.mp hm).resolve_left (by simp)
          · exact hm
        · exact (List.mem_cons.mp hm).resolve_left (by simp)
      · exact calls_finish ip _ p d a.failure a.time ok

/-! ### Whole runs -/

instance decidableWithin (key : Key) (S : Finset ConnId) (ev : Event) :
    Decidable (Within ip key S ev) :=
  match h : Event.conn ev with
  | none => .isTrue fun c hc => by rw [h] at hc; cases hc
  | some c =>
    decidable_of_iff (key ∈ keysOf (ip c) → c ∈ S ∧ ev ≠ .validate c true)
      ⟨fun hc d hd => by rw [h] at hd; cases hd; exact hc, fun hw => hw c h⟩

instance decidableForward (s : Logins) : ∀ ev, Decidable (Forward s ev)
  | .clock minute =>
    decidable_of_iff (s.clock ≤ minute) ⟨fun h m hm => by cases hm; exact h, fun h => h minute rfl⟩
  | .check _ | .validate .. | .update _ | .osAuthFailed _ => .isTrue fun _ h => nomatch h

theorem bounded_start (key : Key) (S : Finset ConnId) (minute : Int) :
    Bounded ip key S { clock := minute } where
  inside c a h := by cases h
  failing c a ok h := by cases h
  counted := by simp [allCalls, calls, awaitsUpdate, Failures.get]
  limited := by
    have hlimit : 0 ≤ key.limit := by
      rcases key with a | ⟨_ | _ | _, m⟩ <;> simp [Key.limit, Block.thresh]
    simp only [allCalls, calls, awaitsCall, List.countP_nil, Finset.sum_const_zero]
    omega

theorem paced_start (c : ConnId) (minute : Int) : Paced ip c { clock := minute } where
  failing a ok h := by cases h
  nonneg := Int.le_refl 0
  started d a h := by cases h
  ordered d time now h := by cases h
  ahead t _ := ⟨rfl, rfl⟩
  seven t := Nat.zero_le 7
  late t := Nat.zero_le 1
  idle _ := by
    have hempty : 0 ≤ (Failures.get (fun _ => none) (.ip (ip c))).inMinute := Int.le_refl 0
    exact recordedIn_nonneg ip hempty minute
  checked a h := by cases h
  called a ok h := by cases h

theorem bounded_run {key : Key} {S : Finset ConnId} (minute : Int) {evs : List Event}
    (hS : ∀ c ∈ S, key ∈ keysOf (ip c)) (hevs : ∀ ev ∈ evs, Within ip key S ev) :
    Bounded ip key S (History.run (step ip) { clock := minute } evs) := by
  have hstart := bounded_start ip key S minute
  generalize ({ clock := minute } : Logins) = s at hstart
  induction evs generalizing s with
  | nil => exact hstart
  | cons ev evs ih =>
    refine ih (fun e he => hevs e (List.mem_cons_of_mem ev he)) _ ?_
    exact bounded_step ip hS hstart (hevs ev List.mem_cons_self)

theorem paced_run {c : ConnId} (minute : Int) {evs : List Event}
    (hevs : ∀ ev ∈ evs, Within ip (.ip (ip c)) {c} ev)
    (hclock : History.Guarded (step ip) Forward { clock := minute } evs) :
    Paced ip c (History.run (step ip) { clock := minute } evs) := by
  have hstart := paced_start ip c minute
  generalize ({ clock := minute } : Logins) = s at hstart hclock
  induction evs generalizing s with
  | nil => exact hstart
  | cons ev evs ih =>
    have hnext := paced_step ip hstart (hevs ev List.mem_cons_self) hclock.1
    exact ih (fun e he => hevs e (List.mem_cons_of_mem ev he)) _ hnext hclock.2

theorem allCalls_le {key : Key} {S : Finset ConnId} (minute : Int) {evs : List Event}
    (hevs : ∀ ev ∈ evs, Within ip key S ev) :
    (allCalls ip key (History.run (step ip) { clock := minute } evs).log : Int) ≤
      key.limit + 1 + (S.card - 1) := by
  have hown : ∀ c ∈ S.filter fun c => key ∈ keysOf (ip c), key ∈ keysOf (ip c) :=
    fun c hc => (Finset.mem_filter.mp hc).2
  have hwithin : ∀ ev ∈ evs, Within ip key (S.filter fun c => key ∈ keysOf (ip c)) ev := by
    intro ev hev c hc hkey
    obtain ⟨hcS, hne⟩ := hevs ev hev c hc hkey
    exact ⟨Finset.mem_filter.mpr ⟨hcS, hkey⟩, hne⟩
  have hlimited := (bounded_run ip minute hown hwithin).limited
  have hcard := Finset.card_filter_le S fun c => key ∈ keysOf (ip c)
  omega

/-- For every interleaving of attempts: the entry of each key counts the failures that were
recorded for it since its last removal; without a success the calls of the key stay within
its limit, one for the attempt that reaches it and one for each further connection; and for
a connection that is alone at its address, under a clock that does not go back, at most
seven calls belong to attempts that were checked in one minute, and at most eight are made
in it. -/
theorem limited_runs (minute : Int) (evs : List Event) :
    let s := History.run (step ip) { clock := minute } evs
    (∀ key, (s.failures.get key).total = recordedSince ip key s.log) ∧
    (∀ key S, (∀ ev ∈ evs, Within ip key S ev) →
      (allCalls ip key s.log : Int) ≤ key.limit + 1 + (S.card - 1)) ∧
    (∀ c, (∀ ev ∈ evs, Within ip (.ip (ip c)) {c} ev) →
      History.Guarded (step ip) Forward { clock := minute } evs →
      ∀ t, callsOfMinute ip c t s.log ≤ 7 ∧ callsMadeIn ip c t s.log ≤ 8) := by
  refine ⟨counted_run ip minute evs, fun key S => allCalls_le ip minute, ?_⟩
  intro c hevs hclock t
  have hpaced := paced_run ip minute hevs hclock
  have hseven := hpaced.seven t
  have hlate := hpaced.late t
  have hmade : callsMadeIn ip c t _ ≤ _ := callsMadeIn_le ip hpaced.ordered
  exact ⟨hseven, by omega⟩

end

/-- Eight failed attempts of one connection. The first is checked in minute 1 and evaluated
in minute 2. -/
def lateRun : List Event :=
  [.check 0, .clock 2, .validate 0 false, .update 0] ++
    (List.replicate 7 [.check 0, .validate 0 false, .update 0]).flatten

def sameAddress : ConnId → Ip := fun _ => .v6 1

theorem limited_lateRun :
    (∀ ev ∈ lateRun, Within sameAddress (.ip (sameAddress 0)) {0} ev) ∧
    History.Guarded (step sameAddress) Forward { clock := 1 } lateRun ∧
    (History.run (step sameAddress) { clock := 1 } lateRun).log.length = 16 ∧
    callsMadeIn sameAddress 0 2 (History.run (step sameAddress) { clock := 1 } lateRun).log ≤ 8 := by
  have hwithin : ∀ ev ∈ lateRun, Within sameAddress (.ip (sameAddress 0)) {0} ev := by
    decide +kernel
  have hclock : History.Guarded (step sameAddress) Forward { clock := 1 } lateRun := by
    decide +kernel
  exact ⟨hwithin, hclock, by decide +kernel,
    ((limited_runs sameAddress 1 lateRun).2.2 0 hwithin hclock 2).2⟩

/-- The minute can turn between the check and the evaluation. -/
theorem eight_calls_in_a_minute :
    ¬ ∀ (ip : ConnId → Ip) (minute : Int) (evs : List Event) (c : ConnId),
      (∀ ev ∈ evs, Within ip (.ip (ip c)) {c} ev) →
      History.Guarded (step ip) Forward { clock := minute } evs →
      ∀ t, callsMadeIn ip c t (History.run (step ip) { clock := minute } evs).log ≤ 7 := by
  intro h
  have hseven := h sameAddress 1 lateRun 0 (by decide +kernel) (by decide +kernel) 2
  exact absurd hseven (by decide +kernel)

end Logins

end RustDesk.LoginLimit
