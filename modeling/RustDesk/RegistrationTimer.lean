import RustDesk.History

/-!
# The registration at a rendezvous server

`start_udp` registers the device when its timer ticks, waits for the answer, and asks again when none
comes. The time it waits grows with a public server. How many answers are missing decides which latency
is shown for the server, and after four of them a new socket is bound.

The clock is in microseconds; an event says how much time has passed since the one before.
-/

namespace RustDesk.RegistrationTimer

open History (run Always Guarded Throughout)

def regInterval : Nat := 15000

def minRegTimeout : Nat := 3000

def maxRegTimeout : Nat := 30000

def maxFails1 : Nat := 2

def maxFails2 : Nat := 4

def dnsInterval : Nat := 60000

/-- What has been done last comes first. -/
inductive Entry
  | sent (at_ : Nat)
  | answered (at_ : Nat)
  deriving DecidableEq, Repr

def Entry.time : Entry → Nat
  | .sent t => t
  | .answered t => t

/-- The variables of the loop, and the entry of its host in `ONLINE`. -/
structure Loop where
  now : Nat
  regTimeout : Nat := minRegTimeout
  fails : Nat := 0
  lastRegisterResp : Option Nat := none
  lastRegisterSent : Option Nat := none
  lastDnsCheck : Nat
  oldLatency : Int := 0
  emaLatency : Int := 0
  online : Option Int := none
  log : List Entry := []
  rebinds : List Nat := []
  deriving DecidableEq, Repr

def Loop.start (now : Nat) : Loop := { now, lastDnsCheck := now }

/-- `throttled` is what `deploy_register_throttled` gives, `isPublic` what `using_public_server` does. -/
inductive Event
  | answer (passed : Nat)
  | tick (passed : Nat) (throttled isPublic : Bool)
  deriving DecidableEq, Repr

namespace Loop

variable (s : Loop)

def elapsedMillis (t : Nat) : Nat := (s.now - t) / 1000

/-- The end of the closure `update_latency`, for a latency that has been measured. -/
def showLatency (latency : Int) : Loop :=
  let n := if latency / 5 < 3000 then 3000 else latency / 5
  if n < (latency - s.oldLatency).natAbs ∨ s.oldLatency ≤ 0 then
    { s with online := some latency, oldLatency := latency }
  else s

def updateLatency : Loop :=
  let latency : Int := (s.lastRegisterSent.map fun t => ((s.now - t : Nat) : Int)).getD 0
  let s : Loop :=
    { s with
      lastRegisterResp := some s.now, fails := 0, regTimeout := minRegTimeout, lastRegisterSent := none
      log := .answered s.now :: s.log }
  if latency < 0 ∨ latency > 1000000 then s
  else if s.emaLatency = 0 then { s with emaLatency := latency }.showLatency latency
  else
    let ema := latency / 30 + s.emaLatency * 29 / 30
    { s with emaLatency := ema }.showLatency ema

/-- What follows from an answer that has not come in time. -/
def miss : Loop :=
  let s : Loop := { s with fails := s.fails + 1 }
  if s.fails ≥ maxFails2 then
    let s : Loop := { s with online := some (-1), oldLatency := 0 }
    if s.elapsedMillis s.lastDnsCheck > dnsInterval then
      { s with lastDnsCheck := s.now, rebinds := s.now :: s.rebinds }
    else s
  else if s.fails ≥ maxFails1 then { s with online := some 0, oldLatency := 0 }
  else s

def register : Loop := { s with lastRegisterSent := some s.now, log := .sent s.now :: s.log }

def Expired : Bool := (s.lastRegisterResp.map fun t => decide (s.elapsedMillis t ≥ regInterval)).getD true

def TimedOut : Bool := (s.lastRegisterSent.map fun t => decide (s.elapsedMillis t ≥ s.regTimeout)).getD false

def tick (throttled isPublic : Bool) : Loop :=
  if throttled then s
  else
    let expired := s.Expired
    let timeout := s.TimedOut
    let s : Loop :=
      if isPublic ∧ timeout ∧ s.regTimeout < maxRegTimeout then
        { s with regTimeout := s.regTimeout + minRegTimeout }
      else s
    if timeout then s.miss.register
    else if s.lastRegisterSent.isNone ∧ expired then s.register
    else s

def step : Event → Loop
  | .answer passed => { s with now := s.now + passed }.updateLatency
  | .tick passed throttled isPublic => { s with now := s.now + passed }.tick throttled isPublic

end Loop

/-! ### What is known between two events -/

/-- A request follows an answer after the interval, and another request after the shortest timeout. -/
def Spaced : Entry → List Entry → Prop
  | .sent t, .sent t' :: _ => t' + minRegTimeout * 1000 ≤ t
  | .sent t, .answered t' :: _ => t' + regInterval * 1000 ≤ t
  | _, _ => True

/-- The requests that have no answer. -/
def unanswered : List Entry → Nat
  | .sent _ :: log => unanswered log + 1
  | _ => 0

/-- A latency is shown as long as at most two requests have no answer, then it is zero, and from the
fifth on the server is shown as out of reach. -/
structure Shown (online : Option Int) (missing : Nat) : Prop where
  bounded : ∀ v, online = some v → v ≤ 1000000
  reached : ∀ v, online = some v → 0 < v → missing ≤ 2
  unsure : 3 ≤ missing → missing ≤ 4 → online = some 0
  lost : 5 ≤ missing → online = some (-1)

structure Sound (s : Loop) : Prop where
  timeout : minRegTimeout ≤ s.regTimeout ∧ s.regTimeout ≤ maxRegTimeout ∧ minRegTimeout ∣ s.regTimeout
  spaced : Always Spaced s.log
  shown : Shown s.online (unanswered s.log)
  rebinds : Always (fun t before => ∀ t' ∈ before.head?, t' + dnsInterval * 1000 < t) s.rebinds

/-- The last request or answer is recent. -/
def Attended (s : Loop) : Prop := ∃ e, s.log.head? = some e ∧ s.now < e.time + maxRegTimeout * 1000

/-- After a tick the device has registered, or has been answered, not long ago. -/
def AttendedAfter (s : Loop) : Event → Prop
  | .answer _ => True
  | .tick passed throttled isPublic => throttled = false → Attended (s.step (.tick passed throttled isPublic))

/-- The last entry of the log is where the two instants of the loop come from, and the count of the
requests without an answer is where `fails` does. -/
structure Kept (s : Loop) : Prop where
  sound : Sound s
  head : s.log.head? = (s.lastRegisterSent.map Entry.sent <|> s.lastRegisterResp.map Entry.answered)
  past : ∀ e ∈ s.log.head?, e.time ≤ s.now
  missing : unanswered s.log = s.fails + (s.lastRegisterSent.map fun _ => 1).getD 0
  idle : s.lastRegisterSent = none → s.fails = 0
  dns : ∀ t ∈ s.rebinds.head?, t = s.lastDnsCheck
  ema : 0 ≤ s.emaLatency ∧ s.emaLatency ≤ 1000000

section

variable {s : Loop}

theorem minRegTimeout_le : minRegTimeout ≤ maxRegTimeout := by decide

theorem unanswered_answered (t : Nat) (log : List Entry) : unanswered (.answered t :: log) = 0 := rfl

theorem unanswered_sent (t : Nat) (log : List Entry) : unanswered (.sent t :: log) = unanswered log + 1 := rfl

/-- What a tick does. -/
inductive Ticked (s : Loop) : Loop → Prop
  | missed (t : Nat) : s.lastRegisterSent = some t → s.regTimeout ≤ s.elapsedMillis t →
      Ticked s s.miss.register
  | missedLonger (t : Nat) : s.lastRegisterSent = some t → s.regTimeout ≤ s.elapsedMillis t →
      s.regTimeout < maxRegTimeout →
      Ticked s ({ s with regTimeout := s.regTimeout + minRegTimeout } : Loop).miss.register
  | due : s.lastRegisterSent = none →
      (∀ t, s.lastRegisterResp = some t → regInterval ≤ s.elapsedMillis t) → Ticked s s.register
  | waits (t : Nat) : s.lastRegisterSent = some t → s.elapsedMillis t < s.regTimeout → Ticked s s
  | rests (t : Nat) : s.lastRegisterSent = none → s.lastRegisterResp = some t →
      s.elapsedMillis t < regInterval → Ticked s s

theorem ticked (s : Loop) (isPublic : Bool) : Ticked s (s.tick false isPublic) := by
  unfold Loop.tick Loop.Expired Loop.TimedOut
  rw [if_neg Bool.false_ne_true]
  cases hsent : s.lastRegisterSent with
  | some t =>
    by_cases hlate : s.elapsedMillis t ≥ s.regTimeout
    · simp only [Option.map_some, Option.getD_some, hlate, decide_true, true_and, if_true]
      split_ifs with hlonger
      · have hmissed := Ticked.missedLonger t hsent hlate hlonger.2
        rw [hsent] at hmissed
        exact hmissed
      · exact .missed t hsent hlate
    · simp only [Option.map_some, Option.getD_some, hlate, decide_false, Bool.false_eq_true, false_and,
        and_false, if_false, Option.isNone_some, hsent]
      exact .waits t hsent (Nat.lt_of_not_le hlate)
  | none =>
    cases hresp : s.lastRegisterResp with
    | none =>
      simp only [Option.map_none, Option.getD_none, Bool.false_eq_true, false_and, and_false, if_false,
        Option.isNone_none, and_self, if_true, hsent]
      exact .due hsent fun t ht => by rw [hresp] at ht; cases ht
    | some t =>
      by_cases hlate : s.elapsedMillis t ≥ regInterval
      · simp only [Option.map_none, Option.getD_none, Option.map_some, Option.getD_some, hlate, decide_true,
          Bool.false_eq_true, false_and, and_false, if_false, Option.isNone_none, and_self, if_true, hsent]
        exact .due hsent fun t' ht' => by rw [hresp] at ht'; cases ht'; exact hlate
      · simp only [Option.map_none, Option.getD_none, Option.map_some, Option.getD_some, hlate, decide_false,
          Bool.false_eq_true, false_and, and_false, if_false]
        exact .rests t hsent hresp (Nat.lt_of_not_le hlate)

namespace Kept

theorem passes (h : Kept s) (passed : Nat) : Kept { s with now := s.now + passed } :=
  ⟨⟨h.sound.timeout, h.sound.spaced, h.sound.shown, h.sound.rebinds⟩, h.head,
    fun e he => Nat.le_trans (h.past e he) (Nat.le_add_right _ _), h.missing, h.idle, h.dns, h.ema⟩

theorem showLatency (h : Kept s) {latency : Int} (hle : latency ≤ 1000000) (hnone : unanswered s.log = 0) :
    Kept (s.showLatency latency) := by
  unfold Loop.showLatency
  dsimp only
  generalize (if latency / 5 < 3000 then (3000 : Int) else latency / 5) = n
  split_ifs
  · refine ⟨⟨h.sound.timeout, h.sound.spaced, ?_, h.sound.rebinds⟩, h.head, h.past, h.missing, h.idle,
      h.dns, h.ema⟩
    dsimp only
    rw [hnone]
    exact ⟨fun v hv => by cases hv; exact hle, fun _ _ _ => Nat.zero_le 2, fun h3 => by omega, fun h5 => by omega⟩
  · exact h

theorem answered (h : Kept s) : Kept
    { s with
      lastRegisterResp := some s.now, fails := 0, regTimeout := minRegTimeout, lastRegisterSent := none
      log := .answered s.now :: s.log } where
  sound := by
    refine ⟨⟨Nat.le_refl _, minRegTimeout_le, Nat.dvd_refl _⟩, ⟨trivial, h.sound.spaced⟩, ?_, h.sound.rebinds⟩
    rw [unanswered_answered]
    exact ⟨h.sound.shown.bounded, fun _ _ _ => Nat.zero_le 2, fun h3 => by omega, fun h5 => by omega⟩
  head := rfl
  past := fun e he => by cases he; exact Nat.le_refl _
  missing := rfl
  idle := fun _ => rfl
  dns := h.dns
  ema := h.ema

theorem withEma (h : Kept s) {ema : Int} (hema : 0 ≤ ema ∧ ema ≤ 1000000) :
    Kept { s with emaLatency := ema } :=
  ⟨⟨h.sound.timeout, h.sound.spaced, h.sound.shown, h.sound.rebinds⟩, h.head, h.past, h.missing, h.idle,
    h.dns, hema⟩

theorem updateLatency (h : Kept s) : Kept s.updateLatency := by
  unfold Loop.updateLatency
  dsimp only
  generalize (s.lastRegisterSent.map fun t => ((s.now - t : Nat) : Int)).getD 0 = latency
  obtain ⟨hema, hema'⟩ := h.ema
  split_ifs with hrange hzero
  · exact h.answered
  · have hle : 0 ≤ latency ∧ latency ≤ 1000000 := by omega
    exact (h.answered.withEma hle).showLatency hle.2 rfl
  · have hle : 0 ≤ latency / 30 + s.emaLatency * 29 / 30 ∧
        latency / 30 + s.emaLatency * 29 / 30 ≤ 1000000 := by omega
    exact (h.answered.withEma hle).showLatency hle.2 rfl

/-- The next request goes out. -/
theorem registers (htimeout : minRegTimeout ≤ s.regTimeout ∧ s.regTimeout ≤ maxRegTimeout ∧ minRegTimeout ∣ s.regTimeout)
    (hlog : Always Spaced s.log) (hspaced : Spaced (.sent s.now) s.log)
    (hshown : Shown s.online (unanswered s.log + 1))
    (hrebinds : Always (fun t before => ∀ t' ∈ before.head?, t' + dnsInterval * 1000 < t) s.rebinds)
    (hmissing : unanswered s.log = s.fails) (hdns : ∀ t ∈ s.rebinds.head?, t = s.lastDnsCheck)
    (hema : 0 ≤ s.emaLatency ∧ s.emaLatency ≤ 1000000) : Kept s.register where
  sound := ⟨htimeout, ⟨hspaced, hlog⟩, hshown, hrebinds⟩
  head := rfl
  past := fun e he => by cases he; exact Nat.le_refl _
  missing := by rw [Loop.register, unanswered_sent, hmissing]; rfl
  idle := fun hnone => by cases hnone
  dns := hdns
  ema := hema

/-- An answer is missing. -/
theorem timeout (h : Kept s) {t : Nat} (hsent : s.lastRegisterSent = some t)
    (hlate : minRegTimeout ≤ s.elapsedMillis t) : Kept s.miss.register := by
  have hhead : s.log.head? = some (.sent t) := by
    rw [h.head, hsent]
    rfl
  have hmissing : unanswered s.log = s.fails + 1 := by
    rw [h.missing, hsent]
    rfl
  have hspaced : Spaced (.sent s.now) s.log := by
    obtain ⟨log, hlog⟩ := List.head?_eq_some_iff.mp hhead
    rw [hlog]
    unfold Loop.elapsedMillis at hlate
    unfold Spaced minRegTimeout at *
    omega
  unfold Loop.miss
  dsimp only
  split_ifs with hlost hdns hunsure
  · refine registers h.sound.timeout h.sound.spaced hspaced ?_ ⟨fun t' ht' => ?_, h.sound.rebinds⟩ hmissing
      (fun t' ht' => (Option.some.inj ht').symm) h.ema
    · refine ⟨fun v hv => ?_, fun v hv hpos => ?_, fun _ hfew => ?_, fun _ => rfl⟩
      · cases hv
        decide
      · cases hv
        cases hpos
      · dsimp only at hfew
        unfold maxFails2 at hlost
        omega
    · have hlast := h.dns t' ht'
      unfold Loop.elapsedMillis dnsInterval at hdns
      unfold dnsInterval
      dsimp only at hdns ⊢
      omega
  · refine registers h.sound.timeout h.sound.spaced hspaced ?_ h.sound.rebinds hmissing h.dns h.ema
    refine ⟨fun v hv => ?_, fun v hv hpos => ?_, fun _ hfew => ?_, fun _ => rfl⟩
    · cases hv
      decide
    · cases hv
      cases hpos
    · dsimp only at hfew
      unfold maxFails2 at hlost
      omega
  · refine registers h.sound.timeout h.sound.spaced hspaced ?_ h.sound.rebinds hmissing h.dns h.ema
    refine ⟨fun v hv => ?_, fun v hv hpos => ?_, fun _ _ => rfl, fun hmany => ?_⟩
    · cases hv
      decide
    · cases hv
      cases hpos
    · dsimp only at hmany
      unfold maxFails2 at hlost
      omega
  · refine registers h.sound.timeout h.sound.spaced hspaced ?_ h.sound.rebinds hmissing h.dns h.ema
    unfold maxFails1 at hunsure
    dsimp only
    refine ⟨h.sound.shown.bounded, fun _ _ _ => ?_, fun hmany => ?_, fun hmany => ?_⟩
    · omega
    · omega
    · omega

/-- The waiting time grows. -/
theorem waitsLonger (h : Kept s) (hlt : s.regTimeout < maxRegTimeout) :
    Kept { s with regTimeout := s.regTimeout + minRegTimeout } := by
  obtain ⟨hmin, -, hdvd⟩ := h.sound.timeout
  refine ⟨⟨⟨Nat.le_trans hmin (Nat.le_add_right _ _), ?_, Nat.dvd_add hdvd (Nat.dvd_refl _)⟩, h.sound.spaced,
    h.sound.shown, h.sound.rebinds⟩, h.head, h.past, h.missing, h.idle, h.dns, h.ema⟩
  obtain ⟨k, hk⟩ := hdvd
  unfold minRegTimeout maxRegTimeout at *
  dsimp only
  omega

theorem due (h : Kept s) (hnone : s.lastRegisterSent = none)
    (hlate : ∀ t, s.lastRegisterResp = some t → regInterval ≤ s.elapsedMillis t) : Kept s.register := by
  have hfails := h.idle hnone
  have hmissing : unanswered s.log = s.fails := by
    rw [h.missing, hnone]
    rfl
  have hspaced : Spaced (.sent s.now) s.log := by
    have hhead := h.head
    rw [hnone] at hhead
    cases hresp : s.lastRegisterResp with
    | none =>
      rw [hresp] at hhead
      rw [List.head?_eq_none_iff.mp hhead]
      trivial
    | some t =>
      rw [hresp] at hhead
      obtain ⟨log, hlog⟩ := List.head?_eq_some_iff.mp hhead
      have hlate := hlate t hresp
      rw [hlog]
      unfold Loop.elapsedMillis regInterval at hlate
      unfold Spaced regInterval
      omega
  refine registers h.sound.timeout h.sound.spaced hspaced ?_ h.sound.rebinds hmissing h.dns h.ema
  rw [hmissing, hfails]
  exact ⟨h.sound.shown.bounded, fun _ _ _ => by omega, fun hmany => by omega, fun hmany => by omega⟩

theorem tick (h : Kept s) (throttled isPublic : Bool) : Kept (s.tick throttled isPublic) := by
  cases throttled with
  | true => exact h
  | false =>
    have hmin := h.sound.timeout.1
    generalize htick : s.tick false isPublic = s'
    cases htick ▸ ticked s isPublic with
    | missed t hsent hlate => exact h.timeout hsent (Nat.le_trans hmin hlate)
    | missedLonger t hsent hlate hlt => exact (h.waitsLonger hlt).timeout hsent (Nat.le_trans hmin hlate)
    | due hnone hlate => exact h.due hnone hlate
    | waits => exact h
    | rests => exact h

theorem attended (h : Kept s) (isPublic : Bool) : Attended (s.tick false isPublic) := by
  have hsend : ∀ s' : Loop, Attended s'.register := fun s' =>
    ⟨.sent s'.now, rfl, Nat.lt_add_of_pos_right (by decide)⟩
  have hhead := h.head
  generalize htick : s.tick false isPublic = s'
  cases htick ▸ ticked s isPublic with
  | missed => exact hsend _
  | missedLonger => exact hsend _
  | due => exact hsend _
  | waits t hsent hwaits =>
    have hbound := h.sound.timeout.2.1
    rw [hsent] at hhead
    refine ⟨.sent t, hhead, ?_⟩
    unfold Loop.elapsedMillis at hwaits
    unfold maxRegTimeout at hbound ⊢
    dsimp only [Entry.time]
    omega
  | rests t hnone hresp hfresh =>
    rw [hnone, hresp] at hhead
    refine ⟨.answered t, hhead, ?_⟩
    unfold Loop.elapsedMillis regInterval at hfresh
    unfold maxRegTimeout
    dsimp only [Entry.time]
    omega

theorem step (h : Kept s) (e : Event) : Kept (s.step e) := by
  cases e with
  | answer passed => exact (h.passes passed).updateLatency
  | tick passed throttled isPublic => exact (h.passes passed).tick throttled isPublic

theorem attendedAfter (h : Kept s) (e : Event) : AttendedAfter s e := by
  cases e with
  | answer passed => trivial
  | tick passed throttled isPublic =>
    rintro rfl
    exact (h.passes passed).attended isPublic

theorem start (now : Nat) : Kept (Loop.start now) where
  sound := ⟨⟨Nat.le_refl _, minRegTimeout_le, Nat.dvd_refl _⟩, trivial,
    ⟨fun _ hv => (by cases hv), fun _ hv => (by cases hv), fun hmany => (by cases hmany),
      fun hmany => (by cases hmany)⟩, trivial⟩
  head := rfl
  past := fun _ he => by cases he
  missing := rfl
  idle := fun _ => rfl
  dns := fun _ ht => by cases ht
  ema := ⟨Int.le_refl _, Int.ofNat_le.mpr (Nat.zero_le 1000000)⟩

end Kept

end

end RustDesk.RegistrationTimer
