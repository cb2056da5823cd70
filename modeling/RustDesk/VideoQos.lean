import Mathlib.Data.Rat.Defs
import Mathlib.Algebra.Order.Ring.Unbundled.Rat
import Mathlib.Tactic.NormNum
import Mathlib.Data.List.Induction
import Mathlib.Algebra.Order.BigOperators.Group.List
import RustDesk.Message

/-!
# The frame rate that the users of a video share

`VideoQoS` keeps one frame rate for all users. Each answer to a delay probe moves the rate
of its user, within a cap that the users set; the rate in force is the least of all, lower
still while an answer is overdue or a user is new. The bit rate follows on its own.

`f32` arithmetic is exact arithmetic followed by `fl`, of which nothing is assumed, and the
quotient that a delay above the threshold asks for is an input. What Rust stops at, an empty
range for `clamp` or a division by zero, is `none`.
-/

namespace RustDesk.VideoQoS

def FPS : Nat := 30

def MIN_FPS : Nat := 1

def MAX_FPS : Nat := 120

def INIT_FPS : Nat := 15

def BR_BEST : ℚ := 1.5

def BR_BALANCED : ℚ := 0.67

def BR_SPEED : ℚ := 0.5

def BR_MAX : ℚ := 40

def BR_MIN : ℚ := 0.2

def BR_MIN_HIGH_RESOLUTION : ℚ := 0.1

def MAX_BR_MULTIPLE : ℚ := 1

def historyDelayLen : Nat := 2

def adjustRatioInterval : Nat := 3

def dynamicScreenThreshold : Nat := 2

def delayThreshold : Nat := 150

/-- `clamp` of Rust, which does not accept an empty range. -/
def clamp {α : Type*} [LinearOrder α] (v lo hi : α) : Option α :=
  if lo ≤ hi then some (max lo (min v hi)) else none

/-- The quotient of unsigned integers. -/
def div (a b : Nat) : Option Nat := if b = 0 then none else some (a / b)

/-! ### The delays of a user -/

structure RttCalculator where
  minRtt : Option Nat := none
  windowMinRtt : Option Nat := none
  smoothedRtt : Option Nat := none
  samples : List Nat := []
  deriving DecidableEq, Repr

namespace RttCalculator

def windowSamples : Nat := 60

def minSamples : Nat := 10

/-- `smooth` is the weighted average of the two minima, which is taken in `f32`. -/
def update (smooth : Nat → Nat → Nat) (delay : Nat) (r : RttCalculator) : RttCalculator :=
  let minRtt := match r.minRtt with
    | some m => if delay < m then some delay else some m
    | none => some delay
  let samples := (if r.samples.length ≥ windowSamples then r.samples.tail else r.samples) ++ [delay]
  let windowMinRtt := samples.min?
  let smoothedRtt :=
    if samples.length ≥ windowSamples then
      match minRtt, windowMinRtt with
      | some m, some w => some (smooth m w)
      | _, _ => r.smoothedRtt
    else r.smoothedRtt
  { minRtt, windowMinRtt, smoothedRtt, samples }

def getRtt (r : RttCalculator) : Option Nat :=
  match r.smoothedRtt with
  | some rtt => some rtt
  | none => if r.samples.length ≥ minSamples then r.minRtt else none

end RttCalculator

structure UserDelay where
  responseDelayed : Bool := false
  delayHistory : List Nat := []
  fps : Option Nat := none
  rttCalculator : RttCalculator := {}
  quickIncreaseFpsCount : Nat := 0
  increaseFpsCount : Nat := 0
  deriving DecidableEq, Repr

namespace UserDelay

def addDelay (smooth : Nat → Nat → Nat) (delay : Nat) (d : UserDelay) : UserDelay :=
  { d with
    rttCalculator := d.rttCalculator.update smooth delay
    delayHistory :=
      (if d.delayHistory.length > historyDelayLen then d.delayHistory.tail else d.delayHistory) ++
        [delay] }

/-- The mean of a history that is not empty; the sum is one of 32 bits. -/
def mean (history : List Nat) : Nat := history.sum % 2 ^ 32 / history.length

def avgDelay (d : UserDelay) : Nat :=
  if d.delayHistory.length > 0 then
    let avg := mean d.delayHistory
    match d.rttCalculator.getRtt with
    | some rtt => if avg > rtt then avg - rtt else avg
    | none => avg
  else delayThreshold

end UserDelay

/-! ### Users and displays -/

inductive Quality
  | best
  | balanced
  | low
  | custom (ratio : ℚ)
  deriving DecidableEq

def Quality.ratio : Quality → ℚ
  | .best => BR_BEST
  | .balanced => BR_BALANCED
  | .low => BR_SPEED
  | .custom v => v

structure UserData where
  autoAdjustFps : Option Nat := none
  customFps : Option Nat := none
  quality : Option (Int × Quality) := none
  delay : UserDelay := {}
  record : Bool := false
  deriving DecidableEq

structure DisplayData where
  sendCounter : Nat := 0
  supportChangingQuality : Bool := false
  deriving DecidableEq, Repr

end RustDesk.VideoQoS

/-- The order of the users is the one in which the map gives them. Times are in
nanoseconds. -/
structure RustDesk.VideoQoS where
  fps : Nat := VideoQoS.FPS
  ratio : ℚ := VideoQoS.BR_BALANCED
  users : List (Int × VideoQoS.UserData) := []
  displays : List (String × VideoQoS.DisplayData) := []
  bitrateStore : Nat := 0
  adjustRatioInstant : Nat := 0
  abrConfig : Bool := true
  newUserInstant : Nat := 0
  deriving DecidableEq

namespace RustDesk.VideoQoS

/-- `HashMap::insert` -/
def insert {α β : Type} [DecidableEq α] (k : α) (v : β) (m : List (α × β)) : List (α × β) :=
  m.filter (·.1 ≠ k) ++ [(k, v)]

/-- A change through `HashMap::get_mut`. -/
def modify {α β : Type} [DecidableEq α] (k : α) (f : β → β) (m : List (α × β)) : List (α × β) :=
  m.map fun (i, v) => (i, if i = k then f v else v)

/-- `as_secs` of the time since an instant. -/
def elapsedSecs (now instant : Nat) : Nat := (now - instant) / 10 ^ 9

def inVbrState (q : VideoQoS) : Bool := q.abrConfig && q.displays.all (·.2.supportChangingQuality)

/-- The cap that a user sets. -/
def userFps (u : UserData) : Nat :=
  let fps := u.customFps.getD FPS
  match u.autoAdjustFps with
  | some auto => if fps = 0 ∨ auto < fps then auto else fps
  | none => fps

def highestFps (q : VideoQoS) : Option Nat :=
  clamp (((q.users.map fun u => userFps u.2).filter (· ≥ MIN_FPS)).min?.getD FPS) MIN_FPS MAX_FPS

/-- `max_by` returns the last of several maxima. -/
def laterQuality : Option (Int × Quality) → Int × Quality → Option (Int × Quality)
  | none, q => some q
  | some best, q => if best.1 ≤ q.1 then some q else some best

def latestQuality (q : VideoQoS) : Quality :=
  (((q.users.filterMap (·.2.quality)).foldl laterQuality none).getD (0, .balanced)).2

def adjustFps (now : Nat) (q : VideoQoS) : Option VideoQoS := do
  let highest ← q.highestFps
  let fps := (q.users.map fun u => u.2.delay.fps.getD INIT_FPS).min?.getD INIT_FPS
  let fps := if q.users.any (·.2.delay.responseDelayed) then min fps (MIN_FPS + 1) else fps
  let fps := if elapsedSecs now q.newUserInstant < 1 then min fps INIT_FPS else fps
  let fps ← clamp fps MIN_FPS highest
  some { q with fps }

variable (fl : ℚ → ℚ)

/-- The lower bound for the bit rate ratio. -/
def minRatio (quality : Quality) (ratio1mbps : Option ℚ) : ℚ :=
  let lower (m : ℚ) := match ratio1mbps with
    | some r => if m > r then r else m
    | none => m
  match quality with
  | .best => max (lower (BR_BEST / 2.5)) BR_MIN
  | .balanced => max (lower (min (BR_BALANCED / 2) 0.4)) BR_MIN_HIGH_RESOLUTION
  | .low => BR_MIN_HIGH_RESOLUTION
  | .custom _ => BR_MIN_HIGH_RESOLUTION

/-- The ratio that the largest delay asks for. -/
def delayRatio (maxDelay : Nat) (dynamicScreen : Bool) (current : ℚ) : ℚ :=
  if maxDelay < 50 then if dynamicScreen then fl (current * 1.15) else current
  else if maxDelay < 100 then if dynamicScreen then fl (current * 1.1) else current
  else if maxDelay < delayThreshold then if dynamicScreen then fl (current * 1.05) else current
  else if maxDelay < 200 then fl (current * 0.95)
  else if maxDelay < 300 then fl (current * 0.9)
  else if maxDelay < 500 then fl (current * 0.85)
  else fl (current * 0.8)

def adjustRatio (now : Nat) (dynamicScreen : Bool) (q : VideoQoS) : Option VideoQoS :=
  if !q.inVbrState then some q
  else
    match (q.users.map (·.2.delay.avgDelay)).max? with
    | none => some q
    | some maxDelay => do
      let bitrate := q.bitrateStore
      let ratio1mbps := if bitrate > 0 then
        some (max (fl (fl (q.ratio * 1000) / bitrate)) BR_MIN_HIGH_RESOLUTION) else none
      let ratioAdd150kbps := if bitrate > 0 then
        some (fl (fl (((bitrate + 150) % 2 ^ 32 : Nat) * q.ratio) / bitrate)) else none
      let v := delayRatio fl maxDelay dynamicScreen q.ratio
      let v := match ratioAdd150kbps with
        | some r => if v > r ∧ r > q.ratio ∧ q.ratio ≥ BR_SPEED then r else v
        | none => v
      let ratio ← clamp v (minRatio q.latestQuality ratio1mbps)
        (q.latestQuality.ratio * MAX_BR_MULTIPLE)
      some { q with ratio, adjustRatioInstant := now }

/-! ### The operations -/

def onConnectionOpen (id : Int) (abr : Bool) (now : Nat) (q : VideoQoS) : VideoQoS :=
  { q with users := insert id {} q.users, abrConfig := abr, newUserInstant := now }

def onConnectionClose (id : Int) (now : Nat) (q : VideoQoS) : VideoQoS :=
  let users := q.users.filter (·.1 ≠ id)
  if users.isEmpty then { adjustRatioInstant := now, newUserInstant := now } else { q with users }

def userCustomFps (id : Int) (fps : Nat) (q : VideoQoS) : VideoQoS :=
  if fps < MIN_FPS ∨ fps > MAX_FPS then q
  else { q with users := modify id (fun u => { u with customFps := some fps }) q.users }

def userAutoAdjustFps (id : Int) (fps : Nat) (q : VideoQoS) : VideoQoS :=
  if fps < MIN_FPS ∨ fps > MAX_FPS then q
  else { q with users := modify id (fun u => { u with autoAdjustFps := some fps }) q.users }

def convertQuality (quality : Int) : Option Quality :=
  if quality = ImageQuality.balanced.value then some .balanced
  else if quality = ImageQuality.low.value then some .low
  else if quality = ImageQuality.best.value then some .best
  else do
    let b := fl (((quality / 2 ^ 8 % 2 ^ 12 * 2 : Int) : ℚ) / 100)
    let b ← clamp b BR_MIN BR_MAX
    some (.custom b)

def userImageQuality (id imageQuality time : Int) (q : VideoQoS) : Option VideoQoS := do
  let quality ← convertQuality fl imageQuality
  if q.users.any (·.1 = id) then
    let q := { q with
      users := modify id (fun u => { u with quality := some (time, quality) }) q.users }
    some { q with ratio := q.latestQuality.ratio }
  else some q

def userRecord (id : Int) (v : Bool) (q : VideoQoS) : VideoQoS :=
  { q with users := modify id (fun u => { u with record := v }) q.users }

/-- The least rate that is kept up, and the one that is soon reached, for a bit rate. -/
def fpsFor (targetRatio : ℚ) : Nat × Nat :=
  if targetRatio ≥ BR_BEST then (8, 16)
  else if targetRatio ≥ BR_BALANCED then (10, 20)
  else (12, 24)

/-- The rate that an average delay asks for, with the counter of quick increases. -/
def adaptFps (minFps normalFps quotient oldAvg avg fps quick : Nat) : Option (Nat × Nat) :=
  if avg < 50 then
    let quick := quick + 1
    let step := if fps < normalFps then 1 else 0
    if quick ≥ 3 then some (max minFps (fps + 5), 0) else some (max minFps (fps + step), quick)
  else if avg < 100 then
    let step := if avg < oldAvg then if fps < normalFps then 1 else 0 else 0
    some (max minFps (fps + step), quick)
  else if avg < delayThreshold then some (max minFps fps, quick)
  else if avg < 200 then some (max minFps quotient, quick)
  else if avg < 300 then some (min minFps quotient, quick)
  else do
    let byDelay ← div (delayThreshold * minFps) avg
    if avg < 600 then some (byDelay, quick) else some (min byDelay quotient, quick)

/-- The user after an answer to a probe. -/
def delayedUser (smooth : Nat → Nat → Nat) (fpsNow highest minFps normalFps delay quotient : Nat)
    (u : UserData) : Option UserData := do
  let oldAvg := u.delay.avgDelay
  let d := u.delay.addDelay smooth (max delay 10)
  let avg := max d.avgDelay 10
  let (fps, quick) ← adaptFps minFps normalFps quotient oldAvg avg fpsNow d.quickIncreaseFpsCount
  let increase := if avg < delayThreshold then d.increaseFpsCount + 1 else 0
  let (fps, increase) := if increase ≥ 3 then (fps + 1, 0) else (fps, increase)
  let quick := if avg > 50 then 0 else quick
  let fps ← clamp fps MIN_FPS highest
  some { u with delay := { d with
    fps := some fps, quickIncreaseFpsCount := quick, increaseFpsCount := increase } }

def userNetworkDelay (smooth : Nat → Nat → Nat) (linux : Bool) (id : Int) (delay quotient : Nat)
    (now : Nat) (q : VideoQoS) : Option VideoQoS := do
  let highest ← q.highestFps
  let (minFps, normalFps) := fpsFor q.latestQuality.ratio
  match q.users.lookup id with
  | none => q.adjustFps now
  | some user =>
    let user' ← delayedUser smooth q.fps highest minFps normalFps delay quotient user
    let q ← adjustFps now { q with users := modify id (fun _ => user') q.users }
    if user.delay.fps.isNone && !linux then q.adjustRatio fl now false else some q

/-- The user while the answer to a probe is outstanding. -/
def overdueUser (smooth : Nat → Nat → Nat) (elapsed : Nat) (u : UserData) : UserData :=
  let d := { u.delay with responseDelayed := elapsed > 2000 }
  { u with delay := if d.responseDelayed then d.addDelay smooth (elapsed % 2 ^ 32) else d }

def userDelayResponseElapsed (smooth : Nat → Nat → Nat) (id : Int) (elapsed now : Nat)
    (q : VideoQoS) : Option VideoQoS :=
  let q' := { q with users := modify id (overdueUser smooth elapsed) q.users }
  if q.users.any (·.1 = id) ∧ elapsed > 2000 then q'.adjustFps now else some q'

def updateDisplayData (name : String) (sendCounter now : Nat) (q : VideoQoS) : Option VideoQoS := do
  let add (d : DisplayData) : DisplayData := { d with sendCounter := d.sendCounter + sendCounter }
  let q ← adjustFps now { q with displays := modify name add q.displays }
  if q.inVbrState then
    if elapsedSecs now q.adjustRatioInstant ≥ adjustRatioInterval then
      let dynamicScreen :=
        q.displays.any (·.2.sendCounter ≥ adjustRatioInterval * dynamicScreenThreshold)
      let reset (d : String × DisplayData) := (d.1, { d.2 with sendCounter := 0 })
      adjustRatio fl now dynamicScreen { q with displays := q.displays.map reset }
    else some q
  else some { q with ratio := q.latestQuality.ratio }

/-- `ratio`, which falls back to the default outside of the range. -/
def checkRatio (q : VideoQoS) : VideoQoS :=
  if q.ratio < BR_MIN_HIGH_RESOLUTION ∨ q.ratio > BR_MAX then { q with ratio := BR_BALANCED } else q

inductive Op
  | onConnectionOpen (id : Int) (abr : Bool)
  | onConnectionClose (id : Int)
  | userCustomFps (id : Int) (fps : Nat)
  | userAutoAdjustFps (id : Int) (fps : Nat)
  | userImageQuality (id imageQuality time : Int)
  | userRecord (id : Int) (v : Bool)
  | userNetworkDelay (id : Int) (delay quotient : Nat)
  | userDelayResponseElapsed (id : Int) (elapsed : Nat)
  | newDisplay (name : String)
  | removeDisplay (name : String)
  | setSupportChangingQuality (name : String) (support : Bool)
  | updateDisplayData (name : String) (sendCounter : Nat)
  | storeBitrate (bitrate : Nat)
  | ratio
  /-- The map of the users changes its order. -/
  | rehash (users : List (Int × UserData))
  deriving DecidableEq

/-- What does not depend on the calls. -/
structure Platform where
  linux : Bool
  fl : ℚ → ℚ
  smooth : Nat → Nat → Nat

def step (p : Platform) (q : VideoQoS) : Op × Nat → Option VideoQoS
  | (.onConnectionOpen id abr, now) => some (q.onConnectionOpen id abr now)
  | (.onConnectionClose id, now) => some (q.onConnectionClose id now)
  | (.userCustomFps id fps, _) => some (q.userCustomFps id fps)
  | (.userAutoAdjustFps id fps, _) => some (q.userAutoAdjustFps id fps)
  | (.userImageQuality id imageQuality time, _) => q.userImageQuality p.fl id imageQuality time
  | (.userRecord id v, _) => some (q.userRecord id v)
  | (.userNetworkDelay id delay quotient, now) =>
    q.userNetworkDelay p.fl p.smooth p.linux id delay quotient now
  | (.userDelayResponseElapsed id elapsed, now) =>
    q.userDelayResponseElapsed p.smooth id elapsed now
  | (.newDisplay name, _) => some { q with displays := insert name {} q.displays }
  | (.removeDisplay name, _) => some { q with displays := q.displays.filter (·.1 ≠ name) }
  | (.setSupportChangingQuality name support, _) =>
    some { q with
      displays := modify name (fun d => { d with supportChangingQuality := support }) q.displays }
  | (.updateDisplayData name sendCounter, now) => q.updateDisplayData p.fl name sendCounter now
  | (.storeBitrate bitrate, _) => some { q with bitrateStore := bitrate }
  | (.ratio, _) => some q.checkRatio
  | (.rehash users, _) => some (if users.Perm q.users then { q with users } else q)

/-- The state after a sequence of calls, each at its time. -/
def run (p : Platform) (calls : List (Op × Nat)) : Option VideoQoS := calls.foldlM (step p) {}

/-! ### The frame rate -/

def InRange (fps : Nat) : Prop := MIN_FPS ≤ fps ∧ fps ≤ MAX_FPS

/-- The calls that compute the rate anew. -/
def Recomputes (q : VideoQoS) : Op → Prop
  | .userNetworkDelay .. => True
  | .userDelayResponseElapsed id elapsed => q.users.any (·.1 = id) ∧ elapsed > 2000
  | .updateDisplayData .. => True
  | _ => False

/-- The least of what the user asks for, or 30, and of what its client adjusts to. -/
def cap (u : UserData) : Nat :=
  match u.autoAdjustFps with
  | some auto => min (u.customFps.getD FPS) auto
  | none => u.customFps.getD FPS

structure Capped (q : VideoQoS) (now : Nat) : Prop where
  users : ∀ u ∈ q.users, q.fps ≤ cap u.2
  delayed : (∃ u ∈ q.users, u.2.delay.responseDelayed = true) → q.fps ≤ 2
  recent : elapsedSecs now q.newUserInstant < 1 → q.fps ≤ INIT_FPS
  unused : q.users = [] → q.fps ≤ INIT_FPS

structure UserInv (u : UserData) : Prop where
  custom : ∀ fps ∈ u.customFps, InRange fps
  auto : ∀ fps ∈ u.autoAdjustFps, InRange fps
  delay : ∀ fps ∈ u.delay.fps, InRange fps
  quality : ∀ q ∈ u.quality, BR_MIN ≤ q.2.ratio

structure Inv (q : VideoQoS) : Prop where
  fps : InRange q.fps
  users : ∀ u ∈ q.users, UserInv u.2

variable {q q' : VideoQoS} {u : UserData} {now : Nat}

theorem clamp_spec {α : Type*} [LinearOrder α] {lo hi : α} (v : α) (h : lo ≤ hi) :
    ∃ w, clamp v lo hi = some w ∧ lo ≤ w ∧ w ≤ hi ∧ w ≤ max lo v := by
  refine ⟨max lo (min v hi), if_pos h, le_max_left _ _, max_le h (min_le_right _ _), ?_⟩
  exact max_le_max le_rfl (min_le_left _ _)

theorem userFps_eq_cap (h : UserInv u) : userFps u = cap u := by
  have hpos : u.customFps.getD FPS ≠ 0 := by
    cases hc : u.customFps with
    | none => decide
    | some fps =>
      have := (h.custom fps hc).1
      exact Nat.pos_iff_ne_zero.mp this
  unfold userFps cap
  cases u.autoAdjustFps with
  | none => rfl
  | some auto =>
    dsimp only
    split <;> omega

theorem inRange_cap (h : UserInv u) : InRange (cap u) := by
  have hcustom : InRange (u.customFps.getD FPS) := by
    cases hc : u.customFps with
    | none => exact ⟨by decide, by decide⟩
    | some fps => exact h.custom fps hc
  unfold cap
  cases ha : u.autoAdjustFps with
  | none => exact hcustom
  | some auto =>
    have hauto := h.auto auto ha
    exact ⟨le_min hcustom.1 hauto.1, (min_le_left _ _).trans hcustom.2⟩

theorem highestFps_spec (h : Inv q) :
    ∃ highest, q.highestFps = some highest ∧ InRange highest ∧
      ∀ u ∈ q.users, highest ≤ cap u.2 := by
  obtain ⟨w, hw, hlo, hhi, hle⟩ := clamp_spec
    (((q.users.map fun u => userFps u.2).filter (· ≥ MIN_FPS)).min?.getD FPS)
    (show MIN_FPS ≤ MAX_FPS by decide)
  refine ⟨w, hw, ⟨hlo, hhi⟩, ?_⟩
  intro u hu
  have hrange := inRange_cap (h.users u hu)
  refine hle.trans (max_le hrange.1 ?_)
  have hmem : cap u.2 ∈ (q.users.map fun u => userFps u.2).filter (· ≥ MIN_FPS) := by
    rw [List.mem_filter]
    refine ⟨List.mem_map.mpr ⟨u, hu, userFps_eq_cap (h.users u hu)⟩, ?_⟩
    exact decide_eq_true hrange.1
  cases hmin : ((q.users.map fun u => userFps u.2).filter (· ≥ MIN_FPS)).min? with
  | none => rw [List.min?_eq_none_iff.mp hmin] at hmem; exact absurd hmem List.not_mem_nil
  | some m => exact (List.min?_eq_some_iff.mp hmin).2 _ hmem

theorem adjustFps_spec (h : Inv q) (now : Nat) :
    ∃ fps, q.adjustFps now = some { q with fps } ∧ InRange fps ∧ Capped { q with fps } now := by
  obtain ⟨highest, hhighest, hrange, hcap⟩ := highestFps_spec h
  unfold adjustFps
  rw [hhighest]
  simp only [Option.bind_eq_bind, Option.bind_some]
  generalize hleast : (q.users.map fun u => u.2.delay.fps.getD INIT_FPS).min?.getD INIT_FPS = least
  generalize hslow : (if q.users.any (·.2.delay.responseDelayed) then min least (MIN_FPS + 1)
    else least) = slow
  generalize hnew : (if elapsedSecs now q.newUserInstant < 1 then min slow INIT_FPS
    else slow) = new
  obtain ⟨fps, hfps, hlo, hhi, hle⟩ := clamp_spec new hrange.1
  rw [hfps]
  have hslower : new ≤ slow := by
    rw [← hnew]
    split
    · exact min_le_left _ _
    · exact le_rfl
  refine ⟨fps, rfl, ⟨hlo, hhi.trans hrange.2⟩, ?_, ?_, ?_, ?_⟩
  · intro u hu
    exact hhi.trans (hcap u hu)
  · rintro ⟨u, hu, hdelayed⟩
    have hany : q.users.any (·.2.delay.responseDelayed) = true := List.any_eq_true.mpr ⟨u, hu, hdelayed⟩
    rw [if_pos hany] at hslow
    have hslow2 : slow ≤ 2 := hslow ▸ min_le_right _ _
    exact hle.trans (max_le (by decide) (hslower.trans hslow2))
  · intro hrecent
    have hrecent' : elapsedSecs now q.newUserInstant < 1 := hrecent
    rw [if_pos hrecent'] at hnew
    have hinit : new ≤ INIT_FPS := hnew ▸ min_le_right _ _
    exact hle.trans (max_le (by decide) hinit)
  · intro hnone
    have husers : q.users = [] := hnone
    rw [husers] at hleast hslow
    -- without users the rate starts from `INIT_FPS`
    have hslow' : slow = INIT_FPS := hslow.symm.trans hleast.symm
    exact hle.trans (max_le (by decide) (hslower.trans hslow'.le))

/-! ### The bit rate ratio -/

theorem ratio_foldl_laterQuality (qualities : List (Int × Quality)) (best : Option (Int × Quality))
    (hbest : ∀ q ∈ best, BR_MIN ≤ q.2.ratio) (h : ∀ q ∈ qualities, BR_MIN ≤ q.2.ratio) :
    ∀ q ∈ qualities.foldl laterQuality best, BR_MIN ≤ q.2.ratio := by
  induction qualities generalizing best with
  | nil => exact hbest
  | cons quality qualities ih =>
    apply ih
    · intro later hlater
      have hq := h quality List.mem_cons_self
      cases best with
      | none => exact Option.some.inj hlater ▸ hq
      | some b =>
        simp only [laterQuality] at hlater
        split at hlater
        · exact Option.some.inj hlater ▸ hq
        · exact Option.some.inj hlater ▸ hbest b rfl
    · exact fun q hq => h q (List.mem_cons_of_mem _ hq)

theorem ratio_latestQuality (h : Inv q) : BR_MIN ≤ q.latestQuality.ratio := by
  have hall : ∀ quality ∈ (q.users.filterMap (·.2.quality)).foldl laterQuality none,
      BR_MIN ≤ quality.2.ratio := by
    apply ratio_foldl_laterQuality
    · simp
    · intro quality hquality
      obtain ⟨u, hu, hq⟩ := List.mem_filterMap.mp hquality
      exact (h.users u hu).quality quality hq
  unfold latestQuality
  cases hlatest : (q.users.filterMap (·.2.quality)).foldl laterQuality none with
  | none => norm_num [Quality.ratio, BR_MIN, BR_BALANCED]
  | some quality => exact hall quality hlatest

theorem minRatio_le {quality : Quality} (h : BR_MIN ≤ quality.ratio) (ratio1mbps : Option ℚ) :
    minRatio quality ratio1mbps ≤ quality.ratio * MAX_BR_MULTIPLE := by
  rw [MAX_BR_MULTIPLE, mul_one]
  have hlower : ∀ m : ℚ, (match ratio1mbps with
      | some r => if m > r then r else m
      | none => m) ≤ m := by
    intro m
    cases ratio1mbps with
    | none => exact le_rfl
    | some r =>
      dsimp only
      split
      · exact le_of_lt ‹_›
      · exact le_rfl
  cases quality with
  | best =>
    refine max_le ((hlower _).trans ?_) h
    norm_num [Quality.ratio, BR_BEST]
  | balanced =>
    refine max_le ((hlower _).trans ((min_le_left _ _).trans ?_)) ?_
    · norm_num [Quality.ratio, BR_BALANCED]
    · norm_num [Quality.ratio, BR_BALANCED, BR_MIN_HIGH_RESOLUTION]
  | low => norm_num [minRatio, Quality.ratio, BR_SPEED, BR_MIN_HIGH_RESOLUTION]
  | custom v =>
    refine le_trans ?_ h
    norm_num [minRatio, BR_MIN, BR_MIN_HIGH_RESOLUTION]

/-- What decides about the frame rate. -/
structure SameRate (q q' : VideoQoS) : Prop where
  fps : q'.fps = q.fps
  users : q'.users = q.users
  newUserInstant : q'.newUserInstant = q.newUserInstant

theorem SameRate.inv (hs : SameRate q q') (h : Inv q) : Inv q' :=
  ⟨hs.fps ▸ h.fps, hs.users ▸ h.users⟩

theorem SameRate.capped (hs : SameRate q q') (h : Capped q now) : Capped q' now := by
  refine ⟨?_, ?_, ?_, ?_⟩
  · rw [hs.fps, hs.users]
    exact h.users
  · rw [hs.fps, hs.users]
    exact h.delayed
  · rw [hs.fps, hs.newUserInstant]
    exact h.recent
  · rw [hs.fps, hs.users]
    exact h.unused

theorem adjustRatio_spec (fl : ℚ → ℚ) (h : Inv q) (now : Nat) (dynamicScreen : Bool) :
    ∃ q', q.adjustRatio fl now dynamicScreen = some q' ∧ SameRate q q' := by
  unfold adjustRatio
  by_cases hvbr : q.inVbrState = true
  · rw [hvbr]
    cases (q.users.map (·.2.delay.avgDelay)).max? with
    | none => exact ⟨q, rfl, rfl, rfl, rfl⟩
    | some maxDelay =>
      dsimp only
      obtain ⟨ratio, hratio, -⟩ := clamp_spec _ (minRatio_le (ratio_latestQuality h) _)
      simp only [Bool.not_true, Bool.false_eq_true, if_false, Option.bind_eq_bind]
      rw [hratio]
      exact ⟨_, rfl, rfl, rfl, rfl⟩
  · rw [Bool.not_eq_true] at hvbr
    rw [hvbr]
    exact ⟨q, rfl, rfl, rfl, rfl⟩

/-! ### The invariant -/

theorem userInv_new : UserInv {} := ⟨by simp, by simp, by simp, by simp⟩

theorem users_modify {id : Int} {f : UserData → UserData} {users : List (Int × UserData)}
    (h : ∀ u ∈ users, UserInv u.2) (hf : ∀ u, UserInv u → UserInv (f u)) :
    ∀ u ∈ modify id f users, UserInv u.2 := by
  intro u hu
  obtain ⟨v, hv, rfl⟩ := List.mem_map.mp hu
  dsimp only
  split
  · exact hf v.2 (h v hv)
  · exact h v hv

theorem users_filter {id : Int} {users : List (Int × UserData)} (h : ∀ u ∈ users, UserInv u.2) :
    ∀ u ∈ users.filter (·.1 ≠ id), UserInv u.2 :=
  fun u hu => h u (List.mem_of_mem_filter hu)

theorem inv_onConnectionOpen (h : Inv q) (id : Int) (abr : Bool) (now : Nat) :
    Inv (q.onConnectionOpen id abr now) := by
  refine ⟨h.fps, ?_⟩
  intro u hu
  rcases List.mem_append.mp hu with hu | hu
  · exact users_filter h.users u hu
  · obtain rfl := List.mem_singleton.mp hu
    exact userInv_new

theorem inv_new (now : Nat) : Inv { adjustRatioInstant := now, newUserInstant := now } :=
  ⟨⟨show MIN_FPS ≤ FPS by decide, show FPS ≤ MAX_FPS by decide⟩, by simp⟩

theorem inv_onConnectionClose (h : Inv q) (id : Int) (now : Nat) :
    Inv (q.onConnectionClose id now) := by
  unfold onConnectionClose
  dsimp only
  split
  · exact inv_new now
  · exact ⟨h.fps, users_filter h.users⟩

theorem inv_modify (h : Inv q) {id : Int} {f : UserData → UserData}
    (hf : ∀ u, UserInv u → UserInv (f u)) : Inv { q with users := modify id f q.users } :=
  ⟨h.fps, users_modify h.users hf⟩

/-- A rate that is out of range is not taken. -/
theorem inv_setFps (h : Inv q) {id : Int} {fps : Nat} {set : UserData → UserData}
    (hset : InRange fps → ∀ u, UserInv u → UserInv (set u)) :
    Inv (if fps < MIN_FPS ∨ fps > MAX_FPS then q else { q with users := modify id set q.users }) := by
  split
  · exact h
  · rename_i hrange
    rw [not_or, not_lt, not_lt] at hrange
    exact inv_modify h (hset hrange)

theorem inv_userCustomFps (h : Inv q) (id : Int) (fps : Nat) : Inv (q.userCustomFps id fps) := by
  apply inv_setFps h
  intro hrange u hu
  refine ⟨?_, hu.auto, hu.delay, hu.quality⟩
  rintro _ ⟨⟩
  exact hrange

theorem inv_userAutoAdjustFps (h : Inv q) (id : Int) (fps : Nat) :
    Inv (q.userAutoAdjustFps id fps) := by
  apply inv_setFps h
  intro hrange u hu
  refine ⟨hu.custom, ?_, hu.delay, hu.quality⟩
  rintro _ ⟨⟩
  exact hrange

theorem inv_userRecord (h : Inv q) (id : Int) (v : Bool) : Inv (q.userRecord id v) := by
  apply inv_modify h
  intro u hu
  exact ⟨hu.custom, hu.auto, hu.delay, hu.quality⟩

theorem convertQuality_spec (fl : ℚ → ℚ) (imageQuality : Int) :
    ∃ quality, convertQuality fl imageQuality = some quality ∧ BR_MIN ≤ quality.ratio := by
  unfold convertQuality
  split
  · exact ⟨_, rfl, by norm_num [Quality.ratio, BR_MIN, BR_BALANCED]⟩
  split
  · exact ⟨_, rfl, by norm_num [Quality.ratio, BR_MIN, BR_SPEED]⟩
  split
  · exact ⟨_, rfl, by norm_num [Quality.ratio, BR_MIN, BR_BEST]⟩
  obtain ⟨b, hb, hlo, -⟩ := clamp_spec
    (fl (((imageQuality / 2 ^ 8 % 2 ^ 12 * 2 : Int) : ℚ) / 100))
    (show BR_MIN ≤ BR_MAX by norm_num [BR_MIN, BR_MAX])
  dsimp only
  rw [hb]
  exact ⟨.custom b, rfl, hlo⟩

theorem inv_userImageQuality (fl : ℚ → ℚ) (h : Inv q) (id imageQuality time : Int) :
    ∃ q', q.userImageQuality fl id imageQuality time = some q' ∧ Inv q' := by
  obtain ⟨quality, hquality, hratio⟩ := convertQuality_spec fl imageQuality
  unfold userImageQuality
  rw [hquality]
  simp only [Option.bind_eq_bind, Option.bind_some]
  split
  · have hset : Inv { q with
        users := modify id (fun u => { u with quality := some (time, quality) }) q.users } := by
      apply inv_modify h
      intro u hu
      refine ⟨hu.custom, hu.auto, hu.delay, ?_⟩
      rintro _ ⟨⟩
      exact hratio
    exact ⟨_, rfl, hset.fps, hset.users⟩
  · exact ⟨q, rfl, h⟩

theorem adaptFps_isSome (minFps normalFps quotient oldAvg avg fps quick : Nat) :
    ∃ r, adaptFps minFps normalFps quotient oldAvg avg fps quick = some r := by
  unfold adaptFps
  dsimp only
  split
  · split
    · exact ⟨_, rfl⟩
    · exact ⟨_, rfl⟩
  split
  · exact ⟨_, rfl⟩
  split
  · exact ⟨_, rfl⟩
  split
  · exact ⟨_, rfl⟩
  split
  · exact ⟨_, rfl⟩
  -- the average is at least 300 here
  · have hdiv : div (delayThreshold * minFps) avg = some (delayThreshold * minFps / avg) :=
      if_neg (by omega)
    rw [hdiv]
    simp only [Option.bind_eq_bind, Option.bind_some]
    split
    · exact ⟨_, rfl⟩
    · exact ⟨_, rfl⟩

theorem delayedUser_spec (smooth : Nat → Nat → Nat) {highest : Nat} (hh : InRange highest)
    (hu : UserInv u) (fpsNow minFps normalFps delay quotient : Nat) :
    ∃ u', delayedUser smooth fpsNow highest minFps normalFps delay quotient u = some u' ∧
      UserInv u' := by
  unfold delayedUser
  dsimp only
  obtain ⟨⟨fps, quick⟩, hadapt⟩ := adaptFps_isSome minFps normalFps quotient u.delay.avgDelay
    (max (u.delay.addDelay smooth (max delay 10)).avgDelay 10) fpsNow
    (u.delay.addDelay smooth (max delay 10)).quickIncreaseFpsCount
  rw [hadapt]
  simp only [Option.bind_eq_bind, Option.bind_some]
  generalize (if _ ≥ 3 then (fps + 1, 0) else (fps, _)) = r
  obtain ⟨rate, hrate, hlo, hhi, -⟩ := clamp_spec r.1 hh.1
  rw [hrate]
  refine ⟨_, rfl, hu.custom, hu.auto, ?_, hu.quality⟩
  rintro _ ⟨⟩
  exact ⟨hlo, hhi.trans hh.2⟩

theorem inv_adjustFps (h : Inv q) (now : Nat) :
    ∃ q', q.adjustFps now = some q' ∧ Inv q' ∧ Capped q' now := by
  obtain ⟨fps, hadjust, hrange, hcapped⟩ := adjustFps_spec h now
  exact ⟨{ q with fps }, hadjust, ⟨hrange, h.users⟩, hcapped⟩

theorem inv_userNetworkDelay (fl : ℚ → ℚ) (smooth : Nat → Nat → Nat) (linux : Bool) (h : Inv q)
    (id : Int) (delay quotient now : Nat) :
    ∃ q', q.userNetworkDelay fl smooth linux id delay quotient now = some q' ∧ Inv q' ∧
      Capped q' now := by
  obtain ⟨highest, hhighest, hrange, -⟩ := highestFps_spec h
  unfold userNetworkDelay
  rw [hhighest]
  simp only [Option.bind_eq_bind, Option.bind_some]
  cases hlookup : q.users.lookup id with
  | none => exact inv_adjustFps h now
  | some user =>
    obtain ⟨before, after, husers, -⟩ := List.lookup_eq_some_iff.mp hlookup
    have huser : UserInv user := h.users (id, user) (by rw [husers]; simp)
    dsimp only
    obtain ⟨user', huser', hinv⟩ := delayedUser_spec smooth hrange huser q.fps
      (fpsFor q.latestQuality.ratio).1 (fpsFor q.latestQuality.ratio).2 delay quotient
    rw [huser', Option.bind_some]
    have hq : Inv { q with users := modify id (fun _ => user') q.users } :=
      inv_modify h fun _ _ => hinv
    obtain ⟨q₁, hadjust, hinv₁, hcapped⟩ := inv_adjustFps hq now
    rw [hadjust, Option.bind_some]
    split
    · obtain ⟨q₂, hratio, hsame⟩ := adjustRatio_spec fl hinv₁ now false
      exact ⟨q₂, hratio, hsame.inv hinv₁, hsame.capped hcapped⟩
    · exact ⟨q₁, rfl, hinv₁, hcapped⟩

theorem userInv_overdueUser (smooth : Nat → Nat → Nat) (elapsed : Nat) (hu : UserInv u) :
    UserInv (overdueUser smooth elapsed u) := by
  refine ⟨hu.custom, hu.auto, ?_, hu.quality⟩
  unfold overdueUser
  dsimp only
  split
  · exact hu.delay
  · exact hu.delay

theorem inv_userDelayResponseElapsed (smooth : Nat → Nat → Nat) (h : Inv q) (id : Int)
    (elapsed now : Nat) :
    ∃ q', q.userDelayResponseElapsed smooth id elapsed now = some q' ∧ Inv q' ∧
      (Recomputes q (.userDelayResponseElapsed id elapsed) → Capped q' now) := by
  have hq : Inv { q with users := modify id (overdueUser smooth elapsed) q.users } :=
    inv_modify h fun _ hu => userInv_overdueUser smooth elapsed hu
  unfold userDelayResponseElapsed
  dsimp only
  split
  · obtain ⟨q', hadjust, hinv, hcapped⟩ := inv_adjustFps hq now
    exact ⟨q', hadjust, hinv, fun _ => hcapped⟩
  · rename_i hno
    refine ⟨_, rfl, hq, ?_⟩
    rintro ⟨hany, hlate⟩
    exact absurd ⟨hany, hlate⟩ hno

theorem inv_updateDisplayData (fl : ℚ → ℚ) (h : Inv q) (name : String) (sendCounter now : Nat) :
    ∃ q', q.updateDisplayData fl name sendCounter now = some q' ∧ Inv q' ∧ Capped q' now := by
  unfold updateDisplayData
  dsimp only
  obtain ⟨q₁, hadjust, hinv, hcapped⟩ := inv_adjustFps
    (q := { q with displays := modify name (fun d => { d with
      sendCounter := d.sendCounter + sendCounter }) q.displays }) ⟨h.fps, h.users⟩ now
  rw [hadjust]
  simp only [Option.bind_eq_bind, Option.bind_some]
  split
  · split
    · generalize hreset : { q₁ with displays := _ } = q₂
      have hsame : SameRate q₁ q₂ := by
        subst hreset
        exact ⟨rfl, rfl, rfl⟩
      obtain ⟨q₃, hratio, hsame'⟩ := adjustRatio_spec fl (hsame.inv hinv) now _
      exact ⟨q₃, hratio, hsame'.inv (hsame.inv hinv), hsame'.capped (hsame.capped hcapped)⟩
    · exact ⟨q₁, rfl, hinv, hcapped⟩
  · exact ⟨_, rfl, ⟨hinv.fps, hinv.users⟩, hcapped.users, hcapped.delayed, hcapped.recent,
      hcapped.unused⟩

theorem inv_checkRatio (h : Inv q) : Inv q.checkRatio := by
  unfold checkRatio
  split
  · exact ⟨h.fps, h.users⟩
  · exact h

theorem inv_step (p : Platform) (h : Inv q) (call : Op × Nat) :
    ∃ q', step p q call = some q' ∧ Inv q' ∧ (Recomputes q call.1 → Capped q' call.2) := by
  obtain ⟨op, now⟩ := call
  cases op with
  | onConnectionOpen id abr => exact ⟨_, rfl, inv_onConnectionOpen h id abr now, False.elim⟩
  | onConnectionClose id => exact ⟨_, rfl, inv_onConnectionClose h id now, False.elim⟩
  | userCustomFps id fps => exact ⟨_, rfl, inv_userCustomFps h id fps, False.elim⟩
  | userAutoAdjustFps id fps => exact ⟨_, rfl, inv_userAutoAdjustFps h id fps, False.elim⟩
  | userImageQuality id imageQuality time =>
    obtain ⟨q', hq', hinv⟩ := inv_userImageQuality p.fl h id imageQuality time
    exact ⟨q', hq', hinv, False.elim⟩
  | userRecord id v => exact ⟨_, rfl, inv_userRecord h id v, False.elim⟩
  | userNetworkDelay id delay quotient =>
    obtain ⟨q', hq', hinv, hcapped⟩ :=
      inv_userNetworkDelay p.fl p.smooth p.linux h id delay quotient now
    exact ⟨q', hq', hinv, fun _ => hcapped⟩
  | userDelayResponseElapsed id elapsed =>
    exact inv_userDelayResponseElapsed p.smooth h id elapsed now
  | newDisplay name => exact ⟨_, rfl, ⟨h.fps, h.users⟩, False.elim⟩
  | removeDisplay name => exact ⟨_, rfl, ⟨h.fps, h.users⟩, False.elim⟩
  | setSupportChangingQuality name support => exact ⟨_, rfl, ⟨h.fps, h.users⟩, False.elim⟩
  | updateDisplayData name sendCounter =>
    obtain ⟨q', hq', hinv, hcapped⟩ := inv_updateDisplayData p.fl h name sendCounter now
    exact ⟨q', hq', hinv, fun _ => hcapped⟩
  | storeBitrate bitrate => exact ⟨_, rfl, ⟨h.fps, h.users⟩, False.elim⟩
  | ratio => exact ⟨_, rfl, inv_checkRatio h, False.elim⟩
  | rehash users =>
    refine ⟨_, rfl, ?_, False.elim⟩
    split
    · rename_i hperm
      exact ⟨h.fps, fun u hu => h.users u (hperm.mem_iff.mp hu)⟩
    · exact h

theorem run_concat (p : Platform) (calls : List (Op × Nat)) (call : Op × Nat) :
    run p (calls ++ [call]) = (run p calls).bind fun q => step p q call := by
  rw [run, List.foldlM_append]
  simp [run]

theorem inv_run (p : Platform) (calls : List (Op × Nat)) : ∃ q, run p calls = some q ∧ Inv q := by
  induction calls using List.reverseRecOn with
  | nil => exact ⟨{}, rfl, inv_new 0⟩
  | append_singleton calls call ih =>
    obtain ⟨q, hq, hinv⟩ := ih
    obtain ⟨q', hq', hinv', -⟩ := inv_step p hinv call
    exact ⟨q', by rw [run_concat, hq]; exact hq', hinv'⟩

/-! ### The last connection -/

/-- The time at which a call opens a connection. -/
def opening : Op × Nat → Option Nat
  | (.onConnectionOpen _ _, now) => some now
  | _ => none

/-- The time of the last connection that was opened. -/
def lastOpening (calls : List (Op × Nat)) : Option Nat := (calls.filterMap opening).getLast?

theorem lastOpening_concat_some (calls : List (Op × Nat)) {call : Op × Nat} {t : Nat}
    (h : opening call = some t) : lastOpening (calls ++ [call]) = some t := by
  rw [lastOpening, List.filterMap_append, List.filterMap_cons_some h, List.filterMap_nil,
    List.getLast?_concat]

theorem lastOpening_concat_none (calls : List (Op × Nat)) {call : Op × Nat}
    (h : opening call = none) : lastOpening (calls ++ [call]) = lastOpening calls := by
  rw [lastOpening, List.filterMap_append, List.filterMap_cons_none h, List.filterMap_nil,
    List.append_nil, lastOpening]

theorem opening_of_recomputes {op : Op} (h : Recomputes q op) (now : Nat) :
    opening (op, now) = none := by
  cases op with
  | onConnectionOpen id abr => exact h.elim
  | _ => rfl

/-- Nobody came since the instant was taken. -/
structure SameUsers (q q' : VideoQoS) : Prop where
  newUserInstant : q'.newUserInstant = q.newUserInstant
  none : q.users = [] → q'.users = []

theorem SameUsers.refl (q : VideoQoS) : SameUsers q q := ⟨rfl, id⟩

theorem SameUsers.trans {q₁ q₂ q₃ : VideoQoS} (h : SameUsers q₁ q₂) (h' : SameUsers q₂ q₃) :
    SameUsers q₁ q₃ :=
  ⟨h'.newUserInstant.trans h.newUserInstant, fun hnone => h'.none (h.none hnone)⟩

theorem sameUsers_modify (q : VideoQoS) (id : Int) (f : UserData → UserData) :
    SameUsers q { q with users := modify id f q.users } := by
  refine ⟨rfl, ?_⟩
  intro hnone
  rw [hnone]
  rfl

theorem sameUsers_adjustFps (h : q.adjustFps now = some q') : SameUsers q q' := by
  unfold adjustFps at h
  simp only [Option.bind_eq_bind, Option.bind_eq_some_iff, Option.some.injEq] at h
  obtain ⟨_, -, _, -, rfl⟩ := h
  exact ⟨rfl, id⟩

theorem sameUsers_adjustRatio {fl : ℚ → ℚ} {dynamicScreen : Bool}
    (h : q.adjustRatio fl now dynamicScreen = some q') : SameUsers q q' := by
  unfold adjustRatio at h
  split at h
  · obtain rfl := Option.some.inj h
    exact .refl q
  split at h
  · obtain rfl := Option.some.inj h
    exact .refl q
  · simp only [Option.bind_eq_bind, Option.bind_eq_some_iff, Option.some.injEq] at h
    obtain ⟨_, -, rfl⟩ := h
    exact ⟨rfl, id⟩

theorem sameUsers_userImageQuality {fl : ℚ → ℚ} {id imageQuality time : Int}
    (h : q.userImageQuality fl id imageQuality time = some q') : SameUsers q q' := by
  unfold userImageQuality at h
  simp only [Option.bind_eq_bind, Option.bind_eq_some_iff] at h
  obtain ⟨quality, -, h⟩ := h
  split at h
  · obtain rfl := Option.some.inj h
    have hmodify := sameUsers_modify q id fun u => { u with quality := some (time, quality) }
    exact ⟨hmodify.newUserInstant, hmodify.none⟩
  · obtain rfl := Option.some.inj h
    exact .refl q

theorem sameUsers_userNetworkDelay {fl : ℚ → ℚ} {smooth : Nat → Nat → Nat} {linux : Bool}
    {id : Int} {delay quotient : Nat}
    (h : q.userNetworkDelay fl smooth linux id delay quotient now = some q') : SameUsers q q' := by
  unfold userNetworkDelay at h
  simp only [Option.bind_eq_bind, Option.bind_eq_some_iff] at h
  obtain ⟨highest, -, h⟩ := h
  split at h
  · exact sameUsers_adjustFps h
  · simp only [Option.bind_eq_some_iff] at h
    obtain ⟨user', -, q₁, hadjust, h⟩ := h
    have hsame := (sameUsers_modify q id fun _ => user').trans (sameUsers_adjustFps hadjust)
    split at h
    · exact hsame.trans (sameUsers_adjustRatio h)
    · obtain rfl := Option.some.inj h
      exact hsame

theorem sameUsers_userDelayResponseElapsed {smooth : Nat → Nat → Nat} {id : Int} {elapsed : Nat}
    (h : q.userDelayResponseElapsed smooth id elapsed now = some q') : SameUsers q q' := by
  have hsame := sameUsers_modify q id (overdueUser smooth elapsed)
  unfold userDelayResponseElapsed at h
  dsimp only at h
  split at h
  · exact hsame.trans (sameUsers_adjustFps h)
  · obtain rfl := Option.some.inj h
    exact hsame

theorem sameUsers_updateDisplayData {fl : ℚ → ℚ} {name : String} {sendCounter : Nat}
    (h : q.updateDisplayData fl name sendCounter now = some q') : SameUsers q q' := by
  unfold updateDisplayData at h
  simp only [Option.bind_eq_bind, Option.bind_eq_some_iff] at h
  obtain ⟨q₁, hadjust, h⟩ := h
  have hadjusted := sameUsers_adjustFps hadjust
  have hsame : SameUsers q q₁ := ⟨hadjusted.newUserInstant, hadjusted.none⟩
  split at h
  · split at h
    · have hratio := sameUsers_adjustRatio h
      exact hsame.trans ⟨hratio.newUserInstant, hratio.none⟩
    · obtain rfl := Option.some.inj h
      exact hsame
  · obtain rfl := Option.some.inj h
    exact ⟨hsame.newUserInstant, hsame.none⟩

theorem sameUsers_step {p : Platform} {call : Op × Nat} (h : step p q call = some q')
    (hopening : opening call = none) : q'.users = [] ∨ SameUsers q q' := by
  obtain ⟨op, now⟩ := call
  cases op with
  | onConnectionOpen id abr => exact absurd hopening (Option.some_ne_none now)
  | onConnectionClose id =>
    obtain rfl := Option.some.inj h
    unfold onConnectionClose
    dsimp only
    split
    · exact .inl rfl
    · refine .inr ⟨rfl, ?_⟩
      intro hnone
      rw [hnone]
      rfl
  | userCustomFps id fps =>
    obtain rfl := Option.some.inj h
    unfold userCustomFps
    split
    · exact .inr (.refl q)
    · exact .inr (sameUsers_modify q id _)
  | userAutoAdjustFps id fps =>
    obtain rfl := Option.some.inj h
    unfold userAutoAdjustFps
    split
    · exact .inr (.refl q)
    · exact .inr (sameUsers_modify q id _)
  | userImageQuality id imageQuality time => exact .inr (sameUsers_userImageQuality h)
  | userRecord id v =>
    obtain rfl := Option.some.inj h
    exact .inr (sameUsers_modify q id _)
  | userNetworkDelay id delay quotient => exact .inr (sameUsers_userNetworkDelay h)
  | userDelayResponseElapsed id elapsed => exact .inr (sameUsers_userDelayResponseElapsed h)
  | newDisplay name =>
    obtain rfl := Option.some.inj h
    exact .inr ⟨rfl, id⟩
  | removeDisplay name =>
    obtain rfl := Option.some.inj h
    exact .inr ⟨rfl, id⟩
  | setSupportChangingQuality name support =>
    obtain rfl := Option.some.inj h
    exact .inr ⟨rfl, id⟩
  | updateDisplayData name sendCounter => exact .inr (sameUsers_updateDisplayData h)
  | storeBitrate bitrate =>
    obtain rfl := Option.some.inj h
    exact .inr ⟨rfl, id⟩
  | ratio =>
    obtain rfl := Option.some.inj h
    unfold checkRatio
    split
    · exact .inr ⟨rfl, id⟩
    · exact .inr (.refl q)
  | rehash users =>
    obtain rfl := Option.some.inj h
    split
    · rename_i hperm
      refine .inr ⟨rfl, ?_⟩
      intro hnone
      exact List.Perm.eq_nil (hnone ▸ hperm)
    · exact .inr (.refl q)

/-- The instant is the one of the last connection, unless nobody is connected any more. -/
theorem lastOpening_run (p : Platform) (calls : List (Op × Nat)) (hq : run p calls = some q) :
    q.users = [] ∨ lastOpening calls = some q.newUserInstant := by
  induction calls using List.reverseRecOn generalizing q with
  | nil =>
    obtain rfl := Option.some.inj hq
    exact .inl rfl
  | append_singleton calls call ih =>
    rw [run_concat, Option.bind_eq_some_iff] at hq
    obtain ⟨q₀, hq₀, hstep⟩ := hq
    cases hopening : opening call with
    | some t =>
      refine .inr ((lastOpening_concat_some calls hopening).trans ?_)
      obtain ⟨op, now⟩ := call
      cases op with
      | onConnectionOpen id abr =>
        obtain rfl := Option.some.inj hopening
        obtain rfl := Option.some.inj hstep
        rfl
      | _ => exact absurd hopening.symm (Option.some_ne_none t)
    | none =>
      rw [lastOpening_concat_none calls hopening]
      rcases sameUsers_step hstep hopening with hnone | hsame
      · exact .inl hnone
      · rw [hsame.newUserInstant]
        exact (ih hq₀).imp_left hsame.none

/-- Every sequence of calls goes through, the rates stay in range, and a rate that was just
computed respects every cap, also the one of the first second after the last connection. -/
theorem video_qos_rate (p : Platform) (calls : List (Op × Nat)) :
    ∃ q, run p calls = some q ∧ InRange q.fps ∧
      (∀ u ∈ q.users, ∀ fps ∈ u.2.delay.fps, InRange fps) ∧
      ∀ op now, ∃ q', run p (calls ++ [(op, now)]) = some q' ∧
        (Recomputes q op → Capped q' now ∧
          ∀ t, lastOpening calls = some t → elapsedSecs now t < 1 → q'.fps ≤ INIT_FPS) := by
  obtain ⟨q, hq, hinv⟩ := inv_run p calls
  refine ⟨q, hq, hinv.fps, fun u hu => (hinv.users u hu).delay, ?_⟩
  intro op now
  obtain ⟨q', hq', -, hcapped⟩ := inv_step p hinv (op, now)
  have hrun : run p (calls ++ [(op, now)]) = some q' := by
    rw [run_concat, hq]
    exact hq'
  refine ⟨q', hrun, ?_⟩
  intro hrecomputes
  refine ⟨hcapped hrecomputes, ?_⟩
  intro t ht hrecent
  have hlast := lastOpening_run p _ hrun
  rw [lastOpening_concat_none calls (opening_of_recomputes hrecomputes now), ht] at hlast
  rcases hlast with hnone | hinstant
  · exact (hcapped hrecomputes).unused hnone
  · exact (hcapped hrecomputes).recent (Option.some.inj hinstant ▸ hrecent)

/-! ### The average delay -/

/-- The first mean is not above the estimate; the second is, by less than the first mean. -/
def Overtakes (rtt : Option Nat) (m n : Nat) : Prop := ∃ r, rtt = some r ∧ m ≤ r ∧ r < n ∧ n < m + r

/-- The second mean has wrapped around to at most the estimate, and the first is above it by
no more than the second. -/
def Undercuts (rtt : Option Nat) (m n : Nat) : Prop := ∃ r, rtt = some r ∧ n ≤ r ∧ r < m ∧ m ≤ n + r

theorem mean_le_mean {xs ys : List Nat} (h : List.Forall₂ (· ≤ ·) xs ys) (hsum : ys.sum < 2 ^ 32) :
    UserDelay.mean xs ≤ UserDelay.mean ys := by
  have hle := h.sum_le_sum
  unfold UserDelay.mean
  rw [Nat.mod_eq_of_lt (hle.trans_lt hsum), Nat.mod_eq_of_lt hsum, h.length_eq]
  exact Nat.div_le_div_right hle

theorem avgDelay_le_iff {d e : UserDelay} (hrtt : d.rttCalculator.getRtt = e.rttCalculator.getRtt)
    (hlen : d.delayHistory.length = e.delayHistory.length) :
    d.avgDelay ≤ e.avgDelay ↔
      (UserDelay.mean d.delayHistory ≤ UserDelay.mean e.delayHistory ∧
        ¬Overtakes e.rttCalculator.getRtt (UserDelay.mean d.delayHistory)
          (UserDelay.mean e.delayHistory)) ∨
      Undercuts e.rttCalculator.getRtt (UserDelay.mean d.delayHistory)
        (UserDelay.mean e.delayHistory) := by
  unfold UserDelay.avgDelay
  rw [hrtt, hlen]
  by_cases hpos : e.delayHistory.length > 0
  · rw [if_pos hpos, if_pos hpos]
    cases e.rttCalculator.getRtt with
    | none => simp [Overtakes, Undercuts]
    | some r =>
      simp only [Overtakes, Undercuts, Option.some.injEq, exists_eq_left']
      split <;> split <;> omega
  · have hzero : e.delayHistory.length = 0 := Nat.eq_zero_of_not_pos hpos
    have hd : UserDelay.mean d.delayHistory = 0 := by rw [UserDelay.mean, hlen, hzero, Nat.div_zero]
    have he : UserDelay.mean e.delayHistory = 0 := by rw [UserDelay.mean, hzero, Nat.div_zero]
    rw [if_neg hpos, if_neg hpos, hd, he]
    refine iff_of_true le_rfl (.inl ⟨le_rfl, ?_⟩)
    rintro ⟨r, -, -, hlt, -⟩
    exact absurd hlt (Nat.not_lt_zero r)

/-- When larger delays are rated as at least as large. -/
theorem avg_delay_monotone_iff (d e : UserDelay)
    (hrtt : d.rttCalculator.getRtt = e.rttCalculator.getRtt)
    (hle : List.Forall₂ (· ≤ ·) d.delayHistory e.delayHistory) :
    (d.avgDelay ≤ e.avgDelay ↔
      (UserDelay.mean d.delayHistory ≤ UserDelay.mean e.delayHistory ∧
        ¬Overtakes e.rttCalculator.getRtt (UserDelay.mean d.delayHistory)
          (UserDelay.mean e.delayHistory)) ∨
      Undercuts e.rttCalculator.getRtt (UserDelay.mean d.delayHistory)
        (UserDelay.mean e.delayHistory)) ∧
    (e.delayHistory.sum < 2 ^ 32 →
      (d.avgDelay ≤ e.avgDelay ↔
        ¬Overtakes e.rttCalculator.getRtt (UserDelay.mean d.delayHistory)
          (UserDelay.mean e.delayHistory))) := by
  have hiff := avgDelay_le_iff hrtt hle.length_eq
  refine ⟨hiff, fun hsum => hiff.trans ?_⟩
  have hmean := mean_le_mean hle hsum
  constructor
  · rintro (⟨-, hno⟩ | ⟨r, -, hr, hlt, -⟩)
    · exact hno
    · omega
  · intro hno
    exact .inl ⟨hmean, hno⟩

/-- The delays of a user that came in one after the other, without rounding. -/
def delayed (delays : List Nat) : UserDelay :=
  delays.foldl (fun d delay => d.addDelay (fun m w => (m + w) / 2) delay) {}

theorem avg_delay_monotone_iff_slow :
    (delayed (List.replicate 13 100)).avgDelay ≤
      (delayed (List.replicate 10 100 ++ [300, 300, 300])).avgDelay := by
  refine ((avg_delay_monotone_iff _ _ (by decide) (by decide)).2 (by decide)).mpr ?_
  rintro ⟨r, hr, -, -, hlt⟩
  obtain rfl : 100 = r := Option.some.inj hr
  exact absurd hlt (by decide)

/-- Delays that are all equal to the estimate are rated worse than larger ones. -/
theorem avg_delay_not_monotone :
    (delayed (List.replicate 13 100)).rttCalculator.getRtt =
      (delayed (List.replicate 10 100 ++ [101, 101, 101])).rttCalculator.getRtt ∧
    List.Forall₂ (· ≤ ·) (delayed (List.replicate 13 100)).delayHistory
      (delayed (List.replicate 10 100 ++ [101, 101, 101])).delayHistory ∧
    ¬(delayed (List.replicate 13 100)).avgDelay ≤
      (delayed (List.replicate 10 100 ++ [101, 101, 101])).avgDelay := by
  refine ⟨by decide, by decide, by decide⟩

end RustDesk.VideoQoS
