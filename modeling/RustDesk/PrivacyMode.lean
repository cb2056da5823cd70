import RustDesk.History
import Mathlib.Logic.Function.Basic

/-!
# Privacy mode

One object of the process implements privacy mode and remembers the connection that turned
it on. A connection turns it on in two steps: the platform is asked under the lock of the
object, and the result is answered after the lock was given up (for an asynchronous
implementation also after a timeout, with the work still going on in a thread). Other
connections can come between the two.
-/

namespace RustDesk.PrivacyMode

/-- `INVALID_PRIVACY_MODE_CONN_ID` -/
def invalidConnId : Int := 0

def occupied : String := "Privacy occupied by another one."

def turnOffOtherId : String := "Failed to turn off privacy mode that belongs to someone else."

def notSupported : String :=
  "Unsupported. 1 Multi-screen is not supported. 2 Please confirm the license is activated."

/-- The id of a connection: `get_new_id` counts up from a positive number. -/
abbrev ConnId := { id : Int // id ≠ invalidConnId }

/-- The implementations of the trait; `win_mag` and `win_exclude_from_capture` are both
`win_topmost_window`. -/
inductive ImplKind
  | macos
  | topmostWindow
  | virtualDisplay
  deriving DecidableEq, Repr

/-- What the platform answers during one operation. An error is its text. -/
structure PlatformCalls where
  macSetPrivacyMode : Bool → Bool := fun _ => true
  injectionDll : Except String Bool := .ok true
  startBroker : Except String Unit := .ok ()
  showPrivacyWindows : Except String Unit := .ok ()
  hidePrivacyWindows : Except String Unit := .ok ()
  findPrivacyHwnds : Except String Unit := .ok ()
  unhook : Except String Unit := .ok ()
  virtualDisplaySupported : Bool := true
  physicalDisplays : Bool := true
  switchDisplays : Except String Unit := .ok ()

structure PrivacyModeImpl where
  kind : ImplKind
  implKey : String
  connId : Int := invalidConnId
  deriving DecidableEq, Repr

/-- The object, and whether the screen of the host is hidden. -/
structure Host where
  privacyMode : Option PrivacyModeImpl := none
  hidden : Bool := false
  deriving DecidableEq, Repr

namespace PrivacyModeImpl

def checkOnConnId (connId : Int) (m : PrivacyModeImpl) : Except String Bool :=
  if m.connId = connId then .ok true
  else if m.connId ≠ invalidConnId then .error occupied
  else .ok false

def checkOffConnId (connId : Int) (m : PrivacyModeImpl) : Except String Unit :=
  if m.connId ≠ invalidConnId ∧ connId ≠ invalidConnId ∧ m.connId ≠ connId then
    .error turnOffOtherId
  else .ok ()

/-- The part of `turn_off_privacy` after the check of the connection. -/
def disable (c : PlatformCalls) (m : PrivacyModeImpl) (hidden : Bool) :
    PrivacyModeImpl × Bool × Except String Unit :=
  match m.kind with
  | .macos =>
    if c.macSetPrivacyMode false then ({ m with connId := invalidConnId }, false, .ok ())
    else (m, hidden, .error "Failed to turn off privacy mode")
  | .topmostWindow =>
    match c.unhook with
    | .error e => (m, hidden, .error e)
    | .ok _ =>
      match c.findPrivacyHwnds with
      | .error e => (m, hidden, .error e)
      -- when the windows cannot be hidden the broker is stopped
      | .ok _ => ({ m with connId := invalidConnId }, false, c.hidePrivacyWindows)
  | .virtualDisplay =>
    match c.unhook with
    | .error e => (m, hidden, .error e)
    | .ok _ => ({ m with connId := invalidConnId }, false, .ok ())

/-- The part of `turn_on_privacy` after the check of the connection. -/
def enable (c : PlatformCalls) (connId : Int) (m : PrivacyModeImpl) (hidden : Bool) :
    PrivacyModeImpl × Bool × Except String Bool :=
  match m.kind with
  | .macos =>
    if c.macSetPrivacyMode true then ({ m with connId }, true, .ok true)
    else (m, hidden, .error "Failed to turn on privacy mode")
  | .topmostWindow =>
    match c.injectionDll with
    | .error e => (m, hidden, .error e)
    | .ok false => (m, hidden, .ok false)
    | .ok true =>
      match c.startBroker with
      | .error e => (m, hidden, .error e)
      | .ok _ =>
        match c.showPrivacyWindows with
        -- the broker is stopped, and its windows are gone
        | .error e => (m, false, .error e)
        | .ok _ => ({ m with connId }, true, .ok true)
  | .virtualDisplay =>
    if c.physicalDisplays = false then
      (m, hidden, .error "no_need_privacy_mode_no_physical_displays_tip")
    else
      match c.switchDisplays with
      -- the guard turns the mode off with the invalid id
      | .error e => ((m.disable c hidden).1, (m.disable c hidden).2.1, .error e)
      | .ok _ => ({ m with connId }, true, .ok true)

def turnOnPrivacy (c : PlatformCalls) (connId : Int) (m : PrivacyModeImpl) (hidden : Bool) :
    PrivacyModeImpl × Bool × Except String Bool :=
  if m.kind = .virtualDisplay ∧ c.virtualDisplaySupported = false then
    (m, hidden, .error "idd_not_support_under_win10_2004_tip")
  else
    match m.checkOnConnId connId with
    | .error e => (m, hidden, .error e)
    | .ok true => (m, hidden, .ok true)
    | .ok false => m.enable c connId hidden

def turnOffPrivacy (c : PlatformCalls) (connId : Int) (m : PrivacyModeImpl) (hidden : Bool) :
    PrivacyModeImpl × Bool × Except String Unit :=
  match m.checkOffConnId connId with
  | .error e => (m, hidden, .error e)
  | .ok _ => m.disable c hidden

def clear (c : PlatformCalls) (m : PrivacyModeImpl) (hidden : Bool) : PrivacyModeImpl × Bool :=
  match m.kind with
  | .macos =>
    ({ m with connId := invalidConnId }, if c.macSetPrivacyMode false then false else hidden)
  | _ => ((m.turnOffPrivacy c m.connId hidden).1, (m.turnOffPrivacy c m.connId hidden).2.1)

/-- `Drop`: what is left of the mode when the object goes away. -/
def drop (c : PlatformCalls) (m : PrivacyModeImpl) (hidden : Bool) : Bool :=
  if m.kind = .macos ∨ m.connId ≠ invalidConnId then (m.clear c hidden).2 else hidden

end PrivacyModeImpl

/-- What does not change while the process runs: the default implementation, and the
`PRIVACY_MODE_CREATOR` of the platform. -/
structure Platform where
  defaultImpl : String
  creator : String → Option ImplKind

/-- What one turn-on reads: the supported implementations, the option, and the answers to
`clear`, to `drop` and to `turn_on_privacy`. -/
structure OnCalls where
  supportedImpl : List String := []
  implKeyOption : String := ""
  clear : PlatformCalls := {}
  drop : PlatformCalls := {}
  on : PlatformCalls := {}

namespace Host

def getSupportedImpl (p : Platform) (c : OnCalls) (implKey : String) : String :=
  if implKey ∈ c.supportedImpl then implKey
  else if c.implKeyOption ∈ c.supportedImpl then c.implKeyOption
  else p.defaultImpl

def turnOnCurrent (c : OnCalls) (connId : Int) (s : Host) : Host × Option (Except String Bool) :=
  match s.privacyMode with
  | none => (s, none)
  | some m =>
    let (m, hidden, res) := m.turnOnPrivacy c.on connId s.hidden
    ({ privacyMode := some m, hidden }, some res)

/-- The old object is cleared and dropped before the new one is put in its place. -/
def replace (c : OnCalls) (kind : ImplKind) (implKey : String) (s : Host) : Host :=
  match s.privacyMode with
  | none => { s with privacyMode := some { kind, implKey } }
  | some m =>
    let (m, hidden) := m.clear c.clear s.hidden
    { privacyMode := some { kind, implKey }, hidden := m.drop c.drop hidden }

def switchAndTurnOn (p : Platform) (c : OnCalls) (implKey curImplKey : String) (connId : Int)
    (s : Host) : Host × Option (Except String Bool) :=
  if curImplKey ≠ implKey then
    match p.creator implKey with
    | some kind => (s.replace c kind implKey).turnOnCurrent c connId
    | none => (s, some (.error ("Unsupported privacy mode: " ++ implKey)))
  else s.turnOnCurrent c connId

def turnOnPrivacySync (p : Platform) (c : OnCalls) (implKey : String) (connId : Int) (s : Host) :
    Host × Option (Except String Bool) :=
  let implKey := getSupportedImpl p c implKey
  match s.privacyMode with
  | none => s.switchAndTurnOn p c implKey "" connId
  | some m =>
    match m.checkOnConnId connId with
    | .error e => (s, some (.error e))
    | .ok same =>
      if same && m.implKey == implKey then (s, some (.ok true))
      else s.switchAndTurnOn p c implKey m.implKey connId

def turnOffPrivacy (c : PlatformCalls) (connId : Int) (s : Host) :
    Host × Option (Except String Unit) :=
  match s.privacyMode with
  | none => (s, none)
  | some m =>
    let (m, hidden, res) := m.turnOffPrivacy c connId s.hidden
    ({ privacyMode := some m, hidden }, some res)

/-- `get_privacy_mode_conn_id` -/
def connId (s : Host) : Option Int := s.privacyMode.map (·.connId)

def curImplKey (s : Host) : Option String := s.privacyMode.map (·.implKey)

def isInPrivacyMode (s : Host) : Bool :=
  match s.privacyMode with
  | some m => m.connId != invalidConnId
  | none => false

end Host

/-- `back_notification::PrivacyModeState` -/
inductive PrvState
  | notSupported
  | onFailedDenied
  | onFailedPlugin
  | onFailed
  | onSucceeded
  | offSucceeded
  | offFailed
  | offByPeer
  deriving DecidableEq, Repr

/-- The states that tell the peer that its request was not carried out. -/
def PrvState.isError : PrvState → Bool
  | .notSupported | .onFailedDenied | .onFailedPlugin | .onFailed | .offFailed => true
  | .onSucceeded | .offSucceeded | .offByPeer => false

structure PrvMessage where
  state : PrvState
  details : String := ""
  implKey : String
  deriving DecidableEq, Repr

def turnOffPrivacyResultToMsg (res : Option (Except String Unit)) (implKey : String) : PrvMessage :=
  match res with
  | some (.ok _) => { state := .offSucceeded, implKey }
  | some (.error e) => { state := .offFailed, details := e, implKey }
  | none => { state := .offFailed, details := "Not supported", implKey }

/-- The process, the results that connections have not answered yet with the implementation
asked for, and the messages sent, newest first. -/
structure World where
  host : Host := {}
  pending : ConnId → Option (Option (Except String Bool) × String) := fun _ => none
  sent : List (ConnId × PrvMessage) := []

/-- `turnOn` is a request up to the platform call, `timeout` one whose thread was given up,
`late` that thread, and `answer` the rest of the request. `permitted` says that the
connection is an authorized remote one with the privacy mode permission, `pre` is the
implementation that it read when privacy mode was on. -/
inductive Event
  | turnOn (id : ConnId) (implKey : String) (permitted : Bool) (pre : Option String) (c : OnCalls)
  | timeout (id : ConnId) (implKey : String) (permitted : Bool) (pre : Option String)
      (error : String)
  | late (id : ConnId) (implKey : String) (c : OnCalls)
  | answer (id : ConnId) (checkErr : String) (c : PlatformCalls)
  | turnOff (id : ConnId) (implKey : String) (c : PlatformCalls)
  | revoke (id : ConnId) (c : PlatformCalls)
  | close (id : ConnId) (c : PlatformCalls)

/-- The connection that acts. -/
def Event.conn : Event → ConnId
  | .turnOn id .. | .timeout id .. | .late id .. | .answer id .. | .turnOff id .. | .revoke id _
  | .close id _ => id

namespace World

def send (id : ConnId) (m : PrvMessage) (s : World) : World := { s with sent := (id, m) :: s.sent }

/-- The checks of `turn_on_privacy` before the platform call: the refusal, if any. -/
def refusal (p : Platform) (permitted : Bool) (implKey : String) : Option PrvMessage :=
  if !permitted then some { state := .onFailedDenied, implKey }
  else if p.defaultImpl.isEmpty then some { state := .notSupported, details := notSupported, implKey }
  else none

/-- An implementation that was replaced since it was read is reported as off. -/
def reportReplaced (id : ConnId) (pre : Option String) (s : World) : World :=
  match pre with
  | some key =>
    if s.host.curImplKey = some key then s else s.send id { state := .offSucceeded, implKey := key }
  | none => s

def turnOn (p : Platform) (id : ConnId) (implKey : String) (permitted : Bool)
    (pre : Option String) (c : OnCalls) (s : World) : World :=
  match refusal p permitted implKey with
  | some m => s.send id m
  | none =>
    let s := s.reportReplaced id pre
    let (host, res) := s.host.turnOnPrivacySync p c implKey id
    { s with host, pending := Function.update s.pending id (some (res, implKey)) }

def timeout (p : Platform) (id : ConnId) (implKey : String) (permitted : Bool)
    (pre : Option String) (error : String) (s : World) : World :=
  match refusal p permitted implKey with
  | some m => s.send id m
  | none =>
    let s := s.reportReplaced id pre
    { s with pending := Function.update s.pending id (some (some (.error error), implKey)) }

/-- The match on the result of the platform call. -/
def answer (id : ConnId) (checkErr : String) (c : PlatformCalls) (s : World) : World :=
  match s.pending id with
  | none => s
  | some (res, implKey) =>
    let s := { s with pending := Function.update s.pending id none }
    match res with
    | some (.ok true) =>
      if checkErr.isEmpty then s.send id { state := .onSucceeded, implKey }
      else { s with host := (s.host.turnOffPrivacy c id).1 }.send id
        { state := .onFailed, details := checkErr, implKey }
    | some (.ok false) => s.send id { state := .onFailedPlugin, implKey }
    | some (.error e) =>
      let host := if s.host.isInPrivacyMode then (s.host.turnOffPrivacy c invalidConnId).1 else s.host
      { s with host }.send id { state := .onFailed, details := e, implKey }
    | none => s.send id { state := .offFailed, details := "Not supported", implKey }

def turnOff (p : Platform) (id : ConnId) (implKey : String) (c : PlatformCalls) (s : World) : World :=
  if p.defaultImpl.isEmpty then
    s.send id { state := .notSupported, details := notSupported, implKey }
  else
    let (host, res) := s.host.turnOffPrivacy c id
    { s with host }.send id (turnOffPrivacyResultToMsg res implKey)

/-- The permission is taken away in the connection manager. -/
def revoke (id : ConnId) (c : PlatformCalls) (s : World) : World :=
  if s.host.isInPrivacyMode && s.host.connId == some id.val then
    let implKey := s.host.curImplKey.getD ""
    let (host, res) := s.host.turnOffPrivacy c id
    { s with host }.send id (match res with
      | some (.ok _) => { state := .offByPeer, implKey }
      | res => turnOffPrivacyResultToMsg res implKey)
  else s

/-- The end of the message loop. -/
def close (id : ConnId) (c : PlatformCalls) (s : World) : World :=
  if s.host.connId = some id.val then { s with host := (s.host.turnOffPrivacy c id).1 } else s

def step (p : Platform) (s : World) : Event → World
  | .turnOn id implKey permitted pre c => s.turnOn p id implKey permitted pre c
  | .timeout id implKey permitted pre error => s.timeout p id implKey permitted pre error
  | .late id implKey c => { s with host := (s.host.turnOnPrivacySync p c implKey id).1 }
  | .answer id checkErr c => s.answer id checkErr c
  | .turnOff id implKey c => s.turnOff p id implKey c
  | .revoke id c => s.revoke id c
  | .close id c => s.close id c

end World

/-! ### One owner -/

/-- The connection that privacy mode belongs to. -/
def Host.owner (s : Host) : Int := s.connId.getD invalidConnId

/-- Privacy mode belongs to a connection other than `id`. -/
def Host.BelongsToOther (s : Host) (id : ConnId) : Prop :=
  s.owner ≠ invalidConnId ∧ s.owner ≠ id.val

/-- The newest message tells `id` that its request failed. -/
def Refuses (s s' : World) (id : ConnId) : Prop :=
  ∃ m, s'.sent = (id, m) :: s.sent ∧ m.state.isError = true

/-- The result that `id` will answer is an error. -/
def Fails (s : World) (id : ConnId) : Prop := ∃ e implKey, s.pending id = some (some (.error e), implKey)

/-- A request made while privacy mode belongs to another connection is answered with an
error: at once, or from a result that is an error. -/
def Refused (p : Platform) (s : World) (ev : Event) : Prop :=
  match ev with
  | .turnOn id .. | .timeout id .. => s.host.BelongsToOther id →
    Refuses s (s.step p ev) id ∨ Fails (s.step p ev) id
  | .answer id .. => Fails s id → Refuses s (s.step p ev) id
  | .turnOff id .. => s.host.BelongsToOther id → Refuses s (s.step p ev) id
  | .late .. | .revoke .. | .close .. => True

/-- Only the owner changes owner, implementation and mode. -/
structure OwnerRespected (p : Platform) (s : World) (ev : Event) : Prop where
  kept : s.host.BelongsToOther ev.conn → (s.step p ev).host = s.host
  refused : Refused p s ev

/-- The platform does not carry out a turn-off. -/
def PrivacyModeImpl.DisableFails (c : PlatformCalls) (m : PrivacyModeImpl) : Prop :=
  match m.kind with
  | .macos => c.macSetPrivacyMode false = false
  | .topmostWindow => c.unhook ≠ .ok () ∨ c.findPrivacyHwnds ≠ .ok ()
  | .virtualDisplay => c.unhook ≠ .ok ()

/-- The condition: a failed turn-on is not answered while privacy mode belongs to another
connection, unless the platform then fails to turn it off. -/
def Undisturbed (s : World) : Event → Prop
  | .answer id _ c => Fails s id → s.host.BelongsToOther id →
    ∀ m, s.host.privacyMode = some m → m.DisableFails c
  | _ => True

section

variable {p : Platform} {s : World} {h : Host} {m : PrivacyModeImpl} {id : ConnId}

theorem Host.belongsToOther_iff :
    h.BelongsToOther id ↔
      ∃ m, h.privacyMode = some m ∧ m.connId ≠ invalidConnId ∧ m.connId ≠ id.val := by
  unfold BelongsToOther owner connId
  cases h.privacyMode with
  | none => simp
  | some m => simp

/-- A turn-off that goes past its check is without effect only when the platform fails. -/
theorem disable_eq_iff (c : PlatformCalls) (hm : m.connId ≠ invalidConnId) (hidden : Bool) :
    ((m.disable c hidden).1 = m ∧ (m.disable c hidden).2.1 = hidden) ↔ m.DisableFails c := by
  obtain ⟨kind, implKey, connId⟩ := m
  cases kind with
  | macos =>
    unfold PrivacyModeImpl.disable PrivacyModeImpl.DisableFails
    by_cases hc : c.macSetPrivacyMode false = true
    · simp [hc, Ne.symm hm]
    · simp [hc]
  | topmostWindow =>
    unfold PrivacyModeImpl.disable PrivacyModeImpl.DisableFails
    cases hu : c.unhook with
    | error e => simp
    | ok u =>
      cases hf : c.findPrivacyHwnds with
      | error e => simp
      | ok u => simp [Ne.symm hm]
  | virtualDisplay =>
    unfold PrivacyModeImpl.disable PrivacyModeImpl.DisableFails
    cases hu : c.unhook with
    | error e => simp
    | ok u => simp [Ne.symm hm]

/-- Another connection cannot turn privacy mode off in its own name. -/
theorem turnOffPrivacy_other (c : PlatformCalls) (hb : h.BelongsToOther id) :
    h.turnOffPrivacy c id = (h, some (.error turnOffOtherId)) := by
  obtain ⟨m, hm, hvalid, hother⟩ := Host.belongsToOther_iff.mp hb
  have hcheck : m.checkOffConnId id = .error turnOffOtherId := by
    unfold PrivacyModeImpl.checkOffConnId
    rw [if_pos ⟨hvalid, id.property, hother⟩]
  unfold Host.turnOffPrivacy PrivacyModeImpl.turnOffPrivacy
  rw [hm]
  simp only [hcheck]
  rw [← hm]

theorem turnOffPrivacy_invalid (c : PlatformCalls) (hm : h.privacyMode = some m)
    (hvalid : m.connId ≠ invalidConnId) :
    (h.turnOffPrivacy c invalidConnId).1 = h ↔ m.DisableFails c := by
  have hcheck : m.checkOffConnId invalidConnId = .ok () := by
    unfold PrivacyModeImpl.checkOffConnId
    rw [if_neg fun hc => hc.2.1 rfl]
  rw [← disable_eq_iff c hvalid h.hidden]
  unfold Host.turnOffPrivacy PrivacyModeImpl.turnOffPrivacy
  rw [hm]
  simp only [hcheck]
  obtain ⟨mode, hidden⟩ := h
  simp only at hm
  subst hm
  simp

/-- A turn-on of another connection is refused before anything is done. -/
theorem turnOnPrivacySync_other (c : OnCalls) (implKey : String) (hb : h.BelongsToOther id) :
    h.turnOnPrivacySync p c implKey id = (h, some (.error occupied)) := by
  obtain ⟨m, hm, hvalid, hother⟩ := Host.belongsToOther_iff.mp hb
  have hcheck : m.checkOnConnId id = .error occupied := by
    unfold PrivacyModeImpl.checkOnConnId
    rw [if_neg hother, if_pos hvalid]
  unfold Host.turnOnPrivacySync
  simp only [hm, hcheck]

theorem isInPrivacyMode_other (hb : h.BelongsToOther id) : h.isInPrivacyMode = true := by
  obtain ⟨m, hm, hvalid, -⟩ := Host.belongsToOther_iff.mp hb
  unfold Host.isInPrivacyMode
  rw [hm]
  simpa using hvalid

theorem connId_other (hb : h.BelongsToOther id) : h.connId ≠ some id.val := by
  obtain ⟨m, hm, -, hother⟩ := Host.belongsToOther_iff.mp hb
  unfold Host.connId
  rw [hm]
  simpa using hother

theorem refusal_isError {permitted : Bool} {implKey : String} {msg : PrvMessage}
    (hr : World.refusal p permitted implKey = some msg) : msg.state.isError = true := by
  unfold World.refusal at hr
  split at hr
  · cases hr
    rfl
  · split at hr
    · cases hr
      rfl
    · cases hr

@[simp] theorem reportReplaced_host (pre : Option String) :
    (s.reportReplaced id pre).host = s.host := by
  unfold World.reportReplaced
  split
  · split <;> rfl
  · rfl

theorem turnOn_respected (implKey : String) (permitted : Bool) (pre : Option String) (c : OnCalls) :
    OwnerRespected p s (.turnOn id implKey permitted pre c) := by
  suffices hs : s.host.BelongsToOther id →
      (s.turnOn p id implKey permitted pre c).host = s.host ∧
        (Refuses s (s.turnOn p id implKey permitted pre c) id ∨
          Fails (s.turnOn p id implKey permitted pre c) id) from
    ⟨fun hb => (hs hb).1, fun hb => (hs hb).2⟩
  intro hb
  unfold World.turnOn
  cases hr : World.refusal p permitted implKey with
  | some msg => exact ⟨rfl, .inl ⟨msg, rfl, refusal_isError hr⟩⟩
  | none =>
    simp only [reportReplaced_host, turnOnPrivacySync_other c implKey hb]
    exact ⟨trivial, .inr ⟨occupied, implKey, by simp⟩⟩

theorem timeout_respected (implKey : String) (permitted : Bool) (pre : Option String)
    (error : String) : OwnerRespected p s (.timeout id implKey permitted pre error) := by
  suffices hs : s.host.BelongsToOther id →
      (s.timeout p id implKey permitted pre error).host = s.host ∧
        (Refuses s (s.timeout p id implKey permitted pre error) id ∨
          Fails (s.timeout p id implKey permitted pre error) id) from
    ⟨fun hb => (hs hb).1, fun hb => (hs hb).2⟩
  intro hb
  unfold World.timeout
  cases hr : World.refusal p permitted implKey with
  | some msg => exact ⟨rfl, .inl ⟨msg, rfl, refusal_isError hr⟩⟩
  | none => exact ⟨reportReplaced_host pre, .inr ⟨error, implKey, by simp⟩⟩

theorem turnOff_respected (implKey : String) (c : PlatformCalls) :
    OwnerRespected p s (.turnOff id implKey c) := by
  suffices hs : s.host.BelongsToOther id →
      (s.turnOff p id implKey c).host = s.host ∧ Refuses s (s.turnOff p id implKey c) id from
    ⟨fun hb => (hs hb).1, fun hb => (hs hb).2⟩
  intro hb
  unfold World.turnOff
  split
  · exact ⟨rfl, _, rfl, rfl⟩
  · rw [turnOffPrivacy_other c hb]
    exact ⟨rfl, _, rfl, rfl⟩

theorem answer_refuses (checkErr : String) (c : PlatformCalls) (hf : Fails s id) :
    Refuses s (s.answer id checkErr c) id := by
  obtain ⟨e, implKey, hp⟩ := hf
  unfold World.answer
  rw [hp]
  exact ⟨{ state := .onFailed, details := e, implKey }, rfl, rfl⟩

theorem answer_fails_host (checkErr : String) (c : PlatformCalls) (hf : Fails s id)
    (hb : s.host.BelongsToOther id) :
    (s.answer id checkErr c).host = (s.host.turnOffPrivacy c invalidConnId).1 := by
  obtain ⟨e, implKey, hp⟩ := hf
  unfold World.answer
  rw [hp]
  simp only [isInPrivacyMode_other hb, if_true]
  rfl

/-- A result that is no error is answered without a change for another owner. -/
theorem answer_host_of_not_fails (checkErr : String) (c : PlatformCalls) (hf : ¬ Fails s id)
    (hb : s.host.BelongsToOther id) : (s.answer id checkErr c).host = s.host := by
  unfold World.answer
  cases hp : s.pending id with
  | none => rfl
  | some r =>
    obtain ⟨res, implKey⟩ := r
    cases res with
    | none => rfl
    | some res =>
      cases res with
      | error e => exact absurd ⟨e, implKey, hp⟩ hf
      | ok on =>
        cases on with
        | false => rfl
        | true =>
          dsimp only
          split
          · rfl
          · exact congrArg Prod.fst (turnOffPrivacy_other c hb)

theorem answer_respected_iff (checkErr : String) (c : PlatformCalls) :
    OwnerRespected p s (.answer id checkErr c) ↔ Undisturbed s (.answer id checkErr c) := by
  constructor
  · intro hr hf hb m hm
    have hkept : (s.answer id checkErr c).host = s.host := hr.kept hb
    rw [answer_fails_host checkErr c hf hb] at hkept
    obtain ⟨m', hm', hvalid, -⟩ := Host.belongsToOther_iff.mp hb
    rw [hm] at hm'
    cases hm'
    exact (turnOffPrivacy_invalid c hm hvalid).mp hkept
  · intro hu
    refine ⟨fun hb => ?_, answer_refuses checkErr c⟩
    by_cases hf : Fails s id
    · obtain ⟨m, hm, hvalid, -⟩ := Host.belongsToOther_iff.mp hb
      exact (answer_fails_host checkErr c hf hb).trans
        ((turnOffPrivacy_invalid c hm hvalid).mpr (hu hf hb m hm))
    · exact answer_host_of_not_fails checkErr c hf hb

theorem ownerRespected_iff (ev : Event) : OwnerRespected p s ev ↔ Undisturbed s ev := by
  cases ev with
  | turnOn id implKey permitted pre c =>
    exact iff_of_true (turnOn_respected implKey permitted pre c) trivial
  | timeout id implKey permitted pre error =>
    exact iff_of_true (timeout_respected implKey permitted pre error) trivial
  | late id implKey c =>
    refine iff_of_true ⟨fun hb => ?_, trivial⟩ trivial
    exact congrArg Prod.fst (turnOnPrivacySync_other c implKey hb)
  | answer id checkErr c => exact answer_respected_iff checkErr c
  | turnOff id implKey c => exact iff_of_true (turnOff_respected implKey c) trivial
  | revoke id c =>
    refine iff_of_true ⟨fun hb => ?_, trivial⟩ trivial
    change (s.revoke id c).host = s.host
    have hno : (s.host.connId == some id.val) = false := by
      have hne : s.host.connId ≠ some id.val := connId_other hb
      simpa using hne
    unfold World.revoke
    rw [hno, Bool.and_false, if_neg (by simp)]
  | close id c =>
    refine iff_of_true ⟨fun hb => ?_, trivial⟩ trivial
    change (s.close id c).host = s.host
    have hne : s.host.connId ≠ some id.val := connId_other hb
    unfold World.close
    rw [if_neg hne]

end

/-- The platform of macOS, with privacy mode off. -/
def macPlatform : Platform where
  defaultImpl := "privacy_mode_impl_macos"
  creator key := if key = "privacy_mode_impl_macos" then some .macos else none

def macWorld : World :=
  { host := { privacyMode := some { kind := .macos, implKey := "privacy_mode_impl_macos" } } }

/-- Connection 1001 turns privacy mode on, connection 1002 asks for it too. -/
def secondRequest : List Event :=
  [.turnOn ⟨1001, by decide⟩ "" true none {}, .answer ⟨1001, by decide⟩ "" {},
    .turnOn ⟨1002, by decide⟩ "" true none {}, .answer ⟨1002, by decide⟩ "" {}]

end RustDesk.PrivacyMode
