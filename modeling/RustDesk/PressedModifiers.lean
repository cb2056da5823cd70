import RustDesk.KeyRelease
import RustDesk.ConnectionDispatch

/-!
# The modifiers a connection holds down

`on_message` keeps the modifiers of raw key events in `pressed_modifiers` and hands the event
to the thread of `handle_input`, which injects it. When the connection is dropped, the keys in
`pressed_modifiers` are released. The flag that decides whether a key is put there is not the
one that decides whether it goes down, and no event makes both agree on a key held down.
-/

namespace RustDesk.PressedModifiers

open Transitions History KeyInjection KeyInjection.Keyboard

inductive DesktopOs
  | windows
  | linux (desktop : Desktop)
  | macos
  deriving DecidableEq, Repr

def DesktopOs.build : DesktopOs → Build
  | .windows => { os := .windows }
  | .linux _ => { os := .linux }
  | .macos => { os := .macos }

inductive RawMode
  | map
  | translate
  deriving DecidableEq, Repr

def RawMode.mode : RawMode → KeyboardMode
  | .map => .map
  | .translate => .translate

/-- `is_modifier` of an event, by its control key -/
def isModifier (evt : KeyEvent) : Bool :=
  match evt.union with
  | some (.controlKey ck) =>
    ([.alt, .shift, .control, .metaKey, .rAlt, .rShift, .rControl, .rWin] :
      List ControlKey).any (·.value = ck)
  | _ => false

/-- The host with what rdev knows of its keys: the modifier that has a keycode, the modifier
that moves when a key is injected, and the scancode of a virtual key. The code 0 and the two
locks are no modifiers. -/
structure Platform where
  os : DesktopOs
  keycodeToModifier : Nat → Option Nat
  modifierOf : HostKey → Option Nat
  vkToScancode : Nat → Nat := id
  codeZero : keycodeToModifier 0 = none
  named : ∀ id, modifierOf (.modifier id) = some id
  capsLock : modifierOf (.enigo (.named .capsLock)) = none
  numLock : modifierOf (.enigo (.named .numLock)) = none

/-- A raw key event with what the host answers while it is handled. -/
structure RawKeyInput where
  mode : RawMode
  event : KeyEvent
  host : InputHost := {}

def RawKeyInput.evt (i : RawKeyInput) : KeyEvent := { i.event with mode := some i.mode.mode }

namespace Platform

def env (p : Platform) : Env :=
  { keycodeToModifier := p.keycodeToModifier, isModifierKey := isModifier }

def isHotKeyModifiersDown (host : InputHost) (log : List (HostKey × Bool)) : Bool :=
  [NamedKey.control, .rightControl, .alt, .rightAlt, .metaKey, .rWin].any (host.getKeyState log)

def translateProcessCode (code : Nat) (down : Bool) (s : Keyboard) : Keyboard :=
  if code >>> 16 = 0 then s.inject (.rdev code) down else s.inject (.virtual (code >>> 16)) down

def simulateWin2winHotkey (p : Platform) (host : InputHost) (code : Nat) (down : Bool)
    (s : Keyboard) : Keyboard :=
  if down && host.simulateKeyUnicode (code % 2 ^ 16) then s
  else s.inject (.rdev (p.vkToScancode ((code >>> 16) % 2 ^ 16))) down

/-- `translate_keyboard_mode` on Windows -/
def windowsTranslate (p : Platform) (host : InputHost) (evt : KeyEvent) (s : Keyboard) : Keyboard :=
  match evt.union with
  | some (.seq sequence) =>
    let s := if isHotKeyModifiersDown host s.log then s
      else (s.releaseShift .x11 host .shift .shiftLeft).releaseShift .x11 host .rightShift .shiftRight
    s.keySequence sequence.toList
  | some (.chr code) => translateProcessCode code evt.down s
  | some (.win2winHotkey code) => p.simulateWin2winHotkey host code evt.down s
  | _ => s

/-- `translate_keyboard_mode` on macOS -/
def macosTranslate (evt : KeyEvent) (s : Keyboard) : Keyboard :=
  match evt.union with
  | some (.seq sequence) => s.keySequence sequence.toList
  | some (.chr code) => s.inject (.rdev code) evt.down
  | _ => s

/-- `handle_key_` for an event in one of the raw modes. Away from Linux the records of
`KEYS_DOWN` are left out, and on macOS the state of Caps Lock. -/
def handleKey (p : Platform) (host : InputHost) (mode : RawMode) (evt : KeyEvent) (s : Keyboard) :
    Keyboard :=
  match p.os with
  | .linux desktop => s.handleKey desktop host evt
  | .windows =>
    if host.exiting then s
    else
      let (modes, s) := s.newLockModes host evt
      (match mode with
        | .map => s.inject (.rdev (chr evt)) evt.down
        | .translate => p.windowsTranslate host evt s).dropLockModes .x11 modes
  | .macos =>
    if host.exiting then s
    else
      match mode with
      | .map => s.inject (.rdev (chr evt)) evt.down
      | .translate => macosTranslate evt s

/-- `MessageInput::Key` in `handle_input` -/
def handleInput (p : Platform) (host : InputHost) (mode : RawMode) (msg : KeyEvent) (press : Bool)
    (s : Keyboard) : Keyboard :=
  let s := p.handleKey host mode { msg with press := false, down := press || msg.down } s
  if press then p.handleKey host mode { msg with press := false, down := false } s else s

end Platform

structure KeySession where
  conn : Connection
  keyboard : Keyboard := {}

/-- What the connection has sent to the input thread, if anything. -/
def sentKey (before after : Connection) : Option (KeyEvent × Bool) :=
  match after.log.take (after.log.length - before.log.length) with
  | [.inputKey msg press] => some (msg, press)
  | _ => none

def step (p : Platform) (s : KeySession) (i : RawKeyInput) : KeySession :=
  let conn := s.conn.onKeyEvent p.os.build p.env i.evt
  { conn
    keyboard :=
      match sentKey s.conn conn with
      | some (msg, press) => p.handleInput i.host i.mode msg press s.keyboard
      | none => s.keyboard }

def releasePressedModifiers (s : KeySession) : KeySession :=
  { conn := { s.conn with pressedModifiers := [] }
    keyboard := s.conn.pressedModifiers.foldl (fun k id => k.inject (.modifier id) false) s.keyboard }

/-- `pressed_modifiers` has exactly the modifiers that are down, and none of them is when the
connection is dropped. -/
structure Tracked (p : Platform) (s : KeySession) : Prop where
  pressed : ∀ id, id ∈ s.conn.pressedModifiers ↔ Down p.modifierOf s.keyboard.log id
  released : ∀ id, ¬Down p.modifierOf (releasePressedModifiers s).keyboard.log id

/-! ### The key an event is about -/

namespace Platform

def position (p : Platform) (code : Nat) : HostKey :=
  match p.os with
  | .linux .x11 => .rdev code
  | .linux _ => .enigo (.raw (code % 2 ^ 16))
  | _ => .rdev code

def translateTarget (p : Platform) (host : InputHost) (evt : KeyEvent) : Option HostKey :=
  match evt.union with
  | some (.chr code) =>
    if p.os = .windows ∧ code >>> 16 ≠ 0 then some (.virtual (code >>> 16))
    else some (p.position code)
  | some (.win2winHotkey code) =>
    if p.os = .windows ∧ (evt.down && host.simulateKeyUnicode (code % 2 ^ 16)) = false then
      some (.rdev (p.vkToScancode ((code >>> 16) % 2 ^ 16)))
    else none
  | _ => none

/-- The raw key that an event moves. Sequences and characters move none that stays down. -/
def target (p : Platform) (host : InputHost) (mode : RawMode) (evt : KeyEvent) : Option HostKey :=
  match mode with
  | .map => some (p.position (chr evt))
  | .translate => p.translateTarget host evt

/-- The log with a transition of the key, if there is one. -/
def moved (key : Option HostKey) (down : Bool) (log : List (HostKey × Bool)) :
    List (HostKey × Bool) :=
  match key with
  | some key => (key, down) :: log
  | none => log

variable {p : Platform} {host : InputHost} {mode : RawMode} {evt : KeyEvent} {s s' : Keyboard}
  {id : Nat}

theorem down_clickIf {c : Bool} {key : NamedKey} (hkey : p.modifierOf (.enigo (.named key)) = none) :
    Down p.modifierOf (s.clickIf c key).log id ↔ Down p.modifierOf s.log id := by
  have hne : p.modifierOf (.enigo (.named key)) ≠ some id := by simp [hkey]
  unfold clickIf
  split_ifs
  · exact (down_cons_of_ne hne).trans (down_cons_of_ne hne)
  · exact Iff.rfl

theorem down_dropLockModes (desktop : Desktop) (modes : Option LockModes) (s : Keyboard) :
    Down p.modifierOf (s.dropLockModes desktop modes).log id ↔ Down p.modifierOf s.log id := by
  unfold dropLockModes
  split
  · unfold LockModes.drop
    split_ifs
    · exact Iff.rfl
    · exact (down_clickIf p.numLock).trans (down_clickIf p.capsLock)
  · exact Iff.rfl

/-- What a call does to the modifiers: others come up at most, and then the key is moved. -/
def Moves (p : Platform) (key : Option HostKey) (down : Bool) (s s' : Keyboard) : Prop :=
  ∃ log, Settles p.modifierOf s.log log ∧
    ∀ id, Down p.modifierOf s'.log id ↔ Down p.modifierOf (moved key down log) id

theorem moves_of_quiet {down : Bool} (h : Quiet p.modifierOf s s') : p.Moves none down s s' :=
  ⟨s'.log, h.settles, fun _ => Iff.rfl⟩

theorem moves_inject (s : Keyboard) (key : HostKey) (down : Bool) :
    p.Moves (some key) down s (s.inject key down) := ⟨s.log, .refl _, fun _ => Iff.rfl⟩

theorem Moves.locked {key : Option HostKey} {down : Bool} {desktop : Desktop}
    (h : p.Moves key down (s.newLockModes host evt).2 s') (modes : Option LockModes) :
    p.Moves key down s (s'.dropLockModes desktop modes) := by
  obtain ⟨log, hlog, hdown⟩ := h
  have hq : Quiet p.modifierOf s (s.newLockModes host evt).2 := .newLockModes s
  refine ⟨log, hq.settles.trans hlog, fun id => ?_⟩
  rw [down_dropLockModes]
  exact hdown id

theorem log_sendPosition {desktop : Desktop} (hos : p.os = .linux desktop) :
    (s.sendPosition desktop evt).log = (p.position (chr evt), evt.down) :: s.log := by
  unfold sendPosition position
  rw [hos]
  cases desktop with
  | x11 => rfl
  | uinput => rfl
  | rdpInput => rfl

theorem moves_sendPosition {desktop : Desktop} (hos : p.os = .linux desktop) :
    p.Moves (some (p.position (chr evt))) evt.down s (s.sendPosition desktop evt) := by
  refine ⟨s.log, .refl _, fun id => ?_⟩
  rw [log_sendPosition hos]
  exact Iff.rfl

theorem moves_linuxTranslate {desktop : Desktop} (hos : p.os = .linux desktop) :
    p.Moves (p.translateTarget host evt) evt.down s
      (s.translateKeyboardMode desktop host evt) := by
  have hwin : p.os ≠ .windows := by simp [hos]
  unfold translateKeyboardMode translateTarget
  cases hunion : evt.union with
  | none => exact moves_of_quiet (.refl s)
  | some union =>
    cases union with
    | seq sequence => exact moves_of_quiet (.translateSeq _ s)
    | chr code =>
      have hchr : chr evt = code := by rw [chr, hunion]
      dsimp only
      rw [if_neg fun h => hwin h.1, ← hchr]
      exact moves_sendPosition hos
    | win2winHotkey code =>
      dsimp only
      rw [if_neg fun h => hwin h.1]
      exact moves_of_quiet (.refl s)
    | controlKey ck => exact moves_of_quiet (.refl s)
    | unicode code => exact moves_of_quiet (.refl s)

theorem moves_windowsTranslate (hos : p.os = .windows) :
    p.Moves (p.translateTarget host evt) evt.down s (p.windowsTranslate host evt s) := by
  unfold windowsTranslate translateTarget
  cases hunion : evt.union with
  | none => exact moves_of_quiet (.refl s)
  | some union =>
    cases union with
    | seq sequence =>
      apply moves_of_quiet
      dsimp only
      split_ifs
      · exact .keySequence _ s
      · exact ((Quiet.releaseShift _ _ s).trans (.releaseShift _ _ _)).trans (.keySequence _ _)
    | chr code =>
      dsimp only
      unfold translateProcessCode
      by_cases hcode : code >>> 16 = 0
      · rw [if_neg fun h => h.2 hcode, if_pos hcode, position, hos]
        exact moves_inject s _ _
      · rw [if_pos ⟨hos, hcode⟩, if_neg hcode]
        exact moves_inject s _ _
    | win2winHotkey code =>
      dsimp only
      unfold simulateWin2winHotkey
      by_cases hunicode : (evt.down && host.simulateKeyUnicode (code % 2 ^ 16)) = true
      · rw [if_pos hunicode, if_neg fun h => by rw [hunicode] at h; exact absurd h.2 (by simp)]
        exact moves_of_quiet (.refl s)
      · rw [if_neg hunicode, if_pos ⟨hos, Bool.eq_false_iff.mpr hunicode⟩]
        exact moves_inject s _ _
    | controlKey ck => exact moves_of_quiet (.refl s)
    | unicode code => exact moves_of_quiet (.refl s)

theorem moves_macosTranslate (hos : p.os = .macos) :
    p.Moves (p.translateTarget host evt) evt.down s (macosTranslate evt s) := by
  have hwin : p.os ≠ .windows := by simp [hos]
  unfold macosTranslate translateTarget
  cases hunion : evt.union with
  | none => exact moves_of_quiet (.refl s)
  | some union =>
    cases union with
    | seq sequence => exact moves_of_quiet (.keySequence _ s)
    | chr code =>
      dsimp only
      rw [if_neg fun h => hwin h.1, position, hos]
      exact moves_inject s _ _
    | win2winHotkey code =>
      dsimp only
      rw [if_neg fun h => hwin h.1]
      exact moves_of_quiet (.refl s)
    | controlKey ck => exact moves_of_quiet (.refl s)
    | unicode code => exact moves_of_quiet (.refl s)

/-- On every platform a call moves the key that the event is about. -/
theorem moves_handleKey (hmode : evt.mode = some mode.mode) (hexit : host.exiting = false) :
    p.Moves (p.target host mode evt) evt.down s (p.handleKey host mode evt s) := by
  unfold handleKey
  cases hos : p.os with
  | linux desktop =>
    dsimp only
    unfold Keyboard.handleKey handleMode
    rw [if_neg (by simp [hexit]), hmode]
    cases mode with
    | map => exact (moves_sendPosition hos).locked _
    | translate => exact (moves_linuxTranslate hos).locked _
  | windows =>
    dsimp only
    rw [if_neg (by simp [hexit])]
    cases mode with
    | map =>
      apply Moves.locked
      rw [target, position, hos]
      exact moves_inject _ _ _
    | translate => exact (moves_windowsTranslate hos).locked _
  | macos =>
    dsimp only
    rw [if_neg (by simp [hexit])]
    cases mode with
    | map =>
      rw [target, position, hos]
      exact moves_inject _ _ _
    | translate => exact moves_macosTranslate hos

theorem handleKey_of_exiting (hexit : host.exiting = true) :
    p.handleKey host mode evt s = s := by
  unfold handleKey Keyboard.handleKey
  split
  · rw [if_pos hexit]
  · rw [if_pos hexit]
  · rw [if_pos hexit]

/-! ### What is left down -/

/-- No modifier is down. -/
def AllUp (p : Platform) (s : Keyboard) : Prop := ∀ id, ¬Down p.modifierOf s.log id

theorem Moves.down_iff {key : Option HostKey} {down : Bool} (h : p.Moves key down s s')
    (hup : p.AllUp s) : Down p.modifierOf s'.log id ↔
      down = true ∧ ∃ k, key = some k ∧ p.modifierOf k = some id := by
  obtain ⟨log, hsettles, hdown⟩ := h
  have hnone : ¬Down p.modifierOf log id := fun hid => hup id (hsettles id hid)
  rw [hdown]
  cases key with
  | none => simp [moved, hnone]
  | some k =>
    by_cases hk : p.modifierOf k = some id
    · simp only [moved, down_cons_of_eq hk]
      exact ⟨fun hd => ⟨hd, k, rfl, hk⟩, fun hd => hd.1⟩
    · simp only [moved, down_cons_of_ne hk]
      constructor
      · exact fun hid => absurd hid hnone
      · rintro ⟨-, k', hk', hid⟩
        exact absurd (Option.some.inj hk' ▸ hid) hk

theorem Moves.down_up {key : Option HostKey} (h : p.Moves key false s s')
    (hid : Down p.modifierOf s'.log id) :
    Down p.modifierOf s.log id ∧ ∀ k, key = some k → p.modifierOf k ≠ some id := by
  obtain ⟨log, hsettles, hdown⟩ := h
  rw [hdown] at hid
  cases key with
  | none => exact ⟨hsettles id hid, fun k hk => by simp at hk⟩
  | some k =>
    obtain ⟨hne, hlog⟩ := down_of_down_up hid
    refine ⟨hsettles id hlog, fun k' hk' => ?_⟩
    rwa [← Option.some.inj hk']

theorem target_up {msg : KeyEvent} {key : HostKey}
    (h : p.target host mode { msg with press := false, down := true } = some key) :
    p.target host mode { msg with press := false, down := false } = some key := by
  cases mode with
  | map => exact h
  | translate =>
    unfold target translateTarget at h ⊢
    dsimp only at h ⊢
    split at h
    · exact h
    · next code hunion =>
      split_ifs at h with hwin
      rw [if_pos ⟨hwin.1, by simp⟩]
      exact h
    · simp at h

/-- The event brings a modifier down and not up again. -/
def Holds (p : Platform) (host : InputHost) (mode : RawMode) (msg : KeyEvent) (press : Bool) :
    Prop :=
  press = false ∧ msg.down = true ∧
    ∃ key id, p.target host mode msg = some key ∧ p.modifierOf key = some id

theorem down_handleInput {msg : KeyEvent} (hmode : msg.mode = some mode.mode)
    (hexit : host.exiting = false) (hup : p.AllUp s) :
    Down p.modifierOf (p.handleInput host mode msg false s).log id ↔
      msg.down = true ∧ ∃ key, p.target host mode msg = some key ∧ p.modifierOf key = some id := by
  have hfirst : p.Moves (p.target host mode msg) msg.down s
      (p.handleInput host mode msg false s) := by
    unfold handleInput
    rw [if_neg Bool.false_ne_true, Bool.false_or]
    have hmoves : p.Moves (p.target host mode { msg with press := false }) msg.down s
        (p.handleKey host mode { msg with press := false } s) := moves_handleKey hmode hexit
    exact hmoves
  exact hfirst.down_iff hup

theorem allUp_handleInput_press {msg : KeyEvent} (hmode : msg.mode = some mode.mode)
    (hexit : host.exiting = false) (hup : p.AllUp s) :
    p.AllUp (p.handleInput host mode msg true s) := by
  intro id hid
  unfold handleInput at hid
  rw [if_pos rfl, Bool.true_or] at hid
  have hdown : p.Moves (p.target host mode { msg with press := false, down := true }) true s
      (p.handleKey host mode { msg with press := false, down := true } s) :=
    moves_handleKey hmode hexit
  have hlast : p.Moves (p.target host mode { msg with press := false, down := false }) false
      (p.handleKey host mode { msg with press := false, down := true } s)
      (p.handleKey host mode { msg with press := false, down := false }
        (p.handleKey host mode { msg with press := false, down := true } s)) :=
    moves_handleKey hmode hexit
  obtain ⟨hbefore, hne⟩ := hlast.down_up hid
  obtain ⟨-, key, hkey, hmod⟩ := (hdown.down_iff hup).mp hbefore
  exact hne key (target_up hkey) hmod

theorem handleInput_of_exiting {msg : KeyEvent} {press : Bool} (hexit : host.exiting = true) :
    p.handleInput host mode msg press s = s := by
  unfold handleInput
  simp only [handleKey_of_exiting hexit]
  split_ifs <;> rfl

theorem allUp_handleInput {msg : KeyEvent} {press : Bool} (hmode : msg.mode = some mode.mode)
    (hup : p.AllUp s) (hok : host.exiting = false → ¬p.Holds host mode msg press) :
    p.AllUp (p.handleInput host mode msg press s) := by
  cases hexit : host.exiting with
  | true => rwa [handleInput_of_exiting hexit]
  | false =>
    cases press with
    | true => exact allUp_handleInput_press hmode hexit hup
    | false =>
      intro id hid
      obtain ⟨hd, key, hkey, hmod⟩ := (down_handleInput hmode hexit hup).mp hid
      exact hok hexit ⟨rfl, hd, key, id, hkey, hmod⟩

end Platform

/-! ### The connection -/

variable {p : Platform} {s : KeySession} {i : RawKeyInput}

def isPress (p : Platform) (evt : KeyEvent) : Bool :=
  if p.os.build.linux then
    (evt.press || evt.down) && !(isModifier evt || (Connection.keyModifier p.env evt).isSome)
  else evt.press

/-- The second argument of `input_key`. -/
def asPress (p : Platform) (evt : KeyEvent) : Bool :=
  isPress p evt && !(match evt.union with
    | some (.unicode _) | some (.seq _) => true
    | _ => false)

/-- While the peer may use the keyboard, no modifier that is tracked counts as a press, and
none is brought down without coming up. -/
def OnlyReleases (p : Platform) (s : KeySession) (i : RawKeyInput) : Prop :=
  s.conn.peerKeyboardEnabled = true →
    (isPress p i.evt = true → Connection.keyModifier p.env i.evt = none) ∧
    (i.host.exiting = false → ¬p.Holds i.host i.mode i.evt (asPress p i.evt))

theorem onKeyEvent_eq {c : Connection} (hremote : c.isAuthedRemoteConn = true) (evt : KeyEvent) :
    c.onKeyEvent p.os.build p.env evt =
      if c.peerKeyboardEnabled then
        (c.trackModifier (Connection.keyModifier p.env evt) (isPress p evt)).emit
          (.inputKey evt (asPress p evt))
      else c := by
  have hcamera : c.isAuthedViewCameraConn = false := by
    unfold Connection.isAuthedRemoteConn at hremote
    rw [beq_iff_eq] at hremote
    rw [Connection.isAuthedViewCameraConn, hremote]
    rfl
  unfold Connection.onKeyEvent isPress asPress isPress
  rw [hcamera]
  cases p.os <;> rfl

theorem log_trackModifier (c : Connection) (key : Option Nat) (pressed : Bool) :
    (c.trackModifier key pressed).log = c.log := by
  unfold Connection.trackModifier
  split <;> rfl

theorem sentKey_emit (c : Connection) (key : Option Nat) (pressed press : Bool) (msg : KeyEvent) :
    sentKey c ((c.trackModifier key pressed).emit (.inputKey msg press)) = some (msg, press) := by
  unfold sentKey
  have hlog : ((c.trackModifier key pressed).emit (.inputKey msg press)).log =
      .inputKey msg press :: c.log := by
    rw [Connection.emit, log_trackModifier]
  rw [hlog, List.length_cons, Nat.add_sub_cancel_left]
  rfl

theorem sentKey_self (c : Connection) : sentKey c c = none := by
  rw [sentKey, Nat.sub_self]
  rfl

theorem step_of_disabled (hremote : s.conn.isAuthedRemoteConn = true)
    (hdisabled : s.conn.peerKeyboardEnabled = false) : step p s i = s := by
  unfold step
  rw [onKeyEvent_eq hremote, hdisabled, if_neg Bool.false_ne_true]
  dsimp only
  rw [sentKey_self]

theorem step_of_enabled (hremote : s.conn.isAuthedRemoteConn = true)
    (henabled : s.conn.peerKeyboardEnabled = true) :
    (step p s i).conn.pressedModifiers = (s.conn.trackModifier
        (Connection.keyModifier p.env i.evt) (isPress p i.evt)).pressedModifiers ∧
    (step p s i).conn.isAuthedRemoteConn = true ∧
    (step p s i).keyboard =
      p.handleInput i.host i.mode i.evt (asPress p i.evt) s.keyboard := by
  unfold step
  rw [onKeyEvent_eq hremote, henabled, if_pos rfl]
  dsimp only
  rw [sentKey_emit]
  refine ⟨rfl, ?_, rfl⟩
  unfold Connection.trackModifier
  split <;> exact hremote

/-- Nothing is down and nothing is tracked. -/
structure Idle (p : Platform) (s : KeySession) : Prop where
  remote : s.conn.isAuthedRemoteConn = true
  pressed : s.conn.pressedModifiers = []
  up : p.AllUp s.keyboard

theorem tracked_of_idle (h : Idle p s) : Tracked p s := by
  refine ⟨fun id => ?_, fun id => ?_⟩
  · rw [h.pressed]
    exact ⟨fun hid => absurd hid List.not_mem_nil, fun hid => absurd hid (h.up id)⟩
  · rw [releasePressedModifiers, h.pressed]
    exact h.up id

theorem pressedModifiers_trackModifier {c : Connection} (hnone : c.pressedModifiers = [])
    (key : Option Nat) (pressed : Bool) :
    (c.trackModifier key pressed).pressedModifiers = if pressed then key.toList else [] := by
  cases key with
  | none =>
    rw [Connection.trackModifier, hnone]
    split_ifs <;> rfl
  | some k =>
    dsimp only [Connection.trackModifier]
    rw [hnone]
    cases pressed <;> rfl

theorem idle_step (h : Idle p s) (hok : OnlyReleases p s i) : Idle p (step p s i) := by
  cases henabled : s.conn.peerKeyboardEnabled with
  | false => rwa [step_of_disabled h.remote henabled]
  | true =>
    obtain ⟨hpressed, hremote, hkeyboard⟩ := step_of_enabled (p := p) (i := i) h.remote henabled
    obtain ⟨htracked, hheld⟩ := hok henabled
    refine ⟨hremote, ?_, ?_⟩
    · rw [hpressed, pressedModifiers_trackModifier h.pressed]
      split_ifs with hpress
      · rw [htracked hpress, Option.toList_none]
      · rfl
    · rw [hkeyboard]
      exact Platform.allUp_handleInput rfl h.up hheld

theorem keyModifier_of_not_chr {evt : KeyEvent} (h : ∀ code, evt.union ≠ some (.chr code)) :
    Connection.keyModifier p.env evt = none := by
  unfold Connection.keyModifier
  split
  · next hunion => exact absurd hunion (h _)
  · exact p.codeZero
  · next hunion => exact absurd hunion (h _)
  · rfl

/-- A press that is not handed on as one is a text, which is of no key that is tracked. -/
theorem keyModifier_of_asPress {evt : KeyEvent} (hpress : isPress p evt = true)
    (has : asPress p evt = false) : Connection.keyModifier p.env evt = none := by
  apply keyModifier_of_not_chr
  intro code hunion
  unfold asPress at has
  rw [hpress, hunion] at has
  exact Bool.false_ne_true has.symm

theorem not_tracked_step (h : Idle p s) (hbad : ¬OnlyReleases p s i) : ¬Tracked p (step p s i) := by
  intro htracked
  obtain ⟨henabled, hbad⟩ := Classical.not_imp.mp hbad
  obtain ⟨hpressed, -, hkeyboard⟩ := step_of_enabled (p := p) (i := i) h.remote henabled
  rw [pressedModifiers_trackModifier h.pressed] at hpressed
  have hiff := htracked.pressed
  rw [hkeyboard] at hiff
  by_cases hclean : isPress p i.evt = true → Connection.keyModifier p.env i.evt = none
  · -- a modifier is held down, and nothing is tracked
    obtain ⟨hexit, hholds⟩ := Classical.not_imp.mp fun hheld => hbad ⟨hclean, hheld⟩
    obtain ⟨has, hdown, key, id, hkey, hmod⟩ := not_not.mp hholds
    have hnone : (step p s i).conn.pressedModifiers = [] := by
      rw [hpressed]
      split_ifs with hpress
      · rw [hclean hpress, Option.toList_none]
      · rfl
    have hid : Down p.modifierOf
        (p.handleInput i.host i.mode i.evt (asPress p i.evt) s.keyboard).log id := by
      rw [has]
      exact (Platform.down_handleInput rfl hexit h.up).mpr ⟨hdown, key, hkey, hmod⟩
    have hmem := (hiff id).mpr hid
    rw [hnone] at hmem
    exact List.not_mem_nil hmem
  · -- a modifier is tracked, and its event brings it up at last
    obtain ⟨hpress, hsome⟩ := Classical.not_imp.mp hclean
    obtain ⟨id, hid⟩ := Option.ne_none_iff_exists'.mp hsome
    have has : asPress p i.evt = true := by
      by_contra hno
      exact hsome (keyModifier_of_asPress hpress (Bool.eq_false_iff.mpr hno))
    have hup : p.AllUp (p.handleInput i.host i.mode i.evt (asPress p i.evt) s.keyboard) :=
      Platform.allUp_handleInput rfl h.up fun _ hholds => by
        rw [has] at hholds
        exact absurd hholds.1 (by simp)
    have hmem : id ∈ (step p s i).conn.pressedModifiers := by
      rw [hpressed, if_pos hpress, hid]
      exact List.mem_singleton.mpr rfl
    exact hup id ((hiff id).mp hmem)

/-- A run keeps track of the modifiers exactly as long as its events only release them. -/
theorem pressed_modifiers_tracked (p : Platform) (conn : Connection)
    (hremote : conn.isAuthedRemoteConn = true) (hnone : conn.pressedModifiers = [])
    (is : List RawKeyInput) :
    Throughout (step p) (Tracked p) ⟨conn, {}⟩ is ↔
      Guarded (step p) (OnlyReleases p) ⟨conn, {}⟩ is := by
  have hidle : Idle p ⟨conn, {}⟩ := ⟨hremote, hnone, fun _ => not_down_nil⟩
  exact throughout_iff_guarded (fun s i h hok => idle_step h hok) (fun s h => tracked_of_idle h)
    (fun s i h hbad => not_tracked_step h hbad) hidle

/-- A host whose only modifier is the left Shift, with its keycode. -/
def shiftPlatform (os : DesktopOs) (code : Nat) : Platform where
  os
  keycodeToModifier c := if c = code ∧ c ≠ 0 then some 0 else none
  modifierOf
    | .rdev c | .enigo (.raw c) => if c = code then some 0 else none
    | .modifier id => some id
    | .shiftLeft | .enigo (.named .shift) => some 0
    | _ => none
  codeZero := by simp
  named _ := rfl
  capsLock := rfl
  numLock := rfl

def remoteConn : Connection where
  id := 1
  hash := ⟨"", ""⟩
  require2fa := none
  perms := ⟨true, true, true, true, true, true, true, true⟩
  controlPermissions := none
  authorized := true
  authedConnId := some .remote

theorem pressed_modifiers_tracked_typed :
    Throughout (step (shiftPlatform (.linux .x11) 50)) (Tracked (shiftPlatform (.linux .x11) 50))
      ⟨remoteConn, {}⟩
      [⟨.map, { down := true, union := some (.chr 38) }, {}⟩,
        ⟨.map, { union := some (.chr 50) }, {}⟩] := by
  apply (pressed_modifiers_tracked (shiftPlatform (.linux .x11) 50) remoteConn rfl rfl _).mpr
  refine ⟨fun _ => ⟨fun _ => rfl, fun _ hheld => ?_⟩, fun _ => ⟨fun hpress => ?_, fun _ hheld => ?_⟩,
    trivial⟩
  · exact absurd hheld.1 (by decide)
  · exact absurd hpress (by decide)
  · exact absurd hheld.2.1 (by decide)

/-- Shift goes down on Linux, through X11 and through Wayland, and on Windows, and stays down
when the connection is dropped; a press of Shift on Windows is tracked although it is up. -/
theorem pressed_modifiers_not_tracked :
    ¬Tracked (shiftPlatform (.linux .x11) 50) (run (step (shiftPlatform (.linux .x11) 50))
      ⟨remoteConn, {}⟩ [⟨.map, { down := true, union := some (.chr 50) }, {}⟩]) ∧
    ¬Tracked (shiftPlatform (.linux .uinput) 50) (run (step (shiftPlatform (.linux .uinput) 50))
      ⟨remoteConn, {}⟩ [⟨.translate, { down := true, union := some (.chr 50) }, {}⟩]) ∧
    ¬Tracked (shiftPlatform .windows 42) (run (step (shiftPlatform .windows 42))
      ⟨remoteConn, {}⟩ [⟨.map, { down := true, union := some (.chr 42) }, {}⟩]) ∧
    ¬Tracked (shiftPlatform .windows 42) (run (step (shiftPlatform .windows 42))
      ⟨remoteConn, {}⟩ [⟨.map, { press := true, union := some (.chr 42) }, {}⟩]) := by
  refine ⟨fun h => ?_, fun h => ?_, fun h => ?_, fun h => ?_⟩
  · exact h.released 0 (by decide)
  · exact h.released 0 (by decide)
  · exact h.released 0 (by decide)
  · exact absurd ((h.pressed 0).mp (by decide)) (by decide)

end RustDesk.PressedModifiers
