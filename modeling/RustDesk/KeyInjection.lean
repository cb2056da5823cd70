import RustDesk.Message
import RustDesk.Transitions

/-!
# Key injection on Linux

`handle_key_` turns a key event into transitions of keys on the host. On X11 the raw keys go
through rdev and the others through enigo, on Wayland all of them go through the keyboard
that enigo was given. `KEYS_DOWN` is to remember what is held down, so that it can be released
when the peer is gone. The keyboard is the set of records with the log of all transitions;
every injection succeeds. What the host answers about the state of a key is arbitrary, and may
change with every transition.
-/

namespace RustDesk.KeyInjection

open Transitions

/-- The keys of the protocol in the order of their numbers. -/
inductive ControlKey
  | unknown | alt | backspace | capsLock | control | delete | downArrow | endKey | escape | f1
  | f10 | f11 | f12 | f2 | f3 | f4 | f5 | f6 | f7 | f8 | f9 | home | leftArrow | metaKey | option
  | pageDown | pageUp | returnKey | rightArrow | shift | space | tab | upArrow | numpad0
  | numpad1 | numpad2 | numpad3 | numpad4 | numpad5 | numpad6 | numpad7 | numpad8 | numpad9
  | cancel | clear | menu | pause | kana | hangul | junja | final | hanja | kanji | convert
  | select | print | execute | snapshot | insert | help | sleep | separator | scroll | numLock
  | rWin | apps | multiply | add | subtract | decimal | divide | equals | numpadEnter | rShift
  | rControl | rAlt | volumeMute | volumeUp | volumeDown | power | ctrlAltDel | lockScreen
  deriving DecidableEq, Repr

/-- The last two are not numbered in a row with the others. -/
def ControlKey.value : ControlKey → Int
  | .ctrlAltDel => 100
  | .lockScreen => 101
  | key => key.ctorIdx

/-- The keys of enigo that have a name. -/
inductive NamedKey
  | alt | backspace | capsLock | control | delete | downArrow | endKey | escape | f1 | f10
  | f11 | f12 | f2 | f3 | f4 | f5 | f6 | f7 | f8 | f9 | home | leftArrow | metaKey | option
  | pageDown | pageUp | returnKey | rightArrow | shift | space | tab | upArrow | numpad0
  | numpad1 | numpad2 | numpad3 | numpad4 | numpad5 | numpad6 | numpad7 | numpad8 | numpad9
  | cancel | clear | pause | kana | hangul | junja | final | hanja | kanji | convert | select
  | print | execute | snapshot | insert | help | sleep | separator | scroll | numLock | rWin
  | apps | multiply | add | subtract | decimal | divide | equals | numpadEnter | rightAlt
  | rightControl | rightShift
  deriving DecidableEq, Repr

inductive Key
  | named (key : NamedKey)
  | layout (c : Char)
  | raw (code : Nat)
  deriving DecidableEq, Repr

/-- A key as it is injected: through rdev by its keycode, by its virtual code on Windows or by
its name, or through enigo. A modifier has the number that a connection tracks it by. -/
inductive HostKey
  | rdev (code : Nat)
  | virtual (code : Nat)
  | shiftLeft
  | shiftRight
  | modifier (id : Nat)
  | enigo (key : Key)
  deriving DecidableEq, Repr

inductive KeysDown
  | rdevKey (code : Nat)
  | enigoKey (value : Nat)
  deriving DecidableEq, Repr

/-- `is_x11`, `wayland_use_uinput` or `wayland_use_rdp_input` -/
inductive Desktop
  | x11
  | uinput
  | rdpInput
  deriving DecidableEq, Repr

/-- What is read from outside while an event is handled. -/
structure InputHost where
  exiting : Bool := false
  getKeyState : List (HostKey × Bool) → NamedKey → Bool := fun _ _ => false
  setClipboardForPaste : Bool := true
  simulateKeyUnicode : Nat → Bool := fun _ => true
  skipLedSyncRdevKey : Nat → Bool := fun _ => false
  isNumpadRdevKey : Nat → Bool := fun _ => false

structure Keyboard where
  keysDown : List KeysDown := []
  log : List (HostKey × Bool) := []
  deriving DecidableEq, Repr

def KEY_MAP : List (ControlKey × NamedKey) :=
  [(.alt, .alt), (.backspace, .backspace), (.capsLock, .capsLock), (.control, .control),
    (.delete, .delete), (.downArrow, .downArrow), (.endKey, .endKey), (.escape, .escape),
    (.f1, .f1), (.f10, .f10), (.f11, .f11), (.f12, .f12), (.f2, .f2), (.f3, .f3), (.f4, .f4),
    (.f5, .f5), (.f6, .f6), (.f7, .f7), (.f8, .f8), (.f9, .f9), (.home, .home),
    (.leftArrow, .leftArrow), (.metaKey, .metaKey), (.option, .option), (.pageDown, .pageDown),
    (.pageUp, .pageUp), (.returnKey, .returnKey), (.rightArrow, .rightArrow), (.shift, .shift),
    (.space, .space), (.tab, .tab), (.upArrow, .upArrow), (.numpad0, .numpad0),
    (.numpad1, .numpad1), (.numpad2, .numpad2), (.numpad3, .numpad3), (.numpad4, .numpad4),
    (.numpad5, .numpad5), (.numpad6, .numpad6), (.numpad7, .numpad7), (.numpad8, .numpad8),
    (.numpad9, .numpad9), (.cancel, .cancel), (.clear, .clear), (.menu, .alt),
    (.pause, .pause), (.kana, .kana), (.hangul, .hangul), (.junja, .junja), (.final, .final),
    (.hanja, .hanja), (.kanji, .kanji), (.convert, .convert), (.select, .select),
    (.print, .print), (.execute, .execute), (.snapshot, .snapshot), (.insert, .insert),
    (.help, .help), (.sleep, .sleep), (.separator, .separator), (.scroll, .scroll),
    (.numLock, .numLock), (.rWin, .rWin), (.apps, .apps), (.multiply, .multiply), (.add, .add),
    (.subtract, .subtract), (.decimal, .decimal), (.divide, .divide), (.equals, .equals),
    (.numpadEnter, .numpadEnter), (.rAlt, .rightAlt), (.rControl, .rightControl),
    (.rShift, .rightShift)]

def controlKeyValueToKey (value : Int) : Option NamedKey :=
  (KEY_MAP.find? fun p => p.1.value = value).map (·.2)

def keyCharStart : Nat := 9999

/-- `char::from_u32` -/
def charFromU32 (value : Nat) : Option Char :=
  if h : (value % 2 ^ 32).isValidChar then some (Char.ofNatAux (value % 2 ^ 32) h) else none

def charValueToKey (value : Nat) : Key := .layout ((charFromU32 value).getD (Char.ofNat 0))

def recordKeyToKey (recordKey : Nat) : Option Key :=
  if recordKey < keyCharStart then (controlKeyValueToKey recordKey).map .named
  else some (charValueToKey (recordKey - keyCharStart))

/-- The key that `release_record_key` brings up. -/
def KeysDown.released : KeysDown → Option HostKey
  | .rdevKey code => some (.rdev code)
  | .enigoKey value => (recordKeyToKey value).map .enigo

def isAsciiPrintable (c : Char) : Bool := 0x20 ≤ c.toNat && c.toNat ≤ 0x7E

/-- `as u64` of a control key -/
def asU64 (value : Int) : Nat := (value % 2 ^ 64).toNat

namespace InputHost

def getModifierState (host : InputHost) (log : List (HostKey × Bool)) (key : NamedKey) : Bool :=
  let x := host.getKeyState log key
  match key with
  | .shift => x || host.getKeyState log .rightShift
  | .control => x || host.getKeyState log .rightControl
  | .alt => x || host.getKeyState log .rightAlt
  | .metaKey => x || host.getKeyState log .rWin
  | .rightShift => x || host.getKeyState log .shift
  | .rightControl => x || host.getKeyState log .control
  | .rightAlt => x || host.getKeyState log .alt
  | .rWin => x || host.getKeyState log .metaKey
  | _ => x

def isHotkeyModifierPressed (host : InputHost) (log : List (HostKey × Bool)) : Bool :=
  [NamedKey.control, .rightControl, .alt, .rightAlt, .metaKey, .rWin].any (host.getModifierState log)

end InputHost

namespace Keyboard

/-! ### The four ways to inject a key -/

def inject (s : Keyboard) (key : HostKey) (down : Bool) : Keyboard :=
  { s with log := (key, down) :: s.log }

def keyDown (s : Keyboard) (key : Key) : Keyboard := s.inject (.enigo key) true

def keyUp (s : Keyboard) (key : Key) : Keyboard := s.inject (.enigo key) false

def keyClick (s : Keyboard) (key : Key) : Keyboard := (s.keyDown key).keyUp key

def keySequence (s : Keyboard) (sequence : List Char) : Keyboard :=
  sequence.foldl (fun s c => s.keyClick (.layout c)) s

def recordPressedKey (s : Keyboard) (recordKey : KeysDown) (down : Bool) : Keyboard :=
  { s with
    keysDown :=
      if down then (if recordKey ∈ s.keysDown then s.keysDown else recordKey :: s.keysDown)
      else s.keysDown.filter (· ≠ recordKey) }

def simRdevRawkeyPosition (s : Keyboard) (code : Nat) (keydown : Bool) : Keyboard :=
  (s.recordPressedKey (.rdevKey code) keydown).inject (.rdev code) keydown

def waylandSendRawKey (s : Keyboard) (code : Nat) (down : Bool) : Keyboard :=
  s.inject (.enigo (.raw code)) down

/-- `evt.chr()` -/
def chr (evt : KeyEvent) : Nat :=
  match evt.union with
  | some (.chr code) => code
  | _ => 0

def sendPosition (desktop : Desktop) (evt : KeyEvent) (s : Keyboard) : Keyboard :=
  if desktop = .x11 then s.simRdevRawkeyPosition (chr evt) evt.down
  else s.waylandSendRawKey (chr evt % 2 ^ 16) evt.down

/-! ### The modifiers of an event -/

def fixModifier (host : InputHost) (modifiers : List Int) (key0 : ControlKey) (key1 : NamedKey)
    (s : Keyboard) : Keyboard :=
  if host.getModifierState s.log key1 && !modifiers.contains key0.value then s.keyUp (.named key1)
  else s

/-- The modifiers that `fix_modifiers` looks at: the control key that is left alone when it is
the event's own, the one that has to be listed, and the key that is brought up. -/
def fixedModifiers : List (ControlKey × ControlKey × NamedKey) :=
  [(.shift, .shift, .shift), (.rShift, .shift, .rightShift), (.alt, .alt, .alt),
    (.rAlt, .alt, .rightAlt), (.control, .control, .control), (.rControl, .control, .rightControl),
    (.metaKey, .metaKey, .metaKey), (.rWin, .metaKey, .rWin)]

def fixModifiers (host : InputHost) (modifiers : List Int) (ck : Int) (s : Keyboard) : Keyboard :=
  fixedModifiers.foldl (fun s m =>
    if ck ≠ m.1.value then s.fixModifier host modifiers m.2.1 m.2.2 else s) s

def getControlKeyValue (evt : KeyEvent) : Int :=
  match evt.union with
  | some (.controlKey ck) => ck
  | _ => -1

def releaseUnpressedModifiers (host : InputHost) (evt : KeyEvent) (s : Keyboard) : Keyboard :=
  s.fixModifiers host evt.modifiers (getControlKeyValue evt)

def isAltgrPressed (s : Keyboard) : Bool :=
  s.keysDown.contains (.rdevKey ControlKey.rAlt.value.toNat)

/-- One turn of the loop of `press_modifiers`, with `to_release`. -/
def pressModifier (host : InputHost) (acc : Keyboard × List NamedKey) (ck : Int) :
    Keyboard × List NamedKey :=
  match controlKeyValueToKey ck with
  | some key =>
    if host.getModifierState acc.1.log key then acc
    else if key = .alt && acc.1.isAltgrPressed then acc
    else (acc.1.keyDown (.named key), acc.2 ++ [key])
  | none => acc

def pressModifiers (host : InputHost) (evt : KeyEvent) (s : Keyboard) : Keyboard × List NamedKey :=
  evt.modifiers.foldl (pressModifier host) (s, [])

def syncModifiers (host : InputHost) (evt : KeyEvent) (s : Keyboard) : Keyboard × List NamedKey :=
  if evt.down then (s.releaseUnpressedModifiers host evt).pressModifiers host evt else (s, [])

def releaseKeys (toRelease : List NamedKey) (s : Keyboard) : Keyboard :=
  toRelease.foldl (fun s key => s.keyUp (.named key)) s

/-! ### The kinds of events -/

def processControlKey (ck : Int) (down : Bool) (s : Keyboard) : Keyboard :=
  match controlKeyValueToKey ck with
  | some key => s.inject (.enigo (.named key)) down
  | none => s

/-- Insert is the keycode 110 of evdev, and xkb counts from 8. -/
def inputTextViaClipboardServer (host : InputHost) (text : List Char) (s : Keyboard) : Keyboard :=
  if text.isEmpty || !host.setClipboardForPaste then s
  else (((s.keyDown (.named .shift)).keyDown (.raw 118)).keyUp (.raw 118)).keyUp (.named .shift)

/-- The text itself where it can be typed, and the clipboard for other characters. -/
def typeOrPaste (host : InputHost) (text : List Char) (s : Keyboard) : Keyboard :=
  if text.all isAsciiPrintable then s.keySequence text else s.inputTextViaClipboardServer host text

def processChr (desktop : Desktop) (host : InputHost) (chr : Nat) (down : Bool) (s : Keyboard) :
    Keyboard :=
  if desktop = .uinput && !host.isHotkeyModifierPressed s.log then
    match charFromU32 chr with
    | some c =>
      if isAsciiPrintable c then s.inject (.enigo (.layout c)) down
      else if down then s.inputTextViaClipboardServer host [c] else s
    | none => s
  else s.inject (.enigo (charValueToKey chr)) down

def processUnicode (desktop : Desktop) (host : InputHost) (chr : Nat) (s : Keyboard) : Keyboard :=
  match charFromU32 chr with
  | some c => if desktop = .uinput then s.typeOrPaste host [c] else s.keySequence [c]
  | none => s

def processSeq (desktop : Desktop) (host : InputHost) (sequence : List Char) (s : Keyboard) :
    Keyboard :=
  if desktop = .uinput then s.typeOrPaste host sequence else s.keySequence sequence

def releaseShift (desktop : Desktop) (host : InputHost) (key : NamedKey) (rdevKey : HostKey)
    (s : Keyboard) : Keyboard :=
  if host.getModifierState s.log key then
    s.inject (if desktop = .x11 then rdevKey else .enigo (.named key)) false
  else s

def releaseShiftForCharInput (desktop : Desktop) (host : InputHost) (s : Keyboard) : Keyboard :=
  if host.isHotkeyModifierPressed s.log then s
  else (s.releaseShift desktop host .shift .shiftLeft).releaseShift desktop host .rightShift
    .shiftRight

/-- The screen is locked by a thread that handles key events of its own. -/
def isFunctionKey (ck : Int) : Bool :=
  ck = ControlKey.ctrlAltDel.value || ck = ControlKey.lockScreen.value

def legacyKeyboardMode (desktop : Desktop) (host : InputHost) (evt : KeyEvent) (s : Keyboard) :
    Keyboard :=
  let (s, toRelease) := s.syncModifiers host evt
  match evt.union with
  | some (.controlKey ck) =>
    if isFunctionKey ck then s
    else
      let s := s.recordPressedKey (.enigoKey (asU64 ck)) evt.down
      (s.processControlKey ck evt.down).releaseKeys toRelease
  | some (.chr chr) =>
    let s := s.releaseShiftForCharInput desktop host
    let s := s.recordPressedKey (.enigoKey (chr + keyCharStart)) evt.down
    (s.processChr desktop host chr evt.down).releaseKeys toRelease
  | some (.unicode chr) =>
    ((s.releaseShiftForCharInput desktop host).processUnicode desktop host chr).releaseKeys toRelease
  | some (.seq sequence) => (s.processSeq desktop host sequence.toList).releaseKeys toRelease
  | _ => s.releaseKeys toRelease

def translateSeq (desktop : Desktop) (host : InputHost) (sequence : List Char) (s : Keyboard) :
    Keyboard :=
  match desktop with
  | .rdpInput => (s.releaseShiftForCharInput desktop host).keySequence sequence
  | .uinput =>
    if host.isHotkeyModifierPressed s.log then s.keySequence sequence
    else (s.releaseShiftForCharInput desktop host).typeOrPaste host sequence
  | .x11 => (s.releaseShiftForCharInput desktop host).keySequence sequence

def translateKeyboardMode (desktop : Desktop) (host : InputHost) (evt : KeyEvent) (s : Keyboard) :
    Keyboard :=
  match evt.union with
  | some (.seq sequence) => s.translateSeq desktop host sequence.toList
  | some (.chr _) => s.sendPosition desktop evt
  | _ => s

/-! ### The locks around an event -/

/-- `LockModesHandler` -/
structure LockModes where
  capsLockChanged : Bool
  numLockChanged : Bool
  deriving DecidableEq, Repr

def clickIf (c : Bool) (key : NamedKey) (s : Keyboard) : Keyboard :=
  if c then s.keyClick (.named key) else s

def LockModes.new (host : InputHost) (evt : KeyEvent) (isNumpadKey : Bool) (s : Keyboard) :
    LockModes × Keyboard :=
  let capsLockChanged :=
    evt.modifiers.contains ControlKey.capsLock.value != host.getKeyState s.log .capsLock
  let s := s.clickIf capsLockChanged .capsLock
  let numLockChanged := isNumpadKey &&
    (evt.modifiers.contains ControlKey.numLock.value != host.getKeyState s.log .numLock)
  (⟨capsLockChanged, numLockChanged⟩, s.clickIf numLockChanged .numLock)

def LockModes.drop (desktop : Desktop) (modes : LockModes) (s : Keyboard) : Keyboard :=
  if desktop = .uinput then s
  else (s.clickIf modes.capsLockChanged .capsLock).clickIf modes.numLockChanged .numLock

def skipLedSyncControlKey (ck : Int) : Bool :=
  ([.control, .rControl, .metaKey, .shift, .rShift, .alt, .rAlt, .tab, .returnKey] :
    List ControlKey).any (·.value = ck)

def isNumpadControlKey (ck : Int) : Bool :=
  ([.numpad0, .numpad1, .numpad2, .numpad3, .numpad4, .numpad5, .numpad6, .numpad7, .numpad8,
    .numpad9, .numpadEnter] : List ControlKey).any (·.value = ck)

def isLegacyMode (evt : KeyEvent) : Bool := evt.mode.getD .legacy = .legacy

/-- Whether the locks are synchronized for an event, and whether as for a numpad key. -/
def lockModesFor (host : InputHost) (evt : KeyEvent) : Option Bool :=
  match evt.union with
  | some (.unicode _) | some (.seq _) => some false
  | some (.controlKey ck) => if skipLedSyncControlKey ck then none else some (isNumpadControlKey ck)
  | some (.chr code) =>
    if isLegacyMode evt then some false
    else if host.skipLedSyncRdevKey code then none
    else some (host.isNumpadRdevKey code)
  | _ => none

def newLockModes (host : InputHost) (evt : KeyEvent) (s : Keyboard) : Option LockModes × Keyboard :=
  match lockModesFor host evt with
  | some isNumpadKey =>
    let (modes, s) := LockModes.new host evt isNumpadKey s
    (some modes, s)
  | none => (none, s)

def dropLockModes (desktop : Desktop) (modes : Option LockModes) (s : Keyboard) : Keyboard :=
  match modes with
  | some modes => modes.drop desktop s
  | none => s

def handleMode (desktop : Desktop) (host : InputHost) (evt : KeyEvent) (s : Keyboard) : Keyboard :=
  match evt.mode with
  | some .map => s.sendPosition desktop evt
  | some .translate => s.translateKeyboardMode desktop host evt
  | _ => s.legacyKeyboardMode desktop host evt

def handleKey (desktop : Desktop) (host : InputHost) (evt : KeyEvent) (s : Keyboard) : Keyboard :=
  if host.exiting then s
  else
    let (modes, s) := s.newLockModes host evt
    (s.handleMode desktop host evt).dropLockModes desktop modes

/-! ### Releasing what is recorded -/

def releaseRecordKey (recordKey : KeysDown) (s : Keyboard) : Keyboard :=
  match recordKey.released with
  | some key => s.inject key false
  | none => s

/-- `expired` tells which records are older than six minutes. -/
def fixKeyDownTimeout (force : Bool) (expired : KeysDown → Bool) (s : Keyboard) : Keyboard :=
  s.keysDown.foldl (fun s recordKey =>
    if force || expired recordKey then
      (s.recordPressedKey recordKey false).releaseRecordKey recordKey
    else s) s

end Keyboard

end RustDesk.KeyInjection
