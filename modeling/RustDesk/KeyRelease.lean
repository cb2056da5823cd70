import RustDesk.KeyInjection
import RustDesk.History

/-!
# Releasing the keys of a peer

The records of `KEYS_DOWN` have to cover the keys that are held down: `fix_key_down_timeout`
releases by the records alone. Most of what is injected comes up again before the event ends
and needs no record. What remains are the four kinds of events that `Complete` is about: raw
keys on Wayland, the function keys that return before the modifiers are released, control keys
without a key, and characters that uinput cannot type.
-/

namespace RustDesk.KeyInjection

open Transitions History

namespace Keyboard

variable {ι : Type} [DecidableEq ι] {f : HostKey → Option ι} {s s' s'' : Keyboard}
  {desktop : Desktop} {host : InputHost} {evt : KeyEvent}

/-! ### What comes up again -/

/-- The records are the same, and nothing is down that was not down before. -/
structure Quiet (f : HostKey → Option ι) (s s' : Keyboard) : Prop where
  keysDown : s'.keysDown = s.keysDown
  settles : Settles f s.log s'.log

namespace Quiet

theorem refl (s : Keyboard) : Quiet f s s := ⟨rfl, .refl _⟩

theorem trans (h : Quiet f s s') (h' : Quiet f s' s'') : Quiet f s s'' :=
  ⟨h'.keysDown.trans h.keysDown, h.settles.trans h'.settles⟩

theorem up (s : Keyboard) (key : HostKey) : Quiet f s (s.inject key false) :=
  ⟨rfl, settles_up key s.log⟩

theorem between {key : Key} (h : Quiet f (s.keyDown key) s') : Quiet f s (s'.keyUp key) :=
  ⟨h.keysDown, h.settles.between⟩

theorem click (s : Keyboard) (key : Key) : Quiet f s (s.keyClick key) := between (refl _)

theorem keySequence (sequence : List Char) (s : Keyboard) : Quiet f s (s.keySequence sequence) := by
  unfold Keyboard.keySequence
  induction sequence generalizing s with
  | nil => exact refl s
  | cons c sequence ih => exact (click s (.layout c)).trans (ih _)

theorem paste (text : List Char) (s : Keyboard) :
    Quiet f s (s.inputTextViaClipboardServer host text) := by
  unfold inputTextViaClipboardServer
  split_ifs
  · exact refl s
  · apply between
    apply between
    exact refl _

theorem typeOrPaste (text : List Char) (s : Keyboard) : Quiet f s (s.typeOrPaste host text) := by
  unfold Keyboard.typeOrPaste
  split_ifs
  · exact keySequence text s
  · exact paste text s

theorem processUnicode (chr : Nat) (s : Keyboard) :
    Quiet f s (s.processUnicode desktop host chr) := by
  unfold Keyboard.processUnicode
  split
  · split_ifs
    · exact typeOrPaste _ s
    · exact keySequence _ s
  · exact refl s

theorem processSeq (sequence : List Char) (s : Keyboard) :
    Quiet f s (s.processSeq desktop host sequence) := by
  unfold Keyboard.processSeq
  split_ifs
  · exact typeOrPaste _ s
  · exact keySequence _ s

theorem fixModifiers (modifiers : List Int) (ck : Int) (s : Keyboard) :
    Quiet f s (s.fixModifiers host modifiers ck) := by
  unfold Keyboard.fixModifiers
  generalize fixedModifiers = fixed
  induction fixed generalizing s with
  | nil => exact refl s
  | cons m fixed ih =>
    refine trans ?_ (ih _)
    dsimp only
    split_ifs
    · unfold fixModifier
      split_ifs
      · exact up s _
      · exact refl s
    · exact refl s

theorem releaseShift (key : NamedKey) (rdevKey : HostKey) (s : Keyboard) :
    Quiet f s (s.releaseShift desktop host key rdevKey) := by
  unfold Keyboard.releaseShift
  split_ifs
  · exact up s _
  · exact up s _
  · exact refl s

theorem releaseShiftForCharInput (s : Keyboard) :
    Quiet f s (s.releaseShiftForCharInput desktop host) := by
  unfold Keyboard.releaseShiftForCharInput
  split_ifs
  · exact refl s
  · exact (releaseShift _ _ s).trans (releaseShift _ _ _)

theorem translateSeq (sequence : List Char) (s : Keyboard) :
    Quiet f s (s.translateSeq desktop host sequence) := by
  unfold Keyboard.translateSeq
  cases desktop with
  | x11 => exact (releaseShiftForCharInput s).trans (keySequence _ _)
  | rdpInput => exact (releaseShiftForCharInput s).trans (keySequence _ _)
  | uinput =>
    dsimp only
    split_ifs
    · exact keySequence _ s
    · exact (releaseShiftForCharInput s).trans (typeOrPaste _ _)

theorem clickIf (c : Bool) (key : NamedKey) (s : Keyboard) : Quiet f s (s.clickIf c key) := by
  unfold Keyboard.clickIf
  split_ifs
  · exact click s _
  · exact refl s

theorem newLockModes (s : Keyboard) : Quiet f s (s.newLockModes host evt).2 := by
  unfold Keyboard.newLockModes
  split
  · exact (clickIf _ _ s).trans (clickIf _ _ _)
  · exact refl s

theorem dropLockModes (modes : Option LockModes) (s : Keyboard) :
    Quiet f s (s.dropLockModes desktop modes) := by
  unfold Keyboard.dropLockModes
  split
  · unfold LockModes.drop
    split_ifs
    · exact refl s
    · exact (clickIf _ _ s).trans (clickIf _ _ _)
  · exact refl s

end Quiet

/-! ### Records -/

def Recorded (s : Keyboard) (key : HostKey) : Prop := ∃ r ∈ s.keysDown, r.released = some key

def AllRecorded (s : Keyboard) : Prop := Covered some s.log s.Recorded

/-- The modifiers `toRelease` are down for the time of the event and need no record. -/
def RecordedBut (toRelease : List NamedKey) (s : Keyboard) : Prop :=
  Covered some s.log fun key =>
    (∃ modifier ∈ toRelease, key = .enigo (.named modifier)) ∨ s.Recorded key

/-- No key that is down loses its last record with this one. -/
def Spared (s : Keyboard) (r : KeysDown) : Prop :=
  ∀ key, r.released = some key → Down some s.log key →
    ∃ r' ∈ s.keysDown, r' ≠ r ∧ r'.released = some key

section Records

variable {toRelease : List NamedKey} {key : HostKey} {r : KeysDown}

theorem recorded_of_keysDown (hkeys : s'.keysDown = s.keysDown) (h : s.Recorded key) :
    s'.Recorded key := by
  rw [Recorded, hkeys]
  exact h

theorem allRecorded_iff : s.AllRecorded ↔ RecordedBut [] s := by
  simp [AllRecorded, RecordedBut]

theorem RecordedBut.quiet (h : RecordedBut toRelease s) (hq : Quiet some s s') :
    RecordedBut toRelease s' := by
  refine Covered.imp (h.of_settles hq.settles) fun key hkey => ?_
  exact hkey.imp_right (recorded_of_keysDown hq.keysDown)

theorem AllRecorded.quiet (h : s.AllRecorded) (hq : Quiet some s s') : s'.AllRecorded :=
  allRecorded_iff.mpr ((allRecorded_iff.mp h).quiet hq)

theorem Spared.quiet (h : s.Spared r) (hq : Quiet some s s') : s'.Spared r := by
  intro key hkey hdown
  obtain ⟨r', hr', hne, hrel⟩ := h key hkey (hq.settles key hdown)
  exact ⟨r', hq.keysDown ▸ hr', hne, hrel⟩

theorem mem_recordPressedKey_true {r' : KeysDown} :
    r' ∈ (s.recordPressedKey r true).keysDown ↔ r' = r ∨ r' ∈ s.keysDown := by
  simp only [recordPressedKey, if_true]
  split_ifs with hmem
  · constructor
    · exact .inr
    · rintro (rfl | h)
      · exact hmem
      · exact h
  · exact List.mem_cons

theorem mem_recordPressedKey_false {r' : KeysDown} :
    r' ∈ (s.recordPressedKey r false).keysDown ↔ r' ∈ s.keysDown ∧ r' ≠ r := by
  simp [recordPressedKey]

theorem RecordedBut.record (h : RecordedBut toRelease s) (r : KeysDown) :
    RecordedBut toRelease (s.recordPressedKey r true) := by
  refine Covered.imp h fun key hkey => hkey.imp_right ?_
  rintro ⟨r', hr', hrel⟩
  exact ⟨r', mem_recordPressedKey_true.mpr (.inr hr'), hrel⟩

theorem RecordedBut.inject_down (h : RecordedBut toRelease s) (hkey : s.Recorded key) :
    RecordedBut toRelease (s.inject key true) := by
  apply Covered.down h
  rintro _ ⟨rfl⟩
  exact .inr hkey

theorem RecordedBut.press (h : RecordedBut toRelease s) (hr : r.released = some key) :
    RecordedBut toRelease ((s.recordPressedKey r true).inject key true) :=
  (h.record r).inject_down ⟨r, mem_recordPressedKey_true.mpr (.inl rfl), hr⟩

theorem AllRecorded.unrecord (h : s.AllRecorded) (hr : s.Spared r) :
    (s.recordPressedKey r false).AllRecorded := by
  intro key hdown
  obtain ⟨r', hr', hrel⟩ := h key hdown
  by_cases hrr : r' = r
  · subst hrr
    obtain ⟨r'', hr'', hne, hrel'⟩ := hr key hrel hdown
    exact ⟨r'', mem_recordPressedKey_false.mpr ⟨hr'', hne⟩, hrel'⟩
  · exact ⟨r', mem_recordPressedKey_false.mpr ⟨hr', hrr⟩, hrel⟩

theorem AllRecorded.release (h : s.AllRecorded) (hr : r.released = some key) :
    ((s.recordPressedKey r false).inject key false).AllRecorded := by
  apply Covered.release
  intro other hdown
  obtain ⟨r', hr', hrel⟩ := h other hdown
  by_cases hrr : r' = r
  · subst hrr
    exact .inl (hr.symm.trans hrel)
  · exact .inr ⟨r', mem_recordPressedKey_false.mpr ⟨hr', hrr⟩, hrel⟩

/-- In both directions, a key that is injected with its own record. -/
theorem AllRecorded.transition (h : s.AllRecorded) (hr : r.released = some key) (down : Bool) :
    ((s.recordPressedKey r down).inject key down).AllRecorded := by
  cases down with
  | true => exact allRecorded_iff.mpr ((allRecorded_iff.mp h).press hr)
  | false => exact h.release hr

theorem allRecorded_releaseKeys (toRelease : List NamedKey) (s : Keyboard)
    (h : RecordedBut toRelease s) : (s.releaseKeys toRelease).AllRecorded := by
  unfold releaseKeys
  induction toRelease generalizing s with
  | nil => exact allRecorded_iff.mpr h
  | cons modifier toRelease ih =>
    apply ih
    apply Covered.release
    refine Covered.imp h ?_
    rintro key (⟨m, hm, rfl⟩ | hrec)
    · rcases List.mem_cons.mp hm with rfl | hm
      · exact .inl rfl
      · exact .inr (.inl ⟨m, hm, rfl⟩)
    · exact .inr (.inr hrec)

end Records

/-! ### The modifiers of an event -/

/-- Whatever `press_modifiers` brings down, it remembers for the end of the event. -/
theorem recordedBut_pressModifier {acc : Keyboard × List NamedKey} (ck : Int)
    (h : RecordedBut acc.2 acc.1) :
    RecordedBut (pressModifier host acc ck).2 (pressModifier host acc ck).1 ∧
      (pressModifier host acc ck).1.keysDown = acc.1.keysDown := by
  unfold pressModifier
  split
  · next key _ =>
    split_ifs
    · exact ⟨h, rfl⟩
    · exact ⟨h, rfl⟩
    · refine ⟨?_, rfl⟩
      apply Covered.down
      · refine Covered.imp h ?_
        rintro k (⟨m, hm, rfl⟩ | hrec)
        · exact .inl ⟨m, List.mem_append.mpr (.inl hm), rfl⟩
        · exact .inr hrec
      · rintro _ ⟨rfl⟩
        exact .inl ⟨key, List.mem_append.mpr (.inr (List.mem_singleton.mpr rfl)), rfl⟩
  · exact ⟨h, rfl⟩

theorem recordedBut_foldl_pressModifier (host : InputHost) (modifiers : List Int)
    (acc : Keyboard × List NamedKey)
    (h : RecordedBut acc.2 acc.1) :
    RecordedBut (modifiers.foldl (pressModifier host) acc).2
        (modifiers.foldl (pressModifier host) acc).1 ∧
      (modifiers.foldl (pressModifier host) acc).1.keysDown = acc.1.keysDown := by
  induction modifiers generalizing acc with
  | nil => exact ⟨h, rfl⟩
  | cons ck modifiers ih =>
    obtain ⟨hnext, hkeys⟩ := recordedBut_pressModifier ck h
    obtain ⟨hlast, hrest⟩ := ih _ hnext
    exact ⟨hlast, hrest.trans hkeys⟩

theorem recordedBut_syncModifiers (h : s.AllRecorded) :
    RecordedBut (s.syncModifiers host evt).2 (s.syncModifiers host evt).1 ∧
      (s.syncModifiers host evt).1.keysDown = s.keysDown := by
  unfold syncModifiers
  split_ifs
  · have hq : Quiet some s (s.releaseUnpressedModifiers host evt) := .fixModifiers _ _ s
    have hpress := recordedBut_foldl_pressModifier host evt.modifiers
      (s.releaseUnpressedModifiers host evt, []) (allRecorded_iff.mp (h.quiet hq))
    exact ⟨hpress.1, hpress.2.trans hq.keysDown⟩
  · exact ⟨allRecorded_iff.mp h, rfl⟩

theorem syncModifiers_up (hdown : evt.down = false) : s.syncModifiers host evt = (s, []) := by
  rw [syncModifiers, hdown, if_neg Bool.false_ne_true]

/-! ### One event -/

/-- The character of an event that uinput types is printable. -/
def isTyped (chr : Nat) : Bool := (charFromU32 chr).any isAsciiPrintable

/-- uinput has no key for the character, and it is not part of a hotkey. -/
def Untyped (desktop : Desktop) (host : InputHost) (chr : Nat) (log : List (HostKey × Bool)) :
    Prop :=
  desktop = .uinput ∧ isTyped chr = false ∧ host.isHotkeyModifierPressed log = false

/-- What a legacy event has to meet; the locks are synchronized before it is looked at. -/
def LegacyComplete (desktop : Desktop) (host : InputHost) (evt : KeyEvent) (s : Keyboard) : Prop :=
  let locked := (s.newLockModes host evt).2
  match evt.union with
  | some (.controlKey ck) =>
    if isFunctionKey ck then
      ∀ key ∈ (locked.syncModifiers host evt).2, s.Recorded (.enigo (.named key))
    else evt.down = false → controlKeyValueToKey ck = none → s.Spared (.enigoKey (asU64 ck))
  | some (.chr chr) =>
    evt.down = false →
      Untyped desktop host chr (locked.releaseShiftForCharInput desktop host).log →
      s.Spared (.enigoKey (chr + keyCharStart))
  | _ => True

/-- On Wayland a raw key comes only up. -/
def Complete (desktop : Desktop) (host : InputHost) (evt : KeyEvent) (s : Keyboard) : Prop :=
  host.exiting = false →
    match evt.mode with
    | some .map => desktop = .x11 ∨ evt.down = false
    | some .translate =>
      match evt.union with
      | some (.chr _) => desktop = .x11 ∨ evt.down = false
      | _ => True
    | _ => LegacyComplete desktop host evt s

theorem released_charKey (chr : Nat) :
    (KeysDown.enigoKey (chr + keyCharStart)).released = some (.enigo (charValueToKey chr)) := by
  have hnot : ¬chr + keyCharStart < keyCharStart := by omega
  rw [KeysDown.released, recordKeyToKey, if_neg hnot, Nat.add_sub_cancel, Option.map_some]

/-- The control keys with a key have small numbers, which no character has as a record. -/
theorem released_controlKey {ck : Int} {key : NamedKey} (h : controlKeyValueToKey ck = some key) :
    (KeysDown.enigoKey (asU64 ck)).released = some (.enigo (.named key)) := by
  have hsmall : 0 ≤ ck ∧ ck < 9999 := by
    obtain ⟨p, hp, -⟩ := Option.map_eq_some_iff.mp h
    have hall : ∀ p ∈ KEY_MAP, 0 ≤ p.1.value ∧ p.1.value < 9999 := by decide
    have hvalue : p.1.value = ck := by simpa using List.find?_some hp
    rw [← hvalue]
    exact hall p (List.mem_of_find?_eq_some hp)
  have hcast : ((asU64 ck : Nat) : Int) = ck := by
    unfold asU64
    omega
  have hlt : asU64 ck < keyCharStart := by
    unfold keyCharStart
    omega
  rw [KeysDown.released, recordKeyToKey, if_pos hlt, hcast, h]
  rfl

theorem allRecorded_sendPosition (h : s.AllRecorded) (hok : desktop = .x11 ∨ evt.down = false) :
    (s.sendPosition desktop evt).AllRecorded := by
  unfold sendPosition
  split_ifs with hx11
  · exact h.transition rfl evt.down
  · rw [hok.resolve_left hx11]
    exact h.quiet (.up s _)

theorem allRecorded_translate (h : s.AllRecorded)
    (hok : ∀ code, evt.union = some (.chr code) → desktop = .x11 ∨ evt.down = false) :
    (s.translateKeyboardMode desktop host evt).AllRecorded := by
  unfold translateKeyboardMode
  split
  · exact h.quiet (.translateSeq _ s)
  · next code hunion => exact allRecorded_sendPosition h (hok code hunion)
  · exact h

/-- A control key that is not a function key, with the modifiers of the event still down. -/
theorem allRecorded_controlKey (ck : Int) (toRelease : List NamedKey) (down : Bool)
    (h : RecordedBut toRelease s) (hup : down = false → toRelease = [])
    (hok : down = false → controlKeyValueToKey ck = none → s.Spared (.enigoKey (asU64 ck))) :
    (((s.recordPressedKey (.enigoKey (asU64 ck)) down).processControlKey ck down).releaseKeys
      toRelease).AllRecorded := by
  cases down with
  | true =>
    apply allRecorded_releaseKeys
    unfold processControlKey
    split
    · next key hkey => exact h.press (released_controlKey hkey)
    · exact h.record _
  | false =>
    rw [hup rfl] at h ⊢
    have hall : s.AllRecorded := allRecorded_iff.mpr h
    apply allRecorded_releaseKeys
    apply allRecorded_iff.mp
    unfold processControlKey
    split
    · next key hkey => exact hall.release (released_controlKey hkey)
    · next hnone => exact hall.unrecord (hok rfl hnone)

theorem processChr_of_not_untyped (s : Keyboard) {chr : Nat}
    (h : ¬Untyped desktop host chr s.log) (down : Bool) :
    s.processChr desktop host chr down = s.inject (.enigo (charValueToKey chr)) down := by
  unfold processChr
  by_cases hpath : (desktop = .uinput && !host.isHotkeyModifierPressed s.log) = true
  · have hu : desktop = .uinput ∧ host.isHotkeyModifierPressed s.log = false := by
      simpa using hpath
    have htyped : isTyped chr = true := by
      by_contra hno
      exact h ⟨hu.1, Bool.eq_false_iff.mpr hno, hu.2⟩
    obtain ⟨c, hc, hprint⟩ := (Option.any_eq_true _ _).mp htyped
    rw [if_pos hpath, hc]
    dsimp only
    rw [if_pos hprint, charValueToKey, hc, Option.getD_some]
  · rw [if_neg hpath]

theorem quiet_processChr (s : Keyboard) {chr : Nat} (h : Untyped desktop host chr s.log)
    (down : Bool) :
    Quiet f s (s.processChr desktop host chr down) := by
  obtain ⟨hu, htyped, hhot⟩ := h
  unfold processChr
  rw [if_pos (by simp [hu, hhot])]
  split
  · next c hc =>
    have hprint : isAsciiPrintable c = false := by
      rw [isTyped, hc, Option.any_some] at htyped
      exact htyped
    rw [if_neg (by simp [hprint])]
    split_ifs
    · exact .paste _ s
    · exact .refl s
  · exact .refl s

theorem allRecorded_chr (chr : Nat) (toRelease : List NamedKey) (down : Bool)
    (h : RecordedBut toRelease s) (hup : down = false → toRelease = [])
    (hok : down = false → Untyped desktop host chr s.log →
      s.Spared (.enigoKey (chr + keyCharStart))) :
    (((s.recordPressedKey (.enigoKey (chr + keyCharStart)) down).processChr desktop host chr
      down).releaseKeys toRelease).AllRecorded := by
  have hkey := released_charKey chr
  by_cases huntyped : Untyped desktop host chr s.log
  · have hq : Quiet some (s.recordPressedKey (.enigoKey (chr + keyCharStart)) down)
        ((s.recordPressedKey (.enigoKey (chr + keyCharStart)) down).processChr desktop host chr
          down) := quiet_processChr (s.recordPressedKey _ down) huntyped down
    apply allRecorded_releaseKeys
    cases down with
    | true => exact (h.record _).quiet hq
    | false =>
      rw [hup rfl] at h ⊢
      have hall := (allRecorded_iff.mpr h).unrecord (hok rfl huntyped)
      exact allRecorded_iff.mp (hall.quiet hq)
  · rw [processChr_of_not_untyped (s.recordPressedKey _ down) huntyped]
    apply allRecorded_releaseKeys
    cases down with
    | true => exact h.press hkey
    | false =>
      rw [hup rfl] at h ⊢
      exact allRecorded_iff.mp ((allRecorded_iff.mpr h).release hkey)

theorem allRecorded_legacy {locked : Keyboard} (hlocked : locked = (s.newLockModes host evt).2)
    (h : s.AllRecorded) (hok : LegacyComplete desktop host evt s) :
    (locked.legacyKeyboardMode desktop host evt).AllRecorded := by
  have hq : Quiet some s locked := hlocked ▸ .newLockModes s
  have hsync : RecordedBut (locked.syncModifiers host evt).2 (locked.syncModifiers host evt).1 ∧
      (locked.syncModifiers host evt).1.keysDown = locked.keysDown :=
    recordedBut_syncModifiers (h.quiet hq)
  have hup : evt.down = false → locked.syncModifiers host evt = (locked, []) := syncModifiers_up
  unfold LegacyComplete at hok
  rw [← hlocked] at hok
  unfold legacyKeyboardMode
  generalize hs : locked.syncModifiers host evt = sync at hsync hup hok
  obtain ⟨s₁, toRelease⟩ := sync
  obtain ⟨hbut, hkeys⟩ := hsync
  have hnone : evt.down = false → toRelease = [] := fun hd => congrArg Prod.snd (hup hd)
  have hsame : evt.down = false → s₁ = locked := fun hd => congrArg Prod.fst (hup hd)
  dsimp only at hok hbut hkeys ⊢
  split
  · next ck hunion =>
    rw [hunion] at hok
    dsimp only at hok
    split_ifs at hok ⊢ with hfunction
    · -- the modifiers stay down and have to be recorded
      refine Covered.imp hbut ?_
      rintro key (⟨modifier, hmem, rfl⟩ | hrec)
      · rw [hs] at hok
        exact recorded_of_keysDown (hkeys.trans hq.keysDown) (hok modifier hmem)
      · exact hrec
    · apply allRecorded_controlKey ck toRelease evt.down hbut hnone
      intro hd hno
      rw [hsame hd]
      exact (hok hd hno).quiet hq
  · next chr hunion =>
    rw [hunion] at hok
    dsimp only at hok
    apply allRecorded_chr chr toRelease evt.down (hbut.quiet (.releaseShiftForCharInput _)) hnone
    intro hd huntyped
    rw [hsame hd] at huntyped ⊢
    exact ((hok hd huntyped).quiet hq).quiet (.releaseShiftForCharInput _)
  · apply allRecorded_releaseKeys
    exact (hbut.quiet (.releaseShiftForCharInput _)).quiet (.processUnicode _ _)
  · apply allRecorded_releaseKeys
    exact hbut.quiet (.processSeq _ _)
  · exact allRecorded_releaseKeys toRelease s₁ hbut

theorem allRecorded_handleKey (h : s.AllRecorded) (hok : Complete desktop host evt s) :
    (s.handleKey desktop host evt).AllRecorded := by
  unfold handleKey
  split_ifs with hexit
  · exact h
  · have hmode := hok (Bool.eq_false_iff.mpr hexit)
    have hlocked : (s.newLockModes host evt).2.AllRecorded := h.quiet (.newLockModes s)
    refine AllRecorded.quiet ?_ (.dropLockModes _ _)
    unfold handleMode
    split
    · next hm =>
      rw [hm] at hmode
      exact allRecorded_sendPosition hlocked hmode
    · next hm =>
      rw [hm] at hmode
      apply allRecorded_translate hlocked
      intro code hunion
      rw [hunion] at hmode
      exact hmode
    · next hmap htranslate =>
      apply allRecorded_legacy rfl h
      split at hmode
      · next hm => exact absurd hm hmap
      · next hm => exact absurd hm htranslate
      · exact hmode

/-! ### Runs -/

/-- What stays down after every record is released is not recorded. -/
theorem settles_release (records : List KeysDown) (s : Keyboard) :
    (∀ key, Down some (records.foldl (fun s r =>
        (s.recordPressedKey r false).releaseRecordKey r) s).log key →
      Down some s.log key ∧ ∀ r ∈ records, r.released ≠ some key) := by
  induction records generalizing s with
  | nil => exact fun key hkey => ⟨hkey, fun _ hr => absurd hr List.not_mem_nil⟩
  | cons r records ih =>
    intro key hkey
    rw [List.foldl_cons] at hkey
    obtain ⟨hdown, hnone⟩ := ih _ key hkey
    rw [List.forall_mem_cons]
    unfold releaseRecordKey at hdown
    cases hr : r.released with
    | none =>
      rw [hr] at hdown
      exact ⟨hdown, ⟨fun hno => absurd hno (by simp), hnone⟩⟩
    | some released =>
      rw [hr] at hdown
      obtain ⟨hne, hbefore⟩ := down_of_down_up hdown
      exact ⟨hbefore, hne, hnone⟩

/-- With every key that is down in the records, forcing the release leaves none of them down. -/
theorem not_down_fixKeyDownTimeout (h : s.AllRecorded) (expired : KeysDown → Bool)
    (key : HostKey) : ¬Down some (s.fixKeyDownTimeout true expired).log key := by
  intro hkey
  unfold fixKeyDownTimeout at hkey
  simp only [Bool.true_or, if_true] at hkey
  obtain ⟨hdown, hnone⟩ := settles_release s.keysDown s key hkey
  obtain ⟨r, hr, hrel⟩ := h key hdown
  exact hnone r hr hrel

end Keyboard

open Keyboard

/-- A key event with what the host answers while it is handled. -/
structure KeyInput where
  host : InputHost := {}
  evt : KeyEvent

def step (desktop : Desktop) (s : Keyboard) (i : KeyInput) : Keyboard :=
  s.handleKey desktop i.host i.evt

/-- Every key that is down is recorded, and none is down after a forced release. -/
structure Releasable (s : Keyboard) : Prop where
  recorded : s.AllRecorded
  released : ∀ expired key, ¬Down some (s.fixKeyDownTimeout true expired).log key

theorem releasable_of_allRecorded {s : Keyboard} (h : s.AllRecorded) : Releasable s :=
  ⟨h, not_down_fixKeyDownTimeout h⟩

theorem keys_down_releasable (desktop : Desktop) (is : List KeyInput)
    (hok : Guarded (step desktop) (fun s i => Complete desktop i.host i.evt s) {} is) :
    Throughout (step desktop) Releasable {} is := by
  have hstart : AllRecorded {} := fun _ hkey => absurd hkey not_down_nil
  have hall : Throughout (step desktop) AllRecorded {} is :=
    throughout_of_guarded (fun s i h hi => allRecorded_handleKey h hi) hstart hok
  exact throughout_imp (fun s h => releasable_of_allRecorded h) hall

/-- A raw key goes down and a character is typed with Control, while the host reports all keys
up; the session ends with the raw key down. -/
theorem keys_down_releasable_typed :
    Throughout (step .x11) Releasable {}
      [⟨{}, { down := true, mode := some .map, union := some (.chr 38) }⟩,
        ⟨{}, { down := true, union := some (.chr 99), modifiers := [ControlKey.control.value] }⟩,
        ⟨{}, { union := some (.chr 99), modifiers := [ControlKey.control.value] }⟩] := by
  apply keys_down_releasable
  refine ⟨fun _ => .inl rfl, fun _ hdown => ?_, fun _ _ huntyped => ?_, trivial⟩
  · exact absurd hdown (by decide)
  · exact absurd huntyped.1 (by decide)

/-- `é` goes down as part of a hotkey and comes up after the hotkey is over. -/
def hotkeyEnded : List KeyInput :=
  [⟨{ getKeyState := fun _ key => key = .control },
      { down := true, union := some (.chr 233), modifiers := [ControlKey.control.value] }⟩,
    ⟨{}, { union := some (.chr 233) }⟩]

/-- A raw key on Wayland, the modifiers of a function key, a character whose record is that
of an unknown control key, and a character that is only part of a hotkey at first. -/
theorem keys_down_not_releasable :
    ¬Releasable (run (step .uinput) {}
      [⟨{}, { down := true, mode := some .map, union := some (.chr 38) }⟩]) ∧
    ¬Releasable (run (step .x11) {}
      [⟨{}, { down := true, union := some (.controlKey ControlKey.lockScreen.value),
              modifiers := [ControlKey.control.value] }⟩]) ∧
    ¬Releasable (run (step .x11) {}
      [⟨{}, { down := true, union := some (.chr 97) }⟩,
        ⟨{}, { union := some (.controlKey (9999 + 97)) }⟩]) ∧
    ¬Releasable (run (step .uinput) {} hotkeyEnded) := by
  refine ⟨fun h => ?_, fun h => ?_, fun h => ?_, fun h => ?_⟩
  · exact h.released (fun _ => false) (.enigo (.raw 38)) (by decide)
  · exact h.released (fun _ => false) (.enigo (.named .control)) (by decide)
  · exact h.released (fun _ => false) (.enigo (.layout 'a')) (by decide)
  · exact h.released (fun _ => false) (.enigo (.layout 'é')) (by decide)

end RustDesk.KeyInjection
