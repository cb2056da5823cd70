import RustDesk.History
import RustDesk.Message
import Mathlib.Data.List.Perm.Basic
import Mathlib.Logic.Function.Basic

/-!
# Pictures for the windows

The thread that decodes a display swaps its picture into a buffer, sets the flag `valid` and tells the
windows. A window reads the buffer and brings the flag down with `next_rgba`, and as long as the flag is set
the pictures that follow are dropped. So a flag that nobody brings down freezes the display, and a flag that
is down too early gives away the buffer that a window still reads.

Between any two locks the other threads take their steps. The ids of the windows are never used twice.
-/

namespace RustDesk.SoftRender

open History (run Guarded Throughout)

/-- The two buffers of a display, of which the one at `front` is in the table and the other one is with the
decoder. A display that is not in the table yet has an empty buffer. -/
structure RgbaData where
  mem : Bool → Bytes := fun _ => []
  front : Bool := false
  valid : Bool := false

def RgbaData.data (r : RgbaData) : Bytes := r.mem r.front

/-- Where `on_rgba_soft_render` is between its locks. -/
inductive Phase
  | idle
  | taken
  | counted (isMultiSessions : Bool)
  | unsent
  deriving DecidableEq, Repr

/-- The listener of a window between its calls: the size is known, or there is nothing to read. -/
inductive Callback
  | sized (display sz : Nat)
  | skip (display : Nat)
  deriving DecidableEq, Repr

def Callback.display : Callback → Nat
  | .sized d _ => d
  | .skip d => d

/-- What `getRgba` gave, and the picture that was there then. -/
structure Reading where
  display : Nat
  sz : Nat
  buffer : Bool
  picture : Bytes
  deriving DecidableEq, Repr

/-- The handler of a window, and the window. `queue` are the events that it has not listened to. -/
structure Window where
  displays : List Nat := []
  eventStream : Bool := false
  queue : List Nat := []
  callback : Option Callback := none
  reading : List Reading := []
  closed : Bool := false
  deriving DecidableEq, Repr

/-- Whether the loop tells a window. -/
def Window.told (isMultiSessions : Bool) (d : Nat) (x : Window) : Bool :=
  x.displays.length ≤ 1 && (!isMultiSessions || x.displays.contains d) && x.eventStream

/-- `resets` are the calls of `next_rgba` that opening a window or switching its display still makes.
`announced` are the windows that were told of the last picture, and `pictures` is what was decoded. -/
structure State where
  windows : Nat → Option Window := fun _ => none
  next : Nat := 0
  rgbas : Nat → RgbaData := fun _ => {}
  phases : Nat → Phase := fun _ => .idle
  resets : List Nat := []
  announced : Nat → List Nat := fun _ => []
  pictures : List (Nat × Bytes) := []

inductive Event
  | decode (d : Nat) (picture : Bytes)
  | count (d : Nat)
  | send (d : Nat)
  | reset (d : Nat)
  | insert (displays : List Nat)
  | start (w : Nat)
  | switch (w : Nat) (displays : List Nat)
  | setSize (w d : Nat)
  | nextRgba (i : Nat)
  | listen (w : Nat)
  | getRgba (w : Nat)
  | skip (w : Nat)
  | shown (w i : Nat)
  | close (w : Nat)
  | remove (w : Nat)
  deriving DecidableEq, Repr

/-- A step of the window itself. -/
def Event.By (w : Nat) : Event → Prop
  | .listen v | .getRgba v | .skip v | .shown v _ => v = w
  | _ => False

namespace State

variable (s : State)

def setWindow (w : Nat) (x : Window) : State := { s with windows := Function.update s.windows w (some x) }

def setRgba (d : Nat) (r : RgbaData) : State := { s with rgbas := Function.update s.rgbas d r }

def setPhase (d : Nat) (p : Phase) : State := { s with phases := Function.update s.phases d p }

/-- `next_rgba` -/
def nextRgba (d : Nat) : State := s.setRgba d { s.rgbas d with valid := false }

/-- The decoder writes its own buffer, which changes places with the other one if the flag is down. -/
def onRgbaSoftRender (d : Nat) (picture : Bytes) : State :=
  let r := s.rgbas d
  let mem := Function.update r.mem (!r.front) picture
  let s := { s with pictures := (d, picture) :: s.pictures }
  if r.valid then s.setRgba d { r with mem := mem }
  else (s.setRgba d { mem := mem, front := !r.front, valid := true }).setPhase d .taken

def hasWindow (w : Nat) : Bool := (s.windows w).isSome

def isMultiUiSession : Bool := ((List.range s.next).filter s.hasWindow).length > 1

def told (isMultiSessions : Bool) (d : Nat) : List Nat :=
  (List.range s.next).filter fun w => (s.windows w).any (Window.told isMultiSessions d)

def announce (d : Nat) (told : List Nat) : State :=
  { s with
    phases := Function.update s.phases d .idle
    windows := fun w =>
      if w ∈ told then (s.windows w).map fun x => { x with queue := x.queue ++ [d] } else s.windows w
    announced := Function.update s.announced d told }

/-- The loop over the handlers, which holds their lock. -/
def send (isMultiSessions : Bool) (d : Nat) : State :=
  if s.told isMultiSessions d = [] then s.setPhase d .unsent else s.announce d (s.told isMultiSessions d)

/-- `insert_session` has no displays. A session that has lost its last window gets no other. -/
def insert (displays : List Nat) : State :=
  if s.next ≠ 0 ∧ ∀ w < s.next, s.hasWindow w = false then s
  else
    let s := { s.setWindow s.next { displays := displays } with next := s.next + 1 }
    match displays with
    | [d] => { s with resets := d :: s.resets }
    | _ => s

/-- `session_switch_display` -/
def switch (w : Nat) (x : Window) (displays : List Nat) : State :=
  let s := s.setWindow w { x with displays := displays }
  match displays with
  | [d] => { s with resets := d :: s.resets }
  | _ => s

/-- The next event of the stream, up to the answer of `getRgbaSize`. -/
def listen (w : Nat) (x : Window) : State :=
  match x.queue, x.callback with
  | d :: queue, none =>
    if x.closed then s.setWindow w { x with queue := queue }
    else
      let sz := (s.rgbas d).data.length
      s.setWindow w { x with queue := queue, callback := some (if sz = 0 then .skip d else .sized d sz) }
  | _, _ => s

/-- `get_rgba` -/
def getRgba (w : Nat) (x : Window) : State :=
  match x.callback with
  | some (.sized d sz) =>
    let r := s.rgbas d
    if r.valid then
      s.setWindow w { x with callback := none, reading := ⟨d, sz, r.front, r.data⟩ :: x.reading }
    else s.setWindow w { x with callback := some (.skip d) }
  | _ => s

def skip (w : Nat) (x : Window) : State :=
  match x.callback with
  | some (.skip d) => (s.setWindow w { x with callback := none }).nextRgba d
  | _ => s

/-- A picture is on the screen, whichever of those that are read. -/
def shown (w i : Nat) (x : Window) : State :=
  match x.reading[i]? with
  | some r => (s.setWindow w { x with reading := x.reading.eraseIdx i }).nextRgba r.display
  | none => s

/-- A step of a window, if it is there. -/
def withWindow (w : Nat) (f : Window → State) : State := (s.windows w).elim s f

def step : Event → State
  | .decode d picture => if s.phases d = .idle then s.onRgbaSoftRender d picture else s
  | .count d => if s.phases d = .taken then s.setPhase d (.counted s.isMultiUiSession) else s
  | .send d => match s.phases d with
    | .counted isMultiSessions => s.send isMultiSessions d
    | _ => s
  | .reset d => if s.phases d = .unsent then (s.setPhase d .idle).nextRgba d else s
  | .insert displays => s.insert displays
  | .start w => s.withWindow w fun x => s.setWindow w { x with eventStream := true }
  | .switch w displays => s.withWindow w fun x => s.switch w x displays
  | .setSize w d => s.withWindow w fun x =>
    if x.displays.contains d then s else s.setWindow w { x with displays := x.displays ++ [d] }
  | .nextRgba i => match s.resets[i]? with
    | some d => { s.nextRgba d with resets := s.resets.eraseIdx i }
    | none => s
  | .listen w => s.withWindow w (s.listen w)
  | .getRgba w => s.withWindow w (s.getRgba w)
  | .skip w => s.withWindow w (s.skip w)
  | .shown w i => s.withWindow w (s.shown w i)
  | .close w => s.withWindow w fun x => s.setWindow w { x with closed := true }
  | .remove w => { s with windows := Function.update s.windows w none }

end State

/-! ### The flag is answered -/

/-- How often a window will still bring the flag of a display down. -/
def Window.owes (x : Window) (d : Nat) : Nat :=
  x.queue.count d + (if x.callback.any (·.display = d) then 1 else 0) + x.reading.countP (·.display = d)

/-- What a window has still to do before it only reads. -/
def Window.left (x : Window) : Nat :=
  3 * x.queue.length + match x.callback with
    | none => 0
    | some (.skip _) => 1
    | some (.sized _ _) => 2

/-- Every window that was told of the picture, and is open, owes its answer, and can give it on its own. -/
def State.Answered (s : State) (d : Nat) : Prop :=
  s.phases d = .idle → (s.rgbas d).valid = true → s.announced d ≠ [] ∧ ∀ w ∈ s.announced d, ∀ x,
    s.windows w = some x → x.closed = false → 0 < x.owes d ∧
      ∃ es, (∀ e ∈ es, Event.By w e) ∧ ((run State.step s es).rgbas d).valid = false

namespace State

section

variable (s : State) (w : Nat) (x : Window) (d : Nat) (r : RgbaData) (p : Phase)

@[simp] theorem setWindow_windows : (s.setWindow w x).windows = Function.update s.windows w (some x) := rfl

@[simp] theorem setRgba_rgbas : (s.setRgba d r).rgbas = Function.update s.rgbas d r := rfl
@[simp] theorem setRgba_phases : (s.setRgba d r).phases = s.phases := rfl
@[simp] theorem setRgba_pictures : (s.setRgba d r).pictures = s.pictures := rfl

@[simp] theorem setPhase_rgbas : (s.setPhase d p).rgbas = s.rgbas := rfl
@[simp] theorem setPhase_phases : (s.setPhase d p).phases = Function.update s.phases d p := rfl
@[simp] theorem setPhase_pictures : (s.setPhase d p).pictures = s.pictures := rfl

@[simp] theorem nextRgba_phases : (s.nextRgba d).phases = s.phases := rfl

@[simp] theorem nextRgba_self : (s.nextRgba d).rgbas d = { s.rgbas d with valid := false } :=
  Function.update_self ..

theorem nextRgba_of_ne {d d' : Nat} (h : d ≠ d') : (s.nextRgba d').rgbas d = s.rgbas d :=
  Function.update_of_ne h ..

theorem announce_announced (told : List Nat) : (s.announce d told).announced d = told :=
  Function.update_self ..

theorem announce_of_ne {d d' : Nat} (h : d ≠ d') (told : List Nat) :
    (s.announce d' told).announced d = s.announced d ∧ (s.announce d' told).phases d = s.phases d :=
  ⟨Function.update_of_ne h .., Function.update_of_ne h ..⟩

/-- The windows that were told have one more event, and the others are as before. -/
theorem announce_windows {told : List Nat} {x' : Window} (h : (s.announce d told).windows w = some x') :
    ∃ x, s.windows w = some x ∧
      x' = if w ∈ told then { x with queue := x.queue ++ [d] } else x := by
  simp only [announce] at h
  by_cases hw : w ∈ told
  · rw [if_pos hw, Option.map_eq_some_iff] at h
    obtain ⟨x, hx, rfl⟩ := h
    exact ⟨x, hx, (if_pos hw).symm⟩
  · rw [if_neg hw] at h
    exact ⟨x', h, (if_neg hw).symm⟩

end

end State

namespace Window

variable {x : Window} {d : Nat}

theorem owes_pos_iff : 0 < x.owes d ↔
    d ∈ x.queue ∨ (∃ c, x.callback = some c ∧ c.display = d) ∨ ∃ r ∈ x.reading, r.display = d := by
  have hcallback : (0 < if x.callback.any (·.display = d) then 1 else 0) ↔
      ∃ c, x.callback = some c ∧ c.display = d := by
    cases x.callback <;> simp [Nat.pos_iff_ne_zero]
  rw [owes, Nat.add_pos_iff_pos_or_pos, Nat.add_pos_iff_pos_or_pos, List.count_pos_iff, hcallback,
    List.countP_pos_iff, or_assoc]
  simp only [decide_eq_true_eq]

/-- The event that is listened to is owed as before. -/
theorem owes_listen {queue : List Nat} {d' : Nat} {c : Callback} (hq : x.queue = d' :: queue)
    (hc : x.callback = none) (hd : c.display = d') :
    ({ x with queue := queue, callback := some c } : Window).owes d = x.owes d := by
  simp only [owes, hq, hc, Option.any_some, Option.any_none, List.count_cons, hd, beq_iff_eq,
    decide_eq_true_eq, Bool.false_eq_true, if_false]
  omega

theorem owes_read {c : Callback} {r : Reading} (hc : x.callback = some c) (hd : r.display = c.display) :
    ({ x with callback := none, reading := r :: x.reading } : Window).owes d = x.owes d := by
  simp only [owes, hc, Option.any_some, Option.any_none, List.countP_cons, hd, decide_eq_true_eq,
    Bool.false_eq_true, if_false]
  omega

theorem owes_unread {d' sz : Nat} (hc : x.callback = some (.sized d' sz)) :
    ({ x with callback := some (.skip d') } : Window).owes d = x.owes d := by
  simp only [owes, hc, Option.any_some]
  rfl

theorem owes_skip {c : Callback} (hc : x.callback = some c) :
    ({ x with callback := none } : Window).owes d + (if c.display = d then 1 else 0) = x.owes d := by
  simp only [owes, hc, Option.any_some, Option.any_none, decide_eq_true_eq, Bool.false_eq_true, if_false]
  omega

theorem owes_shown {i : Nat} {r : Reading} (hr : x.reading[i]? = some r) :
    ({ x with reading := x.reading.eraseIdx i } : Window).owes d + (if r.display = d then 1 else 0) =
      x.owes d := by
  obtain ⟨hi, rfl⟩ := List.getElem?_eq_some_iff.mp hr
  have hcount := (List.getElem_cons_eraseIdx_perm hi).countP_eq (·.display = d)
  rw [List.countP_cons] at hcount
  simp only [decide_eq_true_eq] at hcount
  simp only [owes]
  omega

theorem owes_send (d' : Nat) :
    ({ x with queue := x.queue ++ [d'] } : Window).owes d = x.owes d + if d' = d then 1 else 0 := by
  simp only [owes, List.count_append, List.count_singleton, beq_iff_eq]
  omega

end Window

namespace State

variable {s s' : State} {w d d' : Nat} {x x' : Window}

theorem withWindow_of {P : State → Prop} {f : Window → State} (h : P s)
    (hf : ∀ x, s.windows w = some x → P (f x)) : P (s.withWindow w f) := by
  unfold State.withWindow
  cases hx : s.windows w with
  | none => exact h
  | some x => exact hf x hx

/-- However many displays there are, only the calls of `next_rgba` that are left depend on it. -/
theorem insert_eq (s : State) (displays : List Nat) : s.insert displays = s ∨ ∃ resets,
    s.insert displays =
      { s.setWindow s.next { displays := displays } with next := s.next + 1, resets := resets } := by
  unfold State.insert
  split
  · exact .inl rfl
  · match displays with
    | [] => exact .inr ⟨_, rfl⟩
    | [_] => exact .inr ⟨_, rfl⟩
    | _ :: _ :: _ => exact .inr ⟨_, rfl⟩

theorem switch_eq (s : State) (w : Nat) (x : Window) (displays : List Nat) : ∃ resets,
    s.switch w x displays = { s.setWindow w { x with displays := displays } with resets := resets } := by
  unfold State.switch
  match displays with
  | [] => exact ⟨_, rfl⟩
  | [_] => exact ⟨_, rfl⟩
  | _ :: _ :: _ => exact ⟨_, rfl⟩

/-- As long as the flag is up between two calls of `on_rgba_soft_render`, the windows that were told owe. -/
structure Owed (s : State) (d : Nat) : Prop where
  bound : ∀ w ∈ s.announced d, w < s.next
  owed : s.phases d = .idle → (s.rgbas d).valid = true → s.announced d ≠ [] ∧ ∀ w ∈ s.announced d, ∀ x,
    s.windows w = some x → x.closed = false → 0 < x.owes d

theorem owed_init : ({} : State).Owed d := ⟨fun _ hw => absurd hw List.not_mem_nil, fun _ hv => nomatch hv⟩

theorem Owed.mono (h : s.Owed d) (hnext : s.next ≤ s'.next) (hann : s'.announced d = s.announced d)
    (hset : s'.phases d = .idle → (s'.rgbas d).valid = true →
      s.phases d = .idle ∧ (s.rgbas d).valid = true)
    (hwindows : ∀ w < s.next, ∀ x', s'.windows w = some x' → x'.closed = false →
      ∃ x, s.windows w = some x ∧ x.closed = false ∧ (0 < x.owes d → 0 < x'.owes d)) : s'.Owed d := by
  refine ⟨fun w hw => Nat.lt_of_lt_of_le (h.bound w (hann ▸ hw)) hnext, fun hidle hvalid => ?_⟩
  obtain ⟨hne, howes⟩ := h.owed (hset hidle hvalid).1 (hset hidle hvalid).2
  rw [hann]
  refine ⟨hne, fun w hw x' hx' hclosed => ?_⟩
  obtain ⟨x, hx, hopen, himp⟩ := hwindows w (h.bound w hw) x' hx' hclosed
  exact himp (howes w hw x hx hopen)

theorem Owed.of_down (hbound : ∀ w ∈ s.announced d, w < s.next) (h : (s.rgbas d).valid = false) :
    s.Owed d :=
  ⟨hbound, fun _ hv => absurd (h.symm.trans hv) Bool.false_ne_true⟩

theorem Owed.of_busy (hbound : ∀ w ∈ s.announced d, w < s.next) (h : s.phases d ≠ .idle) : s.Owed d :=
  ⟨hbound, fun hidle => absurd hidle h⟩

/-- What has to do with neither the windows nor this display. -/
theorem Owed.frame (h : s.Owed d) (hnext : s'.next = s.next) (hann : s'.announced d = s.announced d)
    (hset : s'.phases d = .idle → (s'.rgbas d).valid = true →
      s.phases d = .idle ∧ (s.rgbas d).valid = true)
    (hwindows : s'.windows = s.windows) : s'.Owed d :=
  h.mono (Nat.le_of_eq hnext.symm) hann hset fun _ _ x hx hclosed => ⟨x, by rwa [← hwindows], hclosed, id⟩

theorem Owed.setWindow (h : s.Owed d) (hx : s.windows w = some x)
    (hclosed : x'.closed = false → x.closed = false)
    (howes : x'.closed = false → 0 < x.owes d → 0 < x'.owes d) : (s.setWindow w x').Owed d := by
  refine h.mono (Nat.le_refl _) rfl (fun hidle hvalid => ⟨hidle, hvalid⟩) fun v _ y hy hopen => ?_
  rw [setWindow_windows, Function.update_apply] at hy
  by_cases hv : v = w
  · rw [if_pos hv] at hy
    cases hy
    exact ⟨x, by rw [hv, hx], hclosed hopen, howes hopen⟩
  · rw [if_neg hv] at hy
    exact ⟨y, hy, hopen, id⟩

theorem Owed.nextRgba (h : s.Owed d) : (s.nextRgba d').Owed d := by
  by_cases hd : d = d'
  · subst hd
    exact .of_down h.bound (by rw [nextRgba_self])
  · exact h.frame rfl rfl (fun hidle hvalid => ⟨hidle, by rwa [nextRgba_of_ne s hd] at hvalid⟩) rfl

/-- An answer of a window takes the flag down that it was owed for. -/
theorem Owed.answer (h : s.Owed d) (hx : s.windows w = some x) (hclosed : x'.closed = x.closed)
    (howes : x'.owes d + (if d' = d then 1 else 0) = x.owes d) : ((s.setWindow w x').nextRgba d').Owed d := by
  by_cases hd : d' = d
  · subst hd
    exact .of_down h.bound (by rw [nextRgba_self])
  · rw [if_neg hd, Nat.add_zero] at howes
    exact (h.setWindow hx (fun hc => hclosed ▸ hc) fun _ hpos => howes ▸ hpos).nextRgba

theorem Owed.withWindow {f : Window → State} (h : s.Owed d)
    (hf : ∀ x, s.windows w = some x → (f x).Owed d) : (s.withWindow w f).Owed d :=
  withWindow_of (P := (Owed · d)) h hf

theorem lt_of_told {multi : Bool} (hw : w ∈ s.told multi d) : w < s.next :=
  List.mem_range.mp (List.mem_filter.mp hw).1

theorem owed_setPhase {p : Phase} (h : s.Owed d) (hp : p ≠ .idle) : (s.setPhase d' p).Owed d := by
  by_cases hd : d = d'
  · subst hd
    exact .of_busy h.bound (by simpa using hp)
  · exact h.frame rfl rfl (fun hidle hvalid => ⟨by simpa [hd] using hidle, hvalid⟩) rfl

theorem owed_send (h : s.Owed d) (multi : Bool) : (s.send multi d').Owed d := by
  unfold send
  by_cases htold : s.told multi d' = []
  · rw [if_pos htold]
    exact owed_setPhase h Phase.noConfusion
  · rw [if_neg htold]
    by_cases hd : d = d'
    · subst hd
      refine ⟨fun w hw => ?_, fun _ _ => ⟨?_, fun w hw x' hx' _ => ?_⟩⟩
      · rw [announce_announced] at hw
        exact lt_of_told (s := s) hw
      · rwa [announce_announced]
      · rw [announce_announced] at hw
        obtain ⟨x, -, rfl⟩ := announce_windows s w d hx'
        rw [if_pos hw, Window.owes_send, if_pos rfl]
        exact Nat.succ_pos _
    · obtain ⟨hann, hphase⟩ := s.announce_of_ne hd (s.told multi d')
      refine h.mono (Nat.le_refl _) hann (fun hidle hvalid => ⟨hphase ▸ hidle, hvalid⟩)
        fun w _ x' hx' hclosed => ?_
      obtain ⟨x, hx, rfl⟩ := announce_windows s w d' hx'
      by_cases hw : w ∈ s.told multi d'
      · rw [if_pos hw] at hclosed ⊢
        exact ⟨x, hx, hclosed, fun hpos => by rw [Window.owes_send]; exact Nat.add_pos_left hpos _⟩
      · rw [if_neg hw] at hclosed ⊢
        exact ⟨x, hx, hclosed, id⟩

theorem owed_insert (h : s.Owed d) (displays : List Nat) : (s.insert displays).Owed d := by
  rcases s.insert_eq displays with heq | ⟨resets, heq⟩
  · rwa [heq]
  · rw [heq]
    refine h.mono (Nat.le_succ _) rfl (fun hidle hvalid => ⟨hidle, hvalid⟩) fun w hw x' hx' hclosed => ?_
    exact ⟨x', by rwa [setWindow_windows, Function.update_of_ne (Nat.ne_of_lt hw)] at hx', hclosed, id⟩

theorem owed_switch (h : s.Owed d) (hx : s.windows w = some x) (displays : List Nat) :
    (s.switch w x displays).Owed d := by
  obtain ⟨resets, heq⟩ := s.switch_eq w x displays
  rw [heq]
  have hnew : (s.setWindow w { x with displays := displays }).Owed d := h.setWindow hx id fun _ => id
  exact hnew.frame rfl rfl (fun hidle hvalid => ⟨hidle, hvalid⟩) rfl

theorem owed_onRgbaSoftRender (h : s.Owed d) (picture : Bytes) :
    (s.onRgbaSoftRender d' picture).Owed d := by
  unfold onRgbaSoftRender
  dsimp only
  by_cases hd : d = d'
  · subst hd
    split
    · next hv =>
      exact h.frame rfl rfl (fun hidle _ => ⟨hidle, hv⟩) rfl
    · exact .of_busy h.bound (by simp)
  · split
    · exact h.frame rfl rfl (fun hidle hvalid => ⟨hidle, by simpa [hd] using hvalid⟩) rfl
    · exact h.frame rfl rfl
        (fun hidle hvalid => ⟨by simpa [hd] using hidle, by simpa [hd] using hvalid⟩) rfl

theorem owed_listen (h : s.Owed d) (hx : s.windows w = some x) : (s.listen w x).Owed d := by
  unfold State.listen
  split
  · next d' queue hq hc =>
    dsimp only
    split
    · next hclosed =>
      exact h.setWindow hx id fun hopen => absurd (hclosed.symm.trans hopen) Bool.noConfusion
    · refine h.setWindow hx id fun _ hpos => ?_
      rwa [Window.owes_listen hq hc (by split <;> rfl)]
  · exact h

theorem owed_getRgba (h : s.Owed d) (hx : s.windows w = some x) : (s.getRgba w x).Owed d := by
  unfold State.getRgba
  split
  · next d' sz hc =>
    dsimp only
    split
    · refine h.setWindow hx id fun _ hpos => ?_
      rwa [Window.owes_read hc rfl]
    · refine h.setWindow hx id fun _ hpos => ?_
      rwa [Window.owes_unread hc]
  · exact h

theorem owed_skip (h : s.Owed d) (hx : s.windows w = some x) : (s.skip w x).Owed d := by
  unfold State.skip
  split
  · next hc =>
    exact h.answer hx rfl (Window.owes_skip hc)
  · exact h

theorem owed_shown (h : s.Owed d) (hx : s.windows w = some x) (i : Nat) : (s.shown w i x).Owed d := by
  unfold State.shown
  split
  · next hr =>
    exact h.answer hx rfl (Window.owes_shown hr)
  · exact h

theorem owed_step (h : s.Owed d) (e : Event) : (s.step e).Owed d := by
  cases e with
  | decode d' picture =>
    simp only [step]
    split
    · exact owed_onRgbaSoftRender h picture
    · exact h
  | count d' =>
    simp only [step]
    split
    · exact owed_setPhase h Phase.noConfusion
    · exact h
  | send d' =>
    simp only [step]
    split
    · exact owed_send h _
    · exact h
  | reset d' =>
    simp only [step]
    split
    · by_cases hd : d = d'
      · subst hd
        exact .of_down h.bound (by rw [nextRgba_self])
      · refine h.frame rfl rfl (fun hidle hvalid => ⟨by simpa [hd] using hidle, ?_⟩) rfl
        rwa [nextRgba_of_ne _ hd] at hvalid
    · exact h
  | insert displays => exact owed_insert h displays
  | start w => exact h.withWindow fun x hx => h.setWindow hx id fun _ => id
  | switch w displays => exact h.withWindow fun x hx => owed_switch h hx displays
  | setSize w d' =>
    refine h.withWindow fun x hx => ?_
    split
    · exact h
    · exact h.setWindow hx id fun _ => id
  | nextRgba i =>
    simp only [step]
    split
    · next d' hd' =>
      exact (show (s.nextRgba d').Owed d from h.nextRgba).frame rfl rfl (fun hidle hvalid => ⟨hidle, hvalid⟩) rfl
    · exact h
  | listen w => exact h.withWindow fun x hx => owed_listen h hx
  | getRgba w => exact h.withWindow fun x hx => owed_getRgba h hx
  | skip w => exact h.withWindow fun x hx => owed_skip h hx
  | shown w i => exact h.withWindow fun x hx => owed_shown h hx i
  | close w =>
    exact h.withWindow fun x hx => h.setWindow hx (fun hc => absurd hc Bool.noConfusion)
      fun hc => absurd hc Bool.noConfusion
  | remove w =>
    refine h.mono (Nat.le_refl _) rfl (fun hidle hvalid => ⟨hidle, hvalid⟩) fun v _ x' hx' hclosed => ?_
    simp only [step, Function.update_apply] at hx'
    split at hx'
    · cases hx'
    · exact ⟨x', hx', hclosed, id⟩

/-! ### A window answers on its own -/

theorem step_listen {queue : List Nat} (hx : s.windows w = some x) (hq : x.queue = d' :: queue)
    (hc : x.callback = none) (hopen : x.closed = false) : ∃ c : Callback, c.display = d' ∧
      s.step (.listen w) = s.setWindow w { x with queue := queue, callback := some c } := by
  refine ⟨if (s.rgbas d').data.length = 0 then .skip d' else .sized d' (s.rgbas d').data.length,
    by split <;> rfl, ?_⟩
  simp only [step, withWindow, hx, Option.elim, listen, hq, hc, hopen, Bool.false_eq_true, if_false]

theorem step_getRgba {sz : Nat} (hx : s.windows w = some x) (hc : x.callback = some (.sized d' sz)) :
    (∃ r : Reading, r.display = d' ∧
      s.step (.getRgba w) = s.setWindow w { x with callback := none, reading := r :: x.reading }) ∨
    s.step (.getRgba w) = s.setWindow w { x with callback := some (.skip d') } := by
  simp only [step, withWindow, hx, Option.elim, getRgba, hc]
  split
  · exact .inl ⟨_, rfl, rfl⟩
  · exact .inr rfl

theorem step_skip (hx : s.windows w = some x) (hc : x.callback = some (.skip d')) :
    s.step (.skip w) = (s.setWindow w { x with callback := none }).nextRgba d' := by
  simp only [step, withWindow, hx, Option.elim, skip, hc]

theorem step_shown {i : Nat} {r : Reading} (hx : s.windows w = some x) (hr : x.reading[i]? = some r) :
    s.step (.shown w i) =
      (s.setWindow w { x with reading := x.reading.eraseIdx i }).nextRgba r.display := by
  simp only [step, withWindow, hx, Option.elim, shown, hr]

def AnswersAlone (s : State) (w d : Nat) : Prop :=
  ∃ es, (∀ e ∈ es, Event.By w e) ∧ ((run step s es).rgbas d).valid = false

theorem AnswersAlone.cons {e : Event} (he : e.By w) (h : (s.step e).AnswersAlone w d) :
    s.AnswersAlone w d := by
  obtain ⟨es, hes, hdown⟩ := h
  exact ⟨e :: es, List.forall_mem_cons.mpr ⟨he, hes⟩, hdown⟩

theorem AnswersAlone.of_down (h : (s.rgbas d).valid = false) : s.AnswersAlone w d :=
  ⟨[], fun _ he => absurd he List.not_mem_nil, h⟩

/-- The events are listened to in their order, and each step leaves less to do. -/
theorem answersAlone (hx : s.windows w = some x) (hopen : x.closed = false) (howes : 0 < x.owes d) :
    s.AnswersAlone w d := by
  induction hn : Window.left x using Nat.strongRecOn generalizing s x with
  | _ n ih =>
    subst hn
    have again : ∀ (s' : State) (x' : Window), s'.windows w = some x' → x'.closed = x.closed →
        x'.owes d = x.owes d → Window.left x' < Window.left x → s'.AnswersAlone w d :=
      fun s' x' hx' hc ho hleft => ih _ hleft hx' (hc.trans hopen) (ho ▸ howes) rfl
    have hself : ∀ x', (s.setWindow w x').windows w = some x' := fun x' => Function.update_self ..
    match hc : x.callback with
    | some (.sized d' sz) =>
      rcases step_getRgba hx hc with ⟨r, hr, hstep⟩ | hstep
      · refine .cons (e := .getRgba w) rfl (hstep ▸ again _ _ (hself _) rfl (Window.owes_read hc hr) ?_)
        simp [Window.left, hc]
      · refine .cons (e := .getRgba w) rfl (hstep ▸ again _ _ (hself _) rfl (Window.owes_unread hc) ?_)
        simp [Window.left, hc]
    | some (.skip d') =>
      refine .cons (e := .skip w) rfl ?_
      rw [step_skip hx hc]
      by_cases hd : d' = d
      · subst hd
        exact .of_down (by rw [nextRgba_self])
      · have ho := Window.owes_skip (d := d) hc
        rw [if_neg (show (Callback.skip d').display ≠ d from hd), Nat.add_zero] at ho
        exact again _ _ (hself _) rfl ho (by simp [Window.left, hc])
    | none =>
      rcases Window.owes_pos_iff.mp howes with hq | ⟨c, hc', -⟩ | ⟨r, hr, hd⟩
      · obtain ⟨d', queue, hq⟩ := List.exists_cons_of_ne_nil (List.ne_nil_of_mem hq)
        obtain ⟨c, hcd, hstep⟩ := step_listen hx hq hc hopen
        refine .cons (e := .listen w) rfl
          (hstep ▸ again _ _ (hself _) rfl (Window.owes_listen hq hc hcd) ?_)
        cases c <;> simp [Window.left, hc, hq] <;> omega
      · rw [hc] at hc'
        cases hc'
      · obtain ⟨i, hi, rfl⟩ := List.getElem_of_mem hr
        refine .cons (e := .shown w i) rfl ?_
        rw [step_shown hx (List.getElem?_eq_getElem hi), hd]
        exact .of_down (by rw [nextRgba_self])

end State

/-- A flag that is up has been announced, and each window it was announced to that is still open owes its
answer and needs nobody else for it: a display only freezes when all of them are closed. -/
theorem flag_answered (es : List Event) : Throughout State.step (fun s => ∀ d, s.Answered d) {} es := by
  have howed : Throughout State.step (fun s => ∀ d, s.Owed d) {} es :=
    History.throughout_of_step (fun s e h d => State.owed_step (h d) e) (fun d => State.owed_init) es
  refine History.throughout_imp (fun s h d hidle hvalid => ?_) howed
  obtain ⟨hne, howes⟩ := (h d).owed hidle hvalid
  exact ⟨hne, fun w hw x hx hopen =>
    ⟨howes w hw x hx hopen, State.answersAlone hx hopen (howes w hw x hx hopen)⟩⟩

/-! ### The pictures are whole -/

namespace State

/-- No picture of the display is with a window or on its way to one. -/
def quiet (s : State) (d : Nat) : Bool :=
  s.phases d = .idle && (List.range s.next).all fun w => (s.windows w).all fun x => x.owes d = 0

/-- Each picture is for one window, and opening a window or switching its display does not call `next_rgba`
while a picture of that display is out. -/
def Alone (d : Nat) (s : State) : Event → Prop
  | .nextRgba i => s.resets[i]? = some d → s.quiet d = true
  | .send d' => ∀ isMultiSessions, d' = d → s.phases d = .counted isMultiSessions →
      (s.told isMultiSessions d).length ≤ 1
  | _ => True

instance decidableAlone (d : Nat) (s : State) : ∀ e, Decidable (Alone d s e)
  | .nextRgba i => inferInstanceAs (Decidable (s.resets[i]? = some d → s.quiet d = true))
  | .send d' => inferInstanceAs (Decidable (∀ isMultiSessions, d' = d →
      s.phases d = .counted isMultiSessions → (s.told isMultiSessions d).length ≤ 1))
  | .decode .. | .count _ | .reset _ | .insert _ | .start _ | .switch .. | .setSize .. | .listen _
  | .getRgba _ | .skip _ | .shown .. | .close _ | .remove _ => .isTrue trivial

/-- What a window reads is a picture that was decoded for the display, all of it and nothing else. -/
def Shows (s : State) (d : Nat) : Prop :=
  ∀ w x, s.windows w = some x → ∀ r ∈ x.reading, r.display = d →
    (d, r.picture) ∈ s.pictures ∧ (s.rgbas d).mem r.buffer = r.picture ∧ r.sz = r.picture.length

end State

/-- What a window has of a display is what the table has. -/
structure Window.Fits (x : Window) (d : Nat) (r : RgbaData) : Prop where
  once : x.owes d ≤ 1
  sized : ∀ sz, x.callback = some (.sized d sz) → sz = r.data.length
  reading : ∀ q ∈ x.reading, q.display = d → q.buffer = r.front ∧ q.picture = r.data ∧ q.sz = r.data.length

namespace Window.Fits

variable {x : Window} {d d' : Nat} {r r' : RgbaData}

theorem of_zero (h : x.owes d = 0) : x.Fits d r := by
  have hnone := mt Window.owes_pos_iff.mpr (Nat.not_lt.mpr (Nat.le_of_eq h))
  refine ⟨Nat.le_trans (Nat.le_of_eq h) (Nat.zero_le 1), fun sz hc => ?_, fun q hq hd => ?_⟩
  · exact absurd (.inr (.inl ⟨_, hc, rfl⟩)) hnone
  · exact absurd (.inr (.inr ⟨q, hq, hd⟩)) hnone

theorem congr (h : x.Fits d r) (hfront : r'.front = r.front) (hdata : r'.data = r.data) : x.Fits d r' :=
  ⟨h.once, fun sz hc => hdata ▸ h.sized sz hc, fun q hq hd => by
    rw [hfront, hdata]
    exact h.reading q hq hd⟩

theorem queue (h : x.Fits d r) {queue : List Nat} (ho : ({ x with queue := queue } : Window).owes d ≤ 1) :
    ({ x with queue := queue } : Window).Fits d r :=
  ⟨ho, h.sized, h.reading⟩

theorem listen (h : x.Fits d r) {queue : List Nat} {c : Callback} (hq : x.queue = d' :: queue)
    (hc : x.callback = none) (hd : c.display = d') (hsized : ∀ sz, c = .sized d sz → sz = r.data.length) :
    ({ x with queue := queue, callback := some c } : Window).Fits d r :=
  ⟨Nat.le_trans (Nat.le_of_eq (Window.owes_listen hq hc hd)) h.once,
    fun sz hsz => hsized sz (Option.some.inj hsz), h.reading⟩

theorem read {q : Reading} {c : Callback} (h : x.Fits d r) (hc : x.callback = some c)
    (hd : q.display = c.display)
    (hq : q.display = d → q.buffer = r.front ∧ q.picture = r.data ∧ q.sz = r.data.length) :
    ({ x with callback := none, reading := q :: x.reading } : Window).Fits d r :=
  ⟨Nat.le_trans (Nat.le_of_eq (Window.owes_read hc hd)) h.once, fun _ hsz => (nomatch hsz),
    List.forall_mem_cons.mpr ⟨hq, h.reading⟩⟩

theorem unread {sz : Nat} (h : x.Fits d r) (hc : x.callback = some (.sized d' sz)) :
    ({ x with callback := some (.skip d') } : Window).Fits d r :=
  ⟨Nat.le_trans (Nat.le_of_eq (Window.owes_unread hc)) h.once, fun _ hsz => (nomatch hsz), h.reading⟩

theorem skip (h : x.Fits d r) {c : Callback} (hc : x.callback = some c) :
    ({ x with callback := none } : Window).Fits d r :=
  ⟨Nat.le_trans (Nat.le_of_add_right_le (Nat.le_of_eq (Window.owes_skip hc))) h.once,
    fun _ hsz => (nomatch hsz), h.reading⟩

theorem shown (h : x.Fits d r) {i : Nat} {q : Reading} (hq : x.reading[i]? = some q) :
    ({ x with reading := x.reading.eraseIdx i } : Window).Fits d r :=
  ⟨Nat.le_trans (Nat.le_of_add_right_le (Nat.le_of_eq (Window.owes_shown hq))) h.once, h.sized,
    fun p hp => h.reading p (List.mem_of_mem_eraseIdx hp)⟩

end Window.Fits

namespace State

variable {s s' : State} {w d d' : Nat} {x x' : Window}

/-- At most one window has to do with a picture of the display, and then the flag is up and the buffer is left
alone. -/
structure Whole (s : State) (d : Nat) : Prop where
  bound : ∀ w x, s.windows w = some x → w < s.next
  busy : s.phases d ≠ .idle → (s.rgbas d).valid = true
  made : (s.rgbas d).valid = true → (d, (s.rgbas d).data) ∈ s.pictures
  fits : ∀ w x, s.windows w = some x → x.Fits d (s.rgbas d)
  out : ∀ w x, s.windows w = some x → 0 < x.owes d → s.phases d = .idle ∧ (s.rgbas d).valid = true
  one : ∀ w x v y, s.windows w = some x → s.windows v = some y → 0 < x.owes d → 0 < y.owes d → v = w

theorem whole_init : ({} : State).Whole d where
  bound _ _ h := by cases h
  busy h := absurd rfl h
  made h := by cases h
  fits _ _ h := by cases h
  out _ _ h := by cases h
  one _ _ _ _ h := by cases h

theorem Whole.shows (h : s.Whole d) : s.Shows d := by
  intro w x hx r hr hd
  obtain ⟨hbuffer, hpicture, hsz⟩ := (h.fits w x hx).reading r hr hd
  have howes : 0 < x.owes d := Window.owes_pos_iff.mpr (.inr (.inr ⟨r, hr, hd⟩))
  refine ⟨hpicture ▸ h.made (h.out w x hx howes).2, ?_, hpicture ▸ hsz⟩
  rw [hbuffer, hpicture, RgbaData.data]

theorem Whole.frame (h : s.Whole d) (hnext : s'.next = s.next) (hwindows : s'.windows = s.windows)
    (hphase : s'.phases d = s.phases d) (hrgba : s'.rgbas d = s.rgbas d)
    (hpictures : ∀ p ∈ s.pictures, p ∈ s'.pictures) : s'.Whole d where
  bound w x hx := hnext ▸ h.bound w x (hwindows ▸ hx)
  busy := by rw [hphase, hrgba]; exact h.busy
  made := by rw [hrgba]; exact fun hv => hpictures _ (h.made hv)
  fits w x hx := by rw [hrgba]; exact h.fits w x (hwindows ▸ hx)
  out w x hx := by rw [hphase, hrgba]; exact h.out w x (hwindows ▸ hx)
  one w x v y hx hy := h.one w x v y (hwindows ▸ hx) (hwindows ▸ hy)

/-- Every window is one that owes no more than before. -/
theorem Whole.windows (h : s.Whole d) (hnext : s'.next = s.next) (hphase : s'.phases d = s.phases d)
    (hrgba : s'.rgbas d = s.rgbas d) (hpictures : s'.pictures = s.pictures)
    (hwindows : ∀ w x', s'.windows w = some x' →
      x'.Fits d (s.rgbas d) ∧ ∃ x, s.windows w = some x ∧ x'.owes d ≤ x.owes d) : s'.Whole d where
  bound w x' hx' := by
    obtain ⟨-, x, hx, -⟩ := hwindows w x' hx'
    exact hnext ▸ h.bound w x hx
  busy := by rw [hphase, hrgba]; exact h.busy
  made := by rw [hrgba, hpictures]; exact h.made
  fits w x' hx' := by rw [hrgba]; exact (hwindows w x' hx').1
  out w x' hx' hpos := by
    obtain ⟨-, x, hx, hle⟩ := hwindows w x' hx'
    rw [hphase, hrgba]
    exact h.out w x hx (Nat.lt_of_lt_of_le hpos hle)
  one w x' v y' hx' hy' hpos hpos' := by
    obtain ⟨-, x, hx, hle⟩ := hwindows w x' hx'
    obtain ⟨-, y, hy, hle'⟩ := hwindows v y' hy'
    exact h.one w x v y hx hy (Nat.lt_of_lt_of_le hpos hle) (Nat.lt_of_lt_of_le hpos' hle')

theorem Whole.setWindow (h : s.Whole d) (hx : s.windows w = some x) (hfits : x'.Fits d (s.rgbas d))
    (howes : x'.owes d ≤ x.owes d) : (s.setWindow w x').Whole d := by
  refine h.windows rfl rfl rfl rfl fun v y hy => ?_
  rw [setWindow_windows, Function.update_apply] at hy
  by_cases hv : v = w
  · rw [if_pos hv] at hy
    cases hy
    exact ⟨hfits, x, hv ▸ hx, howes⟩
  · rw [if_neg hv] at hy
    exact ⟨h.fits v y hy, y, hy, Nat.le_refl _⟩

/-- The flag may change when nobody has to do with a picture of the display. -/
theorem Whole.of_zero (hbound : ∀ w x, s.windows w = some x → w < s.next)
    (hbusy : s.phases d ≠ .idle → (s.rgbas d).valid = true)
    (hmade : (s.rgbas d).valid = true → (d, (s.rgbas d).data) ∈ s.pictures)
    (hzero : ∀ w x, s.windows w = some x → x.owes d = 0) : s.Whole d where
  bound := hbound
  busy := hbusy
  made := hmade
  fits w x hx := .of_zero (hzero w x hx)
  out w x hx hpos := absurd (hzero w x hx) (Nat.ne_of_gt hpos)
  one w x _ _ hx _ hpos := absurd (hzero w x hx) (Nat.ne_of_gt hpos)

theorem Whole.zero_of_busy (h : s.Whole d) (hbusy : s.phases d ≠ .idle) (hx : s.windows w = some x) :
    x.owes d = 0 :=
  Nat.eq_zero_of_not_pos fun hpos => hbusy (h.out w x hx hpos).1

theorem Whole.zero_of_down (h : s.Whole d) (hdown : ¬(s.rgbas d).valid = true)
    (hx : s.windows w = some x) : x.owes d = 0 :=
  Nat.eq_zero_of_not_pos fun hpos => hdown (h.out w x hx hpos).2

theorem Whole.nextRgba (h : s.Whole d) (hidle : d' = d → s.phases d = .idle)
    (hzero : d' = d → ∀ w x, s.windows w = some x → x.owes d = 0) : (s.nextRgba d').Whole d := by
  by_cases hd : d' = d
  · subst hd
    refine .of_zero h.bound (fun hbusy => absurd (hidle rfl) hbusy) (fun hv => ?_) (hzero rfl)
    rw [nextRgba_self] at hv
    cases hv
  · exact h.frame rfl rfl rfl (nextRgba_of_ne s (Ne.symm hd)) fun _ => id

/-- The window that answers is the only one that owes, and owes nothing else. -/
theorem Whole.answer (h : s.Whole d) (hx : s.windows w = some x) (hfits : x'.Fits d (s.rgbas d))
    (howes : x'.owes d + (if d' = d then 1 else 0) = x.owes d) :
    ((s.setWindow w x').nextRgba d').Whole d := by
  have hle : x'.owes d ≤ x.owes d := Nat.le_of_add_right_le (Nat.le_of_eq howes)
  refine (h.setWindow hx hfits hle).nextRgba (fun hd => ?_) fun hd v y hy => ?_
  · rw [if_pos hd] at howes
    exact (h.out w x hx (howes ▸ Nat.succ_pos _)).1
  · rw [if_pos hd] at howes
    have hpos : 0 < x.owes d := howes ▸ Nat.succ_pos _
    rw [setWindow_windows, Function.update_apply] at hy
    by_cases hv : v = w
    · rw [if_pos hv] at hy
      cases hy
      have honce := (h.fits w x hx).once
      omega
    · rw [if_neg hv] at hy
      exact Nat.eq_zero_of_not_pos fun hpos' => hv (h.one w x v y hx hy hpos hpos')

theorem Whole.withWindow {f : Window → State} (h : s.Whole d)
    (hf : ∀ x, s.windows w = some x → (f x).Whole d) : (s.withWindow w f).Whole d :=
  withWindow_of (P := (Whole · d)) h hf

/-- Nobody has to do with a picture of a display that is not announced yet. -/
theorem whole_setPhase {p : Phase} (h : s.Whole d) (hbusy : s.phases d' ≠ .idle) :
    (s.setPhase d' p).Whole d := by
  by_cases hd : d' = d
  · subst hd
    exact .of_zero h.bound (fun _ => h.busy hbusy) h.made fun w x hx => h.zero_of_busy hbusy hx
  · exact h.frame rfl rfl (Function.update_of_ne (Ne.symm hd) ..) rfl fun _ => id

theorem whole_announce {told : List Nat} (h : s.Whole d) (hbusy : s.phases d' ≠ .idle)
    (hlength : d' = d → told.length ≤ 1) : (s.announce d' told).Whole d := by
  by_cases hd : d' = d
  · subst hd
    have hzero : ∀ w x, s.windows w = some x → x.owes d' = 0 := fun w x hx => h.zero_of_busy hbusy hx
    have howes : ∀ w x', (s.announce d' told).windows w = some x' →
        w < s.next ∧ x'.owes d' = if w ∈ told then 1 else 0 := by
      intro w x' hx'
      obtain ⟨x, hx, rfl⟩ := announce_windows s w d' hx'
      refine ⟨h.bound w x hx, ?_⟩
      by_cases hw : w ∈ told
      · rw [if_pos hw, if_pos hw, Window.owes_send, hzero w x hx, if_pos rfl]
      · rw [if_neg hw, if_neg hw, hzero w x hx]
    have hmem : ∀ w x', (s.announce d' told).windows w = some x' → 0 < x'.owes d' → w ∈ told := by
      intro w x' hx' hpos
      by_contra hw
      rw [(howes w x' hx').2, if_neg hw] at hpos
      exact Nat.lt_irrefl 0 hpos
    refine ⟨fun w x' hx' => (howes w x' hx').1, fun _ => h.busy hbusy, h.made, fun w x' hx' => ?_,
      fun w x' hx' _ => ⟨Function.update_self .., h.busy hbusy⟩, fun w x' v y' hx' hy' hpos hpos' => ?_⟩
    · obtain ⟨x, hx, rfl⟩ := announce_windows s w d' hx'
      have hone := (howes w _ hx').2
      by_cases hw : w ∈ told
      · rw [if_pos hw] at hone ⊢
        exact (h.fits w x hx).queue (Nat.le_of_eq (hone.trans (if_pos hw)))
      · rw [if_neg hw]
        exact h.fits w x hx
    · have hw := hmem w x' hx' hpos
      have hv := hmem v y' hy' hpos'
      match told, hlength rfl with
      | [u], _ => rw [List.mem_singleton.mp hw, List.mem_singleton.mp hv]
  · refine h.windows rfl (s.announce_of_ne (Ne.symm hd) told).2 rfl rfl fun w x' hx' => ?_
    obtain ⟨x, hx, rfl⟩ := announce_windows s w d' hx'
    by_cases hw : w ∈ told
    · have ho : ({ x with queue := x.queue ++ [d'] } : Window).owes d = x.owes d := by
        rw [Window.owes_send, if_neg hd, Nat.add_zero]
      rw [if_pos hw]
      exact ⟨(h.fits w x hx).queue (ho ▸ (h.fits w x hx).once), x, hx, Nat.le_of_eq ho⟩
    · rw [if_neg hw]
      exact ⟨h.fits w x hx, x, hx, Nat.le_refl _⟩

theorem whole_insert (h : s.Whole d) (displays : List Nat) : (s.insert displays).Whole d := by
  rcases s.insert_eq displays with heq | ⟨resets, heq⟩
  · rwa [heq]
  rw [heq]
  have hcases : ∀ w x', Function.update s.windows s.next (some { displays := displays }) w = some x' →
      w < s.next + 1 ∧ (x'.owes d = 0 ∨ s.windows w = some x') := by
    intro w x' hx'
    rw [Function.update_apply] at hx'
    by_cases hw : w = s.next
    · rw [if_pos hw] at hx'
      cases hx'
      exact ⟨hw ▸ Nat.lt_succ_self _, .inl rfl⟩
    · rw [if_neg hw] at hx'
      exact ⟨Nat.lt_succ_of_lt (h.bound w x' hx'), .inr hx'⟩
  have hold : ∀ w x', Function.update s.windows s.next (some { displays := displays }) w = some x' →
      0 < x'.owes d → s.windows w = some x' := fun w x' hx' hpos =>
    (hcases w x' hx').2.resolve_left (Nat.ne_of_gt hpos)
  refine ⟨fun w x' hx' => (hcases w x' hx').1, h.busy, h.made, fun w x' hx' => ?_,
    fun w x' hx' hpos => h.out w x' (hold w x' hx' hpos) hpos,
    fun w x' v y' hx' hy' hpos hpos' =>
      h.one w x' v y' (hold w x' hx' hpos) (hold v y' hy' hpos') hpos hpos'⟩
  rcases (hcases w x' hx').2 with hzero | hx
  · exact .of_zero hzero
  · exact h.fits w x' hx

theorem Whole.same (h : s.Whole d) (hx : s.windows w = some x) (hqueue : x'.queue = x.queue)
    (hcallback : x'.callback = x.callback) (hreading : x'.reading = x.reading) :
    (s.setWindow w x').Whole d := by
  have howes : x'.owes d = x.owes d := by rw [Window.owes, hqueue, hcallback, hreading, Window.owes]
  obtain ⟨honce, hsized, hread⟩ := h.fits w x hx
  exact h.setWindow hx ⟨howes ▸ honce, hcallback ▸ hsized, hreading ▸ hread⟩ (Nat.le_of_eq howes)

theorem whole_switch (h : s.Whole d) (hx : s.windows w = some x) (displays : List Nat) :
    (s.switch w x displays).Whole d := by
  obtain ⟨resets, heq⟩ := s.switch_eq w x displays
  have hnew : (s.setWindow w { x with displays := displays }).Whole d := h.same hx rfl rfl rfl
  rw [heq]
  exact hnew.frame rfl rfl rfl rfl fun _ => id

/-- While the flag is up the decoder writes the other buffer; when it is down no window has the one it gives. -/
theorem whole_onRgbaSoftRender (h : s.Whole d) (hidle : s.phases d' = .idle) (picture : Bytes) :
    (s.onRgbaSoftRender d' picture).Whole d := by
  have hne : (s.rgbas d').front ≠ !(s.rgbas d').front := by cases (s.rgbas d').front <;> decide
  unfold onRgbaSoftRender
  dsimp only
  by_cases hd : d' = d
  · subst hd
    split
    · next hv =>
      have hdata : (Function.update (s.rgbas d').mem (!(s.rgbas d').front) picture) (s.rgbas d').front =
          (s.rgbas d').data := Function.update_of_ne hne ..
      refine ⟨h.bound, fun hbusy => absurd hidle hbusy, fun _ => ?_, fun w x hx => ?_,
        fun w x hx hpos => ?_, h.one⟩
      · simp only [setRgba_rgbas, Function.update_self, setRgba_pictures, RgbaData.data] at hdata ⊢
        rw [hdata]
        exact List.mem_cons_of_mem _ (h.made hv)
      · simp only [setRgba_rgbas, Function.update_self]
        exact (h.fits w x hx).congr rfl hdata
      · simp only [setRgba_rgbas, Function.update_self]
        exact ⟨hidle, hv⟩
    · next hv =>
      refine .of_zero h.bound (fun _ => ?_) (fun _ => ?_) fun w x hx => h.zero_of_down hv hx
      · simp only [setPhase_rgbas, setRgba_rgbas, Function.update_self]
      · simp only [setPhase_rgbas, setRgba_rgbas, Function.update_self, setPhase_pictures,
          setRgba_pictures, RgbaData.data]
        exact List.mem_cons_self
  · have hrgba : ∀ r, Function.update s.rgbas d' r d = s.rgbas d := fun r =>
      Function.update_of_ne (Ne.symm hd) ..
    split
    · exact h.frame rfl rfl rfl (hrgba _) fun _ hp => List.mem_cons_of_mem _ hp
    · exact h.frame rfl rfl (Function.update_of_ne (Ne.symm hd) ..) (hrgba _) fun _ hp =>
        List.mem_cons_of_mem _ hp

theorem whole_listen (h : s.Whole d) (hx : s.windows w = some x) : (s.listen w x).Whole d := by
  unfold State.listen
  split
  · next d' queue hq hc =>
    dsimp only
    split
    · have hle : ({ x with queue := queue } : Window).owes d ≤ x.owes d := by
        have hcount := List.count_le_count_cons (a := d) (b := d') (l := queue)
        simp only [Window.owes, hq]
        omega
      exact h.setWindow hx ((h.fits w x hx).queue (Nat.le_trans hle (h.fits w x hx).once)) hle
    · have hcd : (if (s.rgbas d').data.length = 0 then Callback.skip d'
          else .sized d' (s.rgbas d').data.length).display = d' := by split <;> rfl
      refine h.setWindow hx ((h.fits w x hx).listen hq hc hcd fun sz hsz => ?_)
        (Nat.le_of_eq (Window.owes_listen hq hc hcd))
      split at hsz
      · cases hsz
      · cases hsz
        rfl
  · exact h

theorem whole_getRgba (h : s.Whole d) (hx : s.windows w = some x) : (s.getRgba w x).Whole d := by
  unfold State.getRgba
  split
  · next d' sz hc =>
    dsimp only
    split
    · refine h.setWindow hx ((h.fits w x hx).read hc rfl fun hd => ?_)
        (Nat.le_of_eq (Window.owes_read hc rfl))
      subst hd
      exact ⟨rfl, rfl, (h.fits w x hx).sized sz hc⟩
    · exact h.setWindow hx ((h.fits w x hx).unread hc) (Nat.le_of_eq (Window.owes_unread hc))
  · exact h

theorem whole_skip (h : s.Whole d) (hx : s.windows w = some x) : (s.skip w x).Whole d := by
  unfold State.skip
  split
  · next hc =>
    exact h.answer hx ((h.fits w x hx).skip hc) (Window.owes_skip hc)
  · exact h

theorem whole_shown (h : s.Whole d) (hx : s.windows w = some x) (i : Nat) : (s.shown w i x).Whole d := by
  unfold State.shown
  split
  · next hr =>
    exact h.answer hx ((h.fits w x hx).shown hr) (Window.owes_shown hr)
  · exact h

theorem Whole.zero_of_quiet (h : s.Whole d) (hquiet : s.quiet d = true) :
    s.phases d = .idle ∧ ∀ w x, s.windows w = some x → x.owes d = 0 := by
  simp only [quiet, Bool.and_eq_true, decide_eq_true_eq, List.all_eq_true, List.mem_range] at hquiet
  refine ⟨hquiet.1, fun w x hx => ?_⟩
  have hzero := hquiet.2 w (h.bound w x hx)
  rw [hx] at hzero
  exact of_decide_eq_true hzero

theorem whole_step (h : s.Whole d) {e : Event} (he : s.Alone d e) : (s.step e).Whole d := by
  cases e with
  | decode d' picture =>
    simp only [step]
    split
    · next hidle =>
      exact whole_onRgbaSoftRender h hidle picture
    · exact h
  | count d' =>
    simp only [step]
    split
    · next hphase =>
      exact whole_setPhase h (by rw [hphase]; exact Phase.noConfusion)
    · exact h
  | send d' =>
    simp only [step]
    split
    · next multi hphase =>
      have hbusy : s.phases d' ≠ .idle := by rw [hphase]; exact Phase.noConfusion
      unfold send
      split
      · exact whole_setPhase h hbusy
      · exact whole_announce h hbusy fun hd => hd ▸ he multi hd (hd ▸ hphase)
    · exact h
  | reset d' =>
    simp only [step]
    split
    · next hphase =>
      have hbusy : s.phases d' ≠ .idle := by rw [hphase]; exact Phase.noConfusion
      refine (whole_setPhase h hbusy).nextRgba (fun hd => ?_) fun hd w x hx => ?_
      · rw [hd]
        exact Function.update_self ..
      · exact h.zero_of_busy (hd ▸ hbusy) hx
    · exact h
  | insert displays => exact whole_insert h displays
  | start w => exact h.withWindow fun x hx => h.same hx rfl rfl rfl
  | switch w displays => exact h.withWindow fun x hx => whole_switch h hx displays
  | setSize w d' =>
    refine h.withWindow fun x hx => ?_
    split
    · exact h
    · exact h.same hx rfl rfl rfl
  | nextRgba i =>
    simp only [step]
    split
    · next d' hd' =>
      have hnext : (s.nextRgba d').Whole d :=
        h.nextRgba (fun hd => (h.zero_of_quiet (he (hd ▸ hd'))).1)
          fun hd => (h.zero_of_quiet (he (hd ▸ hd'))).2
      exact hnext.frame rfl rfl rfl rfl fun _ => id
    · exact h
  | listen w => exact h.withWindow fun x hx => whole_listen h hx
  | getRgba w => exact h.withWindow fun x hx => whole_getRgba h hx
  | skip w => exact h.withWindow fun x hx => whole_skip h hx
  | shown w i => exact h.withWindow fun x hx => whole_shown h hx i
  | close w => exact h.withWindow fun x hx => h.same hx rfl rfl rfl
  | remove w =>
    refine h.windows rfl rfl rfl rfl fun v x' hx' => ?_
    simp only [step, Function.update_apply] at hx'
    split at hx'
    · cases hx'
    · exact ⟨h.fits v x' hx', x', hx', Nat.le_refl _⟩

end State

/-- As long as each picture of a display is told to one window, and the flag is not brought down from outside
while a picture is out, what a window reads is whole, however long it takes and whatever is decoded. -/
theorem pictures_whole (d : Nat) (es : List Event) (h : Guarded State.step (State.Alone d) {} es) :
    Throughout State.step (fun s => s.Shows d) {} es := by
  have hwhole : Throughout State.step (fun s => s.Whole d) {} es :=
    History.throughout_of_guarded (fun _ _ hs he => State.whole_step hs he) State.whole_init h
  exact History.throughout_imp (fun _ hs => hs.shows) hwhole

/-- A second window opens for another display, and one picture is dropped while the first is on its way to the
screen. -/
def twoWindows : List Event :=
  [.insert [0], .nextRgba 0, .start 0, .insert [1], .nextRgba 0, .start 1, .decode 0 [1, 2], .count 0, .send 0,
   .listen 0, .getRgba 0, .decode 0 [3], .shown 0 0, .decode 0 [4], .count 0, .send 0]

theorem pictures_whole_dropped : Guarded State.step (State.Alone 0) {} twoWindows ∧
    Throughout State.step (fun s => s.Shows 0) {} twoWindows :=
  have h : Guarded State.step (State.Alone 0) {} twoWindows := by decide
  ⟨h, pictures_whole 0 twoWindows h⟩

end RustDesk.SoftRender
