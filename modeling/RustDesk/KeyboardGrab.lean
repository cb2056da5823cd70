import RustDesk.History
import Mathlib.Data.List.Perm.Basic
import Mathlib.Algebra.Group.Nat.Defs

/-!
# Who has the keyboard

Every session window is a thread of its own and tells `change_grab_status` when the pointer enters it
(`Run`) and leaves it (`Wait`). The state of the grab changes under one lock; `rdev` is called later
under another, by a thread that first looks who owns the grab by then. On Linux a `Wait` soon after the
last `Run` is put off: a thread sleeps and releases the grab if nothing has happened to it.

A step is what a thread does under one lock, or one call of `rdev`. `ops` are the threads that wait for
the lock of `rdev`, and `leaving` the keys whose release is still to be sent. Instants are in
nanoseconds.
-/

namespace RustDesk.KeyboardGrab

open History (run Throughout)

inductive GrabState
  | ready
  | run
  | wait
  | exit
  deriving DecidableEq, Repr

structure GrabOwnerState where
  owner : Option Nat := none
  lastGrab : Option Nat := none
  deferredPending : Bool := false
  deriving DecidableEq, Repr

def grabDebounceMs : Nat := 300

def nanosPerMilli : Nat := 1000000

def asMillis (nanos : Nat) : Nat := nanos / nanosPerMilli

/-- A thread that sleeps before it releases the grab. -/
structure Deferred where
  sessionId : Nat
  snapshot : Option Nat
  wakes : Nat
  deriving DecidableEq, Repr

/-- What a thread does under `GRAB_OP_LOCK`; the keys are those it releases afterwards. -/
inductive Op (κ : Type)
  | applyRunGrabIfOwner (sessionId : Nat) (disableFirst : Bool)
  | disableGrabIfReleased (toRelease : List κ)
  deriving DecidableEq, Repr

inductive RdevCall
  | disableGrab
  | enableGrab
  deriving DecidableEq, Repr

inductive Critical (κ : Type)
  | entered (op : Op κ)
  | acting (call : RdevCall) (calls : List RdevCall) (toRelease : List κ)
  deriving DecidableEq, Repr

/-- `grabbed` is whether the last call of `rdev` was `enable_grab`. -/
structure State (κ : Type) where
  gs : GrabOwnerState := {}
  keyboardHooked : Bool := false
  toRelease : List κ := []
  deferred : List Deferred := []
  ops : List (Op κ) := []
  critical : Option (Critical κ) := none
  grabbed : Bool := false
  leaving : List κ := []
  released : List κ := []
  deriving DecidableEq, Repr

/-- `rdevEnabled` is `IS_RDEV_ENABLED` at the call. -/
inductive Event (κ : Type)
  | changeGrabStatus (rdevEnabled : Bool) (state : GrabState) (sessionId now : Nat)
  | wake (i now : Nat)
  | enter (i : Nat)
  | look
  | act
  | sendRelease (i : Nat)
  | keyPress (key : κ)
  | keyRelease (key : κ)
  deriving DecidableEq, Repr

namespace State

variable {κ : Type} (s : State κ)

/-- The owner goes, and the keys that are down go with it. -/
def releaseGrab : State κ :=
  { s with
    keyboardHooked := false
    gs := ⟨none, none, false⟩
    toRelease := []
    ops := s.ops ++ [.disableGrabIfReleased s.toRelease] }

def runGrab (sessionId now : Nat) : State κ :=
  if s.gs.owner = some sessionId then
    { s with gs := { s.gs with lastGrab := some now, deferredPending := false } }
  else
    { s with
      keyboardHooked := true
      gs := ⟨some sessionId, some now, false⟩
      ops := s.ops ++ [.applyRunGrabIfOwner sessionId s.gs.owner.isSome] }

/-- The thread sleeps for what is left of the debounce time and 50 ms more. -/
def deferRelease (sessionId now elapsed : Nat) : State κ :=
  let remaining := grabDebounceMs - elapsed + 50
  { s with
    gs := { s.gs with deferredPending := true }
    deferred := s.deferred ++ [⟨sessionId, s.gs.lastGrab, now + remaining * nanosPerMilli⟩] }

def waitGrab (sessionId now : Nat) : State κ :=
  if s.gs.owner ≠ some sessionId then s
  else
    match s.gs.lastGrab with
    | some t =>
      let elapsed := asMillis (now - t)
      if elapsed < grabDebounceMs then
        if s.gs.deferredPending then s else s.deferRelease sessionId now elapsed
      else s.releaseGrab
    | none => s.releaseGrab

def changeGrabStatus (rdevEnabled : Bool) (state : GrabState) (sessionId now : Nat) : State κ :=
  if !rdevEnabled then s
  else
    match state with
    | .ready => s
    | .run => s.runGrab sessionId now
    | .wait => s.waitGrab sessionId now
    | .exit => s

/-- The `i`-th sleeping thread has slept. -/
def wake (i now : Nat) : State κ :=
  match s.deferred[i]? with
  | some d =>
    if now < d.wakes then s
    else
      let s' := { s with deferred := s.deferred.eraseIdx i }
      if s.gs.owner = some d.sessionId ∧ s.gs.lastGrab = d.snapshot then s'.releaseGrab else s'
  | none => s

def enter (i : Nat) : State κ :=
  match s.critical, s.ops[i]? with
  | none, some op => { s with critical := some (.entered op), ops := s.ops.eraseIdx i }
  | _, _ => s

def look : State κ :=
  match s.critical with
  | some (.entered (.applyRunGrabIfOwner sessionId disableFirst)) =>
    if s.gs.owner ≠ some sessionId then { s with critical := none }
    else if disableFirst then { s with critical := some (.acting .disableGrab [.enableGrab] []) }
    else { s with critical := some (.acting .enableGrab [] []) }
  | some (.entered (.disableGrabIfReleased toRelease)) =>
    if s.gs.owner = none ∧ s.gs.lastGrab = none then
      { s with critical := some (.acting .disableGrab [] toRelease) }
    else { s with critical := none, leaving := s.leaving ++ toRelease }
  | _ => s

def act : State κ :=
  match s.critical with
  | some (.acting call [] toRelease) =>
    { s with
      grabbed := decide (call = .enableGrab), critical := none, leaving := s.leaving ++ toRelease }
  | some (.acting call (call' :: calls) toRelease) =>
    { s with grabbed := decide (call = .enableGrab), critical := some (.acting call' calls toRelease) }
  | _ => s

/-- No thread is about to call `rdev`. -/
def Settled : Prop := s.ops = [] ∧ s.critical = none

instance : Decidable s.Settled := inferInstanceAs (Decidable (_ ∧ _))

end State

variable {κ : Type}

/-- The release is an event as any other, so that the key is taken off as well. -/
def State.sendRelease [DecidableEq κ] (s : State κ) (i : Nat) : State κ :=
  match s.leaving[i]? with
  | some key =>
    { s with
      leaving := s.leaving.eraseIdx i
      released := key :: s.released
      toRelease := s.toRelease.filter (· ≠ key) }
  | none => s

def State.step [DecidableEq κ] (s : State κ) : Event κ → State κ
  | .changeGrabStatus rdevEnabled state sessionId now =>
    s.changeGrabStatus rdevEnabled state sessionId now
  | .wake i now => s.wake i now
  | .enter i => s.enter i
  | .look => s.look
  | .act => s.act
  | .sendRelease i => s.sendRelease i
  | .keyPress key => { s with toRelease := if key ∈ s.toRelease then s.toRelease else key :: s.toRelease }
  | .keyRelease key => { s with toRelease := s.toRelease.filter (· ≠ key) }

variable {s : State κ}

/-! ### The keyboard follows the owner -/

/-- What the keyboard is when the thread inside the lock has made its calls. -/
def State.aim (s : State κ) : Bool :=
  match s.critical with
  | some (.acting call calls _) => decide (calls.getLastD call = .enableGrab)
  | _ => s.grabbed

/-- What has still to look at the owner. -/
def State.awaited (s : State κ) : List (Op κ) :=
  match s.critical with
  | some (.entered op) => op :: s.ops
  | _ => s.ops

/-- If the keyboard is not what the owner needs, an operation that will see to it is on its way. -/
structure State.Coming (s : State κ) : Prop where
  lastGrab : s.gs.owner = none ↔ s.gs.lastGrab = none
  hooked : s.keyboardHooked = s.gs.owner.isSome
  enabled : ∀ id, s.gs.owner = some id → s.aim = true ∨ ∃ d, .applyRunGrabIfOwner id d ∈ s.awaited
  disabled : s.gs.owner = none → s.aim = false ∨ ∃ keys, .disableGrabIfReleased keys ∈ s.awaited

theorem mem_awaited_append {op : Op κ} {s' : State κ} (hcritical : s'.critical = s.critical)
    (hops : s'.ops = s.ops ++ [op]) : op ∈ s'.awaited := by
  unfold State.awaited
  rw [hcritical, hops]
  split <;> simp

namespace State.Coming

theorem releaseGrab (s : State κ) : s.releaseGrab.Coming where
  lastGrab := by simp [State.releaseGrab]
  hooked := by simp [State.releaseGrab]
  enabled := fun id hid => by simp [State.releaseGrab] at hid
  disabled := fun _ => Or.inr ⟨s.toRelease, mem_awaited_append (s := s) rfl rfl⟩

theorem runGrab (h : s.Coming) (id now : Nat) : (s.runGrab id now).Coming := by
  unfold State.runGrab
  split_ifs with howner
  · refine ⟨by simp [howner], h.hooked, ?_, fun hno => ?_⟩
    · exact h.enabled
    · rw [howner] at hno
      cases hno
  · refine ⟨by simp, by simp, fun id' hid' => ?_, fun hno => by simp at hno⟩
    obtain rfl : id = id' := by simpa using hid'
    exact Or.inr ⟨_, mem_awaited_append (s := s) rfl rfl⟩

theorem waitGrab (h : s.Coming) (id now : Nat) : (s.waitGrab id now).Coming := by
  unfold State.waitGrab
  by_cases howner : s.gs.owner ≠ some id
  · rw [if_pos howner]
    exact h
  · rw [if_neg howner]
    split
    · dsimp only
      split_ifs
      · exact h
      · exact ⟨h.lastGrab, h.hooked, h.enabled, h.disabled⟩
      · exact releaseGrab s
    · exact releaseGrab s

theorem wake (h : s.Coming) (i now : Nat) : (s.wake i now).Coming := by
  unfold State.wake
  split
  · split_ifs
    · exact h
    · exact releaseGrab _
    · exact ⟨h.lastGrab, h.hooked, h.enabled, h.disabled⟩
  · exact h

theorem enter (h : s.Coming) (i : Nat) : (s.enter i).Coming := by
  unfold State.enter
  split
  · rename_i op hcritical hi
    have haim : State.aim { s with critical := some (.entered op), ops := s.ops.eraseIdx i } = s.aim := by
      simp [State.aim, hcritical]
    have hmem : ∀ op' ∈ s.awaited,
        op' ∈ State.awaited { s with critical := some (.entered op), ops := s.ops.eraseIdx i } := by
      intro op' hop'
      simp only [State.awaited, hcritical] at hop' ⊢
      obtain ⟨j, hj⟩ := List.getElem?_of_mem hop'
      by_cases hji : j = i
      · subst hji
        rw [hi] at hj
        exact List.mem_cons.mpr (Or.inl (Option.some.inj hj).symm)
      · exact List.mem_cons_of_mem _ (List.mem_eraseIdx_iff_getElem?.mpr ⟨j, hji, hj⟩)
    refine ⟨h.lastGrab, h.hooked, fun id hid => ?_, fun hno => ?_⟩
    · rw [haim]
      exact (h.enabled id hid).imp_right fun ⟨d, hd⟩ => ⟨d, hmem _ hd⟩
    · rw [haim]
      exact (h.disabled hno).imp_right fun ⟨keys, hkeys⟩ => ⟨keys, hmem _ hkeys⟩
  · exact h

theorem look (h : s.Coming) : s.look.Coming := by
  unfold State.look
  split
  · rename_i id disableFirst hcritical
    split_ifs with howner
    · -- the operation was of another owner: the one that is awaited is not this one
      refine ⟨h.lastGrab, h.hooked, fun id' hid' => ?_, fun hno => ?_⟩
      · refine (h.enabled id' hid').imp (fun haim => by simpa [State.aim, hcritical] using haim) ?_
        rintro ⟨d, hd⟩
        simp only [State.awaited, hcritical, List.mem_cons] at hd
        rcases hd with heq | hd
        · cases heq
          exact absurd hid' howner
        · exact ⟨d, hd⟩
      · refine (h.disabled hno).imp (fun haim => by simpa [State.aim, hcritical] using haim) ?_
        rintro ⟨keys, hkeys⟩
        simp only [State.awaited, hcritical, List.mem_cons] at hkeys
        rcases hkeys with heq | hkeys
        · cases heq
        · exact ⟨keys, hkeys⟩
    · rw [not_not] at howner
      exact ⟨h.lastGrab, h.hooked, fun _ _ => Or.inl (by simp [State.aim]),
        fun hno => by rw [show s.gs.owner = none from hno] at howner; cases howner⟩
    · rw [not_not] at howner
      exact ⟨h.lastGrab, h.hooked, fun _ _ => Or.inl (by simp [State.aim]),
        fun hno => by rw [show s.gs.owner = none from hno] at howner; cases howner⟩
  · rename_i toRelease hcritical
    split_ifs with howner
    · refine ⟨h.lastGrab, h.hooked, fun id hid => ?_, fun _ => Or.inl (by simp [State.aim])⟩
      rw [show s.gs.owner = some id from hid] at howner
      cases howner.1
    · refine ⟨h.lastGrab, h.hooked, fun id hid => ?_, fun hno => absurd ⟨hno, h.lastGrab.mp hno⟩ howner⟩
      refine (h.enabled id hid).imp (fun haim => by simpa [State.aim, hcritical] using haim) ?_
      rintro ⟨d, hd⟩
      simp only [State.awaited, hcritical, List.mem_cons] at hd
      rcases hd with heq | hd
      · cases heq
      · exact ⟨d, hd⟩
  · exact h

theorem act (h : s.Coming) : s.act.Coming := by
  unfold State.act
  split
  · rename_i call toRelease hcritical
    refine ⟨h.lastGrab, h.hooked, fun id hid => ?_, fun hno => ?_⟩
    · simpa [State.aim, State.awaited, hcritical] using h.enabled id hid
    · simpa [State.aim, State.awaited, hcritical] using h.disabled hno
  · rename_i call call' calls toRelease hcritical
    refine ⟨h.lastGrab, h.hooked, fun id hid => ?_, fun hno => ?_⟩
    · simpa [State.aim, State.awaited, hcritical, List.getLastD_cons, -List.getLastD_eq_getLast?]
        using h.enabled id hid
    · simpa [State.aim, State.awaited, hcritical, List.getLastD_cons, -List.getLastD_eq_getLast?]
        using h.disabled hno
  · exact h

theorem step [DecidableEq κ] (h : s.Coming) (e : Event κ) : (s.step e).Coming := by
  cases e with
  | changeGrabStatus rdevEnabled state sessionId now =>
    simp only [State.step, State.changeGrabStatus]
    by_cases henabled : (!rdevEnabled) = true
    · rw [if_pos henabled]
      exact h
    · rw [if_neg henabled]
      cases state with
      | ready => exact h
      | run => exact h.runGrab sessionId now
      | wait => exact h.waitGrab sessionId now
      | exit => exact h
  | wake i now => exact h.wake i now
  | enter i => exact h.enter i
  | look => exact h.look
  | act => exact h.act
  | sendRelease i =>
    simp only [State.step, State.sendRelease]
    split
    · exact ⟨h.lastGrab, h.hooked, h.enabled, h.disabled⟩
    · exact h
  | keyPress key => exact ⟨h.lastGrab, h.hooked, h.enabled, h.disabled⟩
  | keyRelease key => exact ⟨h.lastGrab, h.hooked, h.enabled, h.disabled⟩

theorem start : ({} : State κ).Coming where
  lastGrab := by simp
  hooked := rfl
  enabled := fun id hid => by cases hid
  disabled := fun _ => Or.inl rfl

theorem grabbed_eq (h : s.Coming) (hsettled : s.Settled) : s.grabbed = s.gs.owner.isSome := by
  have haim : s.aim = s.grabbed := by simp [State.aim, hsettled.2]
  have hawaited : s.awaited = [] := by simp [State.awaited, hsettled.1, hsettled.2]
  cases howner : s.gs.owner with
  | none =>
    rcases h.disabled howner with hno | ⟨keys, hkeys⟩
    · rw [← haim, hno]
      rfl
    · rw [hawaited] at hkeys
      cases hkeys
  | some id =>
    rcases h.enabled id howner with hyes | ⟨d, hd⟩
    · rw [← haim, hyes]
      rfl
    · rw [hawaited] at hd
      cases hd

end State.Coming

/-! ### What a step can do -/

/-- The instant of a call with `Run`. -/
def Event.grabs : Event κ → Option Nat
  | .changeGrabStatus true .run _ now => some now
  | _ => none

/-- The session leaves, or another one enters. -/
def Event.ousts (id : Nat) : Event κ → Bool
  | .changeGrabStatus true .run id' _ => id' ≠ id
  | .changeGrabStatus true .wait id' _ => id' = id
  | _ => false

def Op.toRelease : Op κ → List κ
  | .applyRunGrabIfOwner _ _ => []
  | .disableGrabIfReleased toRelease => toRelease

def Critical.toRelease : Critical κ → List κ
  | .entered op => op.toRelease
  | .acting _ _ toRelease => toRelease

/-- The keys that some thread has taken to release them, and those it has released. -/
def State.handed (s : State κ) : List κ :=
  s.ops.flatMap Op.toRelease ++ (s.critical.toList.flatMap Critical.toRelease ++ (s.leaving ++ s.released))

inductive State.Moves [DecidableEq κ] (s : State κ) : Event κ → State κ → Prop
  | other (e : Event κ) (s' : State κ) (hgs : s'.gs = s.gs) (hdeferred : s'.deferred = s.deferred)
      (hgrabs : e.grabs = none)
      (hwait : ∀ id now, e = .changeGrabStatus true .wait id now →
        s.gs.owner ≠ some id ∨ s.gs.deferredPending = true)
      (hkeys : ∀ key ∈ s.toRelease, e ≠ .keyRelease key → key ∈ s'.toRelease)
      (hhanded : s'.handed.Perm s.handed) (hreleased : s'.released = s.released) : Moves s e s'
  | sends (i : Nat) (key : κ) (hi : s.leaving[i]? = some key) :
    Moves s (.sendRelease i)
      { s with
        leaving := s.leaving.eraseIdx i
        released := key :: s.released
        toRelease := s.toRelease.filter (· ≠ key) }
  | runs (id now : Nat) : Moves s (.changeGrabStatus true .run id now) (s.runGrab id now)
  | leaves (id now : Nat) (howner : s.gs.owner = some id) :
    Moves s (.changeGrabStatus true .wait id now) s.releaseGrab
  | defers (id now t : Nat) (howner : s.gs.owner = some id) (hlast : s.gs.lastGrab = some t)
      (helapsed : asMillis (now - t) < grabDebounceMs) :
    Moves s (.changeGrabStatus true .wait id now) (s.deferRelease id now (asMillis (now - t)))
  | wakes (i now : Nat) (d : Deferred) (hi : s.deferred[i]? = some d)
      (howner : s.gs.owner = some d.sessionId) (hsnapshot : s.gs.lastGrab = d.snapshot) :
    Moves s (.wake i now) (State.releaseGrab { s with deferred := s.deferred.eraseIdx i })
  | cancels (i now : Nat) (d : Deferred) (hi : s.deferred[i]? = some d)
      (hno : ¬ (s.gs.owner = some d.sessionId ∧ s.gs.lastGrab = d.snapshot)) :
    Moves s (.wake i now) { s with deferred := s.deferred.eraseIdx i }

namespace State

variable [DecidableEq κ]

theorem cons_eraseIdx_perm {α : Type} {l : List α} {i : Nat} {a : α} (h : l[i]? = some a) :
    (a :: l.eraseIdx i).Perm l := by
  obtain ⟨hlt, rfl⟩ := List.getElem?_eq_some_iff.mp h
  exact List.getElem_cons_eraseIdx_perm hlt

theorem Moves.same {e : Event κ} (hgrabs : e.grabs = none)
    (hwait : ∀ id now, e = .changeGrabStatus true .wait id now →
      s.gs.owner ≠ some id ∨ s.gs.deferredPending = true) : s.Moves e s :=
  .other e s rfl rfl hgrabs hwait (fun _ hkey _ => hkey) (List.Perm.refl _) rfl

theorem moves_waitGrab (id now : Nat) :
    s.Moves (.changeGrabStatus true .wait id now) (s.waitGrab id now) := by
  unfold waitGrab
  by_cases howner : s.gs.owner ≠ some id
  · rw [if_pos howner]
    refine .same rfl fun id' now' heq => ?_
    cases heq
    exact Or.inl howner
  · rw [if_neg howner]
    rw [not_not] at howner
    split
    · rename_i t hlast
      dsimp only
      split_ifs with helapsed hpending
      · refine .same rfl fun id' now' _ => Or.inr hpending
      · exact .defers id now t howner hlast helapsed
      · exact .leaves id now howner
    · exact .leaves id now howner

theorem moves_wake (i now : Nat) : s.Moves (.wake i now) (s.wake i now) := by
  unfold wake
  split
  · rename_i d hi
    split_ifs with hnow hmatch
    · exact .same rfl fun _ _ heq => by cases heq
    · exact .wakes i now d hi hmatch.1 hmatch.2
    · exact .cancels i now d hi hmatch
  · exact .same rfl fun _ _ heq => by cases heq

theorem moves_enter (i : Nat) : s.Moves (.enter i) (s.enter i) := by
  unfold enter
  split
  · rename_i op hcritical hi
    refine .other _ _ rfl rfl rfl (fun _ _ heq => by cases heq) (fun _ hkey _ => hkey) ?_ rfl
    have hperm := ((cons_eraseIdx_perm hi).flatMap_right Op.toRelease)
    simp only [handed, hcritical, Option.toList_some, Option.toList_none, List.flatMap_cons,
      List.flatMap_nil, List.nil_append, List.append_nil, Critical.toRelease] at hperm ⊢
    rw [← List.append_assoc]
    exact (List.perm_append_comm.trans hperm).append_right _
  · exact .same rfl fun _ _ heq => by cases heq

theorem moves_look : s.Moves .look s.look := by
  unfold look
  split
  · rename_i id disableFirst hcritical
    split_ifs <;>
      exact .other _ _ rfl rfl rfl (fun _ _ heq => by cases heq) (fun _ hkey _ => hkey)
        (by simp [handed, hcritical, Critical.toRelease, Op.toRelease]) rfl
  · rename_i toRelease hcritical
    split_ifs
    · exact .other _ _ rfl rfl rfl (fun _ _ heq => by cases heq) (fun _ hkey _ => hkey)
        (by simp [handed, hcritical, Critical.toRelease, Op.toRelease]) rfl
    · refine .other _ _ rfl rfl rfl (fun _ _ heq => by cases heq) (fun _ hkey _ => hkey) ?_ rfl
      simp only [handed, hcritical, Option.toList_some, Option.toList_none, List.flatMap_cons,
        List.flatMap_nil, List.nil_append, List.append_nil, Critical.toRelease, Op.toRelease]
      rw [← List.append_assoc toRelease]
      exact (List.perm_append_comm.append_right _).append_left _
  · exact .same rfl fun _ _ heq => by cases heq

theorem moves_act : s.Moves .act s.act := by
  unfold act
  split
  · rename_i call toRelease hcritical
    refine .other _ _ rfl rfl rfl (fun _ _ heq => by cases heq) (fun _ hkey _ => hkey) ?_ rfl
    simp only [handed, hcritical, Option.toList_some, Option.toList_none, List.flatMap_cons,
      List.flatMap_nil, List.nil_append, List.append_nil, Critical.toRelease]
    rw [← List.append_assoc toRelease]
    exact (List.perm_append_comm.append_right _).append_left _
  · rename_i call call' calls toRelease hcritical
    exact .other _ _ rfl rfl rfl (fun _ _ heq => by cases heq) (fun _ hkey _ => hkey)
      (by simp [handed, hcritical, Critical.toRelease]) rfl
  · exact .same rfl fun _ _ heq => by cases heq

theorem moves_sendRelease (i : Nat) : s.Moves (.sendRelease i) (s.sendRelease i) := by
  unfold sendRelease
  split
  · rename_i key hi
    exact .sends i key hi
  · exact .same rfl fun _ _ heq => by cases heq

theorem moves_step (e : Event κ) : s.Moves e (s.step e) := by
  cases e with
  | changeGrabStatus rdevEnabled state sessionId now =>
    cases rdevEnabled with
    | false => exact .same rfl fun _ _ heq => by cases heq
    | true =>
      cases state with
      | ready => exact .same rfl fun _ _ heq => by cases heq
      | run => exact .runs sessionId now
      | wait => exact moves_waitGrab sessionId now
      | exit => exact .same rfl fun _ _ heq => by cases heq
  | wake i now => exact moves_wake i now
  | enter i => exact moves_enter i
  | look => exact moves_look
  | act => exact moves_act
  | sendRelease i => exact moves_sendRelease i
  | keyPress key =>
    refine .other _ _ rfl rfl rfl (fun _ _ heq => by cases heq) (fun key' hkey' _ => ?_)
      (List.Perm.refl _) rfl
    simp only [step]
    split_ifs
    · exact hkey'
    · exact List.mem_cons_of_mem _ hkey'
  | keyRelease key =>
    refine .other _ _ rfl rfl rfl (fun _ _ heq => by cases heq) (fun key' hkey' hne => ?_)
      (List.Perm.refl _) rfl
    refine List.mem_filter.mpr ⟨hkey', decide_eq_true fun heq => hne ?_⟩
    rw [heq]

end State

/-! ### The grab stays with who entered -/

section

variable [DecidableEq κ] {e : Event κ} {s' : State κ} {id n : Nat}

/-- What the grab and the sleeping threads remember is earlier than `n`. -/
structure State.Before (n : Nat) (s : State κ) : Prop where
  lastGrab : ∀ t, s.gs.lastGrab = some t → t < n
  snapshot : ∀ d ∈ s.deferred, ∀ t, d.snapshot = some t → t < n

/-- The session owns the grab, and no thread sleeps that would release it. -/
structure State.Kept (id : Nat) (s : State κ) : Prop where
  owner : s.gs.owner = some id
  snapshot : ∀ d ∈ s.deferred, d.sessionId = id → d.snapshot ≠ s.gs.lastGrab

theorem State.Before.moves (h : s.Before n) (hmoves : s.Moves e s') (hgrabs : ∀ m, e.grabs = some m → m < n) :
    s'.Before n := by
  cases hmoves with
  | other _ _ hgs hdeferred => exact ⟨by rw [hgs]; exact h.lastGrab, by rw [hdeferred]; exact h.snapshot⟩
  | sends => exact ⟨h.lastGrab, h.snapshot⟩
  | runs id now =>
    have hlt := hgrabs now rfl
    refine ⟨fun t ht => ?_, fun d hd => h.snapshot d ?_⟩
    · have hnow : now = t := by
        unfold State.runGrab at ht
        split_ifs at ht <;> exact Option.some.inj ht
      omega
    · unfold State.runGrab at hd
      split_ifs at hd <;> exact hd
  | leaves => exact ⟨fun t ht => (by cases ht), h.snapshot⟩
  | defers id now t howner hlast helapsed =>
    refine ⟨h.lastGrab, fun d hd => ?_⟩
    rcases List.mem_append.mp hd with hd | hd
    · exact h.snapshot d hd
    · obtain rfl := List.mem_singleton.mp hd
      exact h.lastGrab
  | wakes => exact ⟨fun t ht => (by cases ht), fun d hd => h.snapshot d (List.mem_of_mem_eraseIdx hd)⟩
  | cancels => exact ⟨h.lastGrab, fun d hd => h.snapshot d (List.mem_of_mem_eraseIdx hd)⟩

theorem State.Kept.moves (h : s.Kept id) (hmoves : s.Moves e s') (housts : e.ousts id = false)
    (hbefore : ∀ n, e.grabs = some n → s.Before n) : s'.Kept id := by
  cases hmoves with
  | other _ _ hgs hdeferred =>
    exact ⟨by rw [hgs]; exact h.owner, by rw [hgs, hdeferred]; exact h.snapshot⟩
  | sends => exact ⟨h.owner, h.snapshot⟩
  | runs id' now =>
    obtain rfl : id' = id := by simpa [Event.ousts] using housts
    have hrun : s.runGrab id' now =
        { s with gs := { s.gs with lastGrab := some now, deferredPending := false } } := if_pos h.owner
    rw [hrun]
    refine ⟨h.owner, fun d hd _ heq => ?_⟩
    exact absurd ((hbefore now rfl).snapshot d hd now heq) (Nat.lt_irrefl now)
  | leaves id' now howner =>
    obtain rfl : id = id' := Option.some.inj (h.owner.symm.trans howner)
    simp [Event.ousts] at housts
  | defers id' now t howner =>
    obtain rfl : id = id' := Option.some.inj (h.owner.symm.trans howner)
    simp [Event.ousts] at housts
  | wakes i now d hi howner hsnapshot =>
    have hid : d.sessionId = id := Option.some.inj (howner.symm.trans h.owner)
    exact absurd hsnapshot.symm (h.snapshot d (List.mem_of_getElem? hi) hid)
  | cancels => exact ⟨h.owner, fun d hd => h.snapshot d (List.mem_of_mem_eraseIdx hd)⟩

end

section

variable [DecidableEq κ] {id n : Nat} {es : List (Event κ)}

theorem State.Before.run (h : s.Before n) (hes : ∀ m ∈ es.filterMap Event.grabs, m < n) :
    (run State.step s es).Before n := by
  induction es generalizing s with
  | nil => exact h
  | cons e es ih =>
    refine ih (h.moves (State.moves_step e) fun m hm => hes m ?_) fun m hm => hes m ?_
    · exact List.mem_filterMap.mpr ⟨e, List.mem_cons_self, hm⟩
    · obtain ⟨e', he', hm'⟩ := List.mem_filterMap.mp hm
      exact List.mem_filterMap.mpr ⟨e', List.mem_cons_of_mem e he', hm'⟩

theorem State.Coming.run (h : s.Coming) (es : List (Event κ)) : (run State.step s es).Coming := by
  induction es generalizing s with
  | nil => exact h
  | cons e es ih => exact ih (h.step e)

/-- A later `Run` is later than all that is remembered, so that the session keeps the grab. -/
theorem State.Kept.run (h : s.Kept id) (hes : ∀ e ∈ es, e.ousts id = false)
    (hclock : (es.filterMap Event.grabs).Pairwise (· < ·))
    (hbefore : ∀ n ∈ es.filterMap Event.grabs, s.Before n) : (run State.step s es).Kept id := by
  induction es generalizing s with
  | nil => exact h
  | cons e es ih =>
    have hmoves := State.moves_step (s := s) e
    have hkept := h.moves hmoves (hes e List.mem_cons_self) fun n hn =>
      hbefore n (List.mem_filterMap.mpr ⟨e, List.mem_cons_self, hn⟩)
    refine ih hkept (fun e' he' => hes e' (List.mem_cons_of_mem e he')) ?_ fun n hn => ?_
    · rw [List.filterMap_cons] at hclock
      split at hclock
      · exact hclock
      · exact hclock.of_cons
    · have hmem : n ∈ (e :: es).filterMap Event.grabs := by
        obtain ⟨e', he', hn'⟩ := List.mem_filterMap.mp hn
        exact List.mem_filterMap.mpr ⟨e', List.mem_cons_of_mem e he', hn'⟩
      refine (hbefore n hmem).moves hmoves fun m hm => ?_
      rw [List.filterMap_cons_some hm] at hclock
      exact List.rel_of_pairwise_cons hclock hn

end

/-! ### A session that leaves -/

/-- From the last `Run` until a thread that puts the release off wakes, at the latest. -/
def longestDelay : Nat := (grabDebounceMs + 50 + 1) * nanosPerMilli

/-- The thread is asleep that releases the grab as it is. -/
def State.Sleeps (s : State κ) : Prop :=
  ∃ d ∈ s.deferred, s.gs.owner = some d.sessionId ∧ s.gs.lastGrab = d.snapshot

structure State.Arranged (s : State κ) : Prop where
  wakes : ∀ d ∈ s.deferred, ∀ t, d.snapshot = some t → d.wakes ≤ t + longestDelay
  pending : s.gs.deferredPending = true → s.Sleeps

/-- The session has left: either the grab is free, and the keys are on their way that were down, or
it will be when the thread wakes. `before` are the releases of a key that do not count. -/
def State.Left [DecidableEq κ] (id : Nat) (down : κ → Prop) (before : κ → Nat) (s : State κ) : Prop :=
  s.gs.owner = none ∧ (∀ key, down key → before key < s.handed.count key) ∨
  s.gs.owner = some id ∧ s.Sleeps ∧ ∀ key, down key →
    before key ≤ s.released.count key ∧ (key ∈ s.toRelease ∨ before key < s.handed.count key)

theorem deferRelease_wakes (t now : Nat) (h : asMillis (now - t) < grabDebounceMs) :
    now + (grabDebounceMs - asMillis (now - t) + 50) * nanosPerMilli ≤ t + longestDelay := by
  simp only [longestDelay, grabDebounceMs, asMillis, nanosPerMilli] at h ⊢
  omega

theorem sleeps_cancels {s : State κ} {i : Nat} {d : Deferred} (hi : s.deferred[i]? = some d)
    (hno : ¬ (s.gs.owner = some d.sessionId ∧ s.gs.lastGrab = d.snapshot)) (h : s.Sleeps) :
    State.Sleeps { s with deferred := s.deferred.eraseIdx i } := by
  obtain ⟨d', hd', hmatch⟩ := h
  obtain ⟨j, hj⟩ := List.getElem?_of_mem hd'
  refine ⟨d', List.mem_eraseIdx_iff_getElem?.mpr ⟨j, fun hji => ?_, hj⟩, hmatch⟩
  rw [hji, hi] at hj
  rw [Option.some.inj hj] at hno
  exact hno hmatch

theorem State.Arranged.moves [DecidableEq κ] {e : Event κ} {s' : State κ} (h : s.Arranged) (hmoves : s.Moves e s') :
    s'.Arranged := by
  cases hmoves with
  | other _ _ hgs hdeferred =>
    refine ⟨by rw [hdeferred]; exact h.wakes, ?_⟩
    rw [State.Sleeps, hgs, hdeferred]
    exact h.pending
  | sends => exact ⟨h.wakes, h.pending⟩
  | runs id now =>
    unfold State.runGrab
    split_ifs <;> exact ⟨h.wakes, fun hno => by cases hno⟩
  | leaves => exact ⟨h.wakes, fun hno => by cases hno⟩
  | defers id now t howner hlast helapsed =>
    refine ⟨fun d hd t' ht' => ?_, fun _ => ?_⟩
    · rcases List.mem_append.mp hd with hd | hd
      · exact h.wakes d hd t' ht'
      · obtain rfl := List.mem_singleton.mp hd
        obtain rfl : t = t' := Option.some.inj (hlast.symm.trans ht')
        exact deferRelease_wakes t now helapsed
    · exact ⟨_, List.mem_append_right _ (List.mem_singleton_self _), howner, rfl⟩
  | wakes i now d hi howner hsnapshot =>
    exact ⟨fun d hd => h.wakes d (List.mem_of_mem_eraseIdx hd), fun hno => by cases hno⟩
  | cancels i now d hi hno =>
    exact ⟨fun d hd => h.wakes d (List.mem_of_mem_eraseIdx hd), fun hp => sleeps_cancels hi hno (h.pending hp)⟩

section

variable [DecidableEq κ] {e : Event κ} {s' : State κ} {id : Nat} {down : κ → Prop} {before : κ → Nat}
  {es : List (Event κ)}

theorem count_handed_releaseGrab (s : State κ) (key : κ) :
    s.releaseGrab.handed.count key = s.handed.count key + s.toRelease.count key := by
  simp only [State.handed, State.releaseGrab, List.flatMap_append, List.flatMap_cons, List.flatMap_nil,
    List.append_nil, List.count_append, Op.toRelease]
  omega

theorem released_le_handed (s : State κ) (key : κ) : s.released.count key ≤ s.handed.count key := by
  simp only [State.handed, List.count_append]
  omega

theorem left_releaseGrab (hkeys : ∀ key, down key →
      before key ≤ s.released.count key ∧ (key ∈ s.toRelease ∨ before key < s.handed.count key)) :
    s.releaseGrab.Left id down before := by
  refine Or.inl ⟨rfl, fun key hkey => ?_⟩
  obtain ⟨hle, hmem⟩ := hkeys key hkey
  have hhanded := released_le_handed s key
  rw [count_handed_releaseGrab]
  rcases hmem with hmem | hlt
  · have hpos := List.count_pos_iff.mpr hmem
    omega
  · omega

theorem handed_sends {i : Nat} {key : κ} (hi : s.leaving[i]? = some key) :
    (State.handed { s with
      leaving := s.leaving.eraseIdx i
      released := key :: s.released
      toRelease := s.toRelease.filter (· ≠ key) }).Perm s.handed := by
  have hperm : (s.leaving.eraseIdx i ++ key :: s.released).Perm (s.leaving ++ s.released) :=
    List.perm_middle.trans ((State.cons_eraseIdx_perm hi).append_right s.released)
  exact (hperm.append_left _).append_left _

theorem State.Left.moves (h : s.Left id down before) (hmoves : s.Moves e s') (hgrabs : e.grabs = none)
    (hdown : ∀ key, down key → e ≠ .keyRelease key) : s'.Left id down before := by
  cases hmoves with
  | other _ _ hgs hdeferred _ _ hkeys hhanded hreleased =>
    refine h.imp (fun ⟨howner, hcount⟩ => ?_) fun ⟨howner, hsleeps, hcount⟩ => ?_
    · refine ⟨by rw [hgs]; exact howner, fun key hkey => ?_⟩
      rw [hhanded.count_eq]
      exact hcount key hkey
    · refine ⟨by rw [hgs]; exact howner, ?_, fun key hkey => ?_⟩
      · rw [State.Sleeps, hgs, hdeferred]
        exact hsleeps
      · rw [hhanded.count_eq, hreleased]
        obtain ⟨hle, hmem⟩ := hcount key hkey
        exact ⟨hle, hmem.imp_left fun hin => hkeys key hin (hdown key hkey)⟩
  | sends i key hi =>
    refine h.imp (fun ⟨howner, hcount⟩ => ?_) fun ⟨howner, hsleeps, hcount⟩ => ?_
    · refine ⟨howner, fun key' hkey' => ?_⟩
      rw [(handed_sends hi).count_eq]
      exact hcount key' hkey'
    · refine ⟨howner, hsleeps, fun key' hkey' => ?_⟩
      obtain ⟨hle, hmem⟩ := hcount key' hkey'
      rw [(handed_sends hi).count_eq]
      by_cases heq : key' = key
      · -- the release that is sent counts for the key, whoever has taken it
        subst heq
        have hhanded := released_le_handed { s with
          leaving := s.leaving.eraseIdx i
          released := key' :: s.released
          toRelease := s.toRelease.filter (· ≠ key') } key'
        rw [(handed_sends hi).count_eq] at hhanded
        simp only [List.count_cons_self] at hhanded ⊢
        exact ⟨by omega, Or.inr (by omega)⟩
      · rw [List.count_cons_of_ne fun h => heq h.symm]
        exact ⟨hle, hmem.imp_left fun hin => List.mem_filter.mpr ⟨hin, decide_eq_true heq⟩⟩
  | runs => cases hgrabs
  | leaves id' now howner =>
    rcases h with ⟨hno, -⟩ | ⟨-, -, hcount⟩
    · rw [howner] at hno
      cases hno
    · exact left_releaseGrab hcount
  | defers id' now t howner =>
    rcases h with ⟨hno, -⟩ | ⟨howner', ⟨d, hd, hmatch⟩, hcount⟩
    · rw [howner] at hno
      cases hno
    · exact Or.inr ⟨howner', ⟨d, List.mem_append_left _ hd, hmatch⟩, hcount⟩
  | wakes i now d hi howner =>
    rcases h with ⟨hno, -⟩ | ⟨-, -, hcount⟩
    · rw [howner] at hno
      cases hno
    · exact left_releaseGrab hcount
  | cancels i now d hi hno =>
    exact h.imp_right fun ⟨howner, hsleeps, hcount⟩ => ⟨howner, sleeps_cancels hi hno hsleeps, hcount⟩

/-- A thread is asleep already when the release has been put off before. -/
theorem State.Arranged.left (h : s.Arranged) (howner : s.gs.owner = some id) {now : Nat}
    (hmoves : s.Moves (.changeGrabStatus true .wait id now) s') :
    s'.Left id (· ∈ s.toRelease) fun key => s.released.count key := by
  cases hmoves with
  | other _ _ hgs hdeferred _ hwait hkeys _ hreleased =>
    refine Or.inr ⟨by rw [hgs]; exact howner, ?_, fun key hkey => ⟨?_, ?_⟩⟩
    · rcases hwait id now rfl with hno | hpending
      · exact absurd howner hno
      · rw [State.Sleeps, hgs, hdeferred]
        exact h.pending hpending
    · exact Nat.le_of_eq (by rw [hreleased])
    · exact Or.inl (hkeys key hkey fun heq => by cases heq)
  | leaves => exact left_releaseGrab fun key hkey => ⟨Nat.le_refl _, Or.inl hkey⟩
  | defers _ _ t _ hlast =>
    exact Or.inr ⟨howner, ⟨_, List.mem_append_right _ (List.mem_singleton_self _), howner, rfl⟩,
      fun key hkey => ⟨Nat.le_refl _, Or.inl hkey⟩⟩

theorem State.Arranged.run (h : s.Arranged) (es : List (Event κ)) : (run State.step s es).Arranged := by
  induction es generalizing s with
  | nil => exact h
  | cons e es ih => exact ih (h.moves (State.moves_step e))

theorem State.Left.run (h : s.Left id down before) (hgrabs : ∀ e ∈ es, e.grabs = none)
    (hdown : ∀ e ∈ es, ∀ key, down key → e ≠ .keyRelease key) :
    (run State.step s es).Left id down before := by
  induction es generalizing s with
  | nil => exact h
  | cons e es ih =>
    exact ih (h.moves (State.moves_step e) (hgrabs e List.mem_cons_self) (hdown e List.mem_cons_self))
      (fun e' he' => hgrabs e' (List.mem_cons_of_mem e he'))
      fun e' he' => hdown e' (List.mem_cons_of_mem e he')

theorem State.Left.mono {down' : κ → Prop} (h : s.Left id down before) (hle : ∀ key, down' key → down key) :
    s.Left id down' before :=
  h.imp (fun ⟨howner, hcount⟩ => ⟨howner, fun key hkey => hcount key (hle key hkey)⟩)
    fun ⟨howner, hsleeps, hcount⟩ => ⟨howner, hsleeps, fun key hkey => hcount key (hle key hkey)⟩

/-- When the last of them wakes, the grab is free. -/
theorem State.Sleeps.wake (h : s.Sleeps) (harranged : s.Arranged) {t : Nat} (hlast : s.gs.lastGrab = some t) :
    ∃ i, ∀ now, t + longestDelay ≤ now → (s.step (.wake i now)).gs.owner = none := by
  obtain ⟨d, hd, hmatch⟩ := h
  obtain ⟨i, hi⟩ := List.getElem?_of_mem hd
  refine ⟨i, fun now hnow => ?_⟩
  have hwakes := harranged.wakes d hd t (hmatch.2.symm.trans hlast)
  simp only [State.step, State.wake, hi]
  rw [if_neg (by omega), if_pos hmatch]
  rfl

end

theorem State.Arranged.start : ({} : State κ).Arranged where
  wakes := fun _ hd => absurd hd List.not_mem_nil
  pending := fun hno => by cases hno

theorem State.Before.start (n : Nat) : ({} : State κ).Before n where
  lastGrab := fun _ ht => by cases ht
  snapshot := fun _ hd => absurd hd List.not_mem_nil

theorem State.handed_settled (hsettled : s.Settled) (hleaving : s.leaving = []) : s.handed = s.released := by
  simp [State.handed, hsettled.1, hsettled.2, hleaving]

/-! ### Every run -/

variable [DecidableEq κ]

/-- Whenever no thread is about to call `rdev`, the keyboard is grabbed if a session owns the grab. -/
theorem keyboard_grab_settles (es : List (Event κ)) :
    Throughout State.step
      (fun s => s.keyboardHooked = s.gs.owner.isSome ∧ (s.Settled → s.grabbed = s.gs.owner.isSome)) {} es :=
  History.throughout_imp (fun _ h => ⟨h.hooked, h.grabbed_eq⟩)
    (History.throughout_of_step (fun _ e h => h.step e) State.Coming.start es)

theorem keyboard_grab_stays (front rest : List (Event κ)) (id now : Nat)
    (hclock : ((front ++ .changeGrabStatus true .run id now :: rest).filterMap Event.grabs).Pairwise (· < ·))
    (hrest : ∀ e ∈ rest, e.ousts id = false) :
    let s := run State.step {} (front ++ .changeGrabStatus true .run id now :: rest)
    s.gs.owner = some id ∧ s.keyboardHooked = true ∧ (s.Settled → s.grabbed = true) := by
  have hgrabs : Event.grabs (.changeGrabStatus true .run id now : Event κ) = some now := rfl
  rw [List.filterMap_append, List.filterMap_cons_some hgrabs] at hclock
  obtain ⟨-, hpair, hlt⟩ := List.pairwise_append.mp hclock
  have hbefore : ∀ n ∈ now :: rest.filterMap Event.grabs, (run State.step {} front).Before n :=
    fun n hn => (State.Before.start n).run fun m hm => hlt m hm n hn
  -- the session owns the grab since an instant that no thread remembers
  have hkept : ((run State.step {} front).runGrab id now).Kept id := by
    unfold State.runGrab
    split_ifs with howner
    all_goals
      refine ⟨by first | exact howner | rfl, fun d hd _ heq => ?_⟩
      exact absurd ((hbefore now List.mem_cons_self).snapshot d hd now heq) (Nat.lt_irrefl now)
  have hend := hkept.run hrest hpair.of_cons fun n hn =>
    (hbefore n (List.mem_cons_of_mem now hn)).moves (.runs id now) fun m hm => by
      obtain rfl : now = m := Option.some.inj hm
      exact List.rel_of_pairwise_cons hpair hn
  have hcoming := (State.Coming.start : ({} : State κ).Coming).run (front ++ .changeGrabStatus true .run id now :: rest)
  rw [History.run_append] at hcoming ⊢
  have howner : (run State.step (run State.step {} front)
      (.changeGrabStatus true .run id now :: rest)).gs.owner = some id := hend.owner
  refine ⟨howner, ?_, fun hsettled => ?_⟩
  · rw [hcoming.hooked, howner]
    rfl
  · rw [hcoming.grabbed_eq hsettled, howner]
    rfl

/-- The pointer leaves the window of the first session and comes back while a thread sleeps. -/
def leftForAMoment : List (Event Nat) :=
  [.changeGrabStatus true .run 1 0, .enter 0, .look, .act, .changeGrabStatus true .wait 1 100000000]

/-- The thread wakes, and a call of the second session comes late. -/
def backAgain : List (Event Nat) := [.wake 0 350000000, .changeGrabStatus true .wait 2 360000000]

theorem keyboard_grab_stays_back :
    let s := run State.step {} (leftForAMoment ++ .changeGrabStatus true .run 1 200000000 :: backAgain)
    s.gs.owner = some 1 ∧ s.keyboardHooked = true ∧ (s.Settled → s.grabbed = true) :=
  keyboard_grab_stays leftForAMoment backAgain 1 200000000 (by decide) (by decide)

/-- A key is down in the window that is left, and the release is put off. -/
def keyDown : List (Event Nat) :=
  [.changeGrabStatus true .run 1 0, .enter 0, .look, .act, .keyPress 30]

def allEnds : List (Event Nat) := [.wake 0 350000000, .enter 0, .look, .act, .sendRelease 0]

/-- At the end the key is released and the keyboard free. -/
example :
    (run State.step {} (keyDown ++ .changeGrabStatus true .wait 1 100000000 :: allEnds)).released = [30] ∧
    (run State.step {} (keyDown ++ .changeGrabStatus true .wait 1 100000000 :: allEnds)).grabbed = false := by
  decide

end RustDesk.KeyboardGrab
