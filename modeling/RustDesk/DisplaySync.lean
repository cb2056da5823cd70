import RustDesk.History

/-!
# The displays that the peers know

The display service looks every 300 ms whether the displays are other ones, and sends them to its
subscribers. Other threads may find that out before it. A guard, held for a time, keeps changes from
being sent, and when it is dropped they are sent at the next round.

Every access under the lock of the displays or of the service, and every access to the flag of the guard,
is a step of its own. `told` has the displays that a connection was sent last, with its login or by the
service, and `overtaken` is whether a change has been taken from the lock since then.
-/

namespace RustDesk.DisplaySync

open History (run Guarded Throughout)

variable {κ : Type}

/-- Where the service thread is. `bails` is whether the callback of the snapshot has failed. -/
inductive Phase (κ : Type)
  | ok
  | snapshot
  | callback
  | hasSubscribes
  | newSubscriber
  | dropSwap (bails : Bool)
  | tryGetDisplays
  | getUpdate
  | send (displays : List κ)
  deriving DecidableEq, Repr

/-- `held` guards have not been dropped, `dropping` ones have cleared the flag and are yet to ask for the
displays to be sent. `first` are the connections that subscribed when there were no others. -/
structure State (κ : Type) where
  displays : List κ := []
  isSynced : Bool := false
  tempIgnore : Bool := false
  held : Nat := 0
  dropping : Nat := 0
  subscribes : List Int := []
  newSubscribes : List Int := []
  phase : Phase κ := .ok
  told : Int → Option (List κ) := fun _ => none
  overtaken : Int → Bool := fun _ => true
  first : List Int := []

/-- `login` is the end of `update_get_sync_displays_on_login`, after its check. `service` is a step of the
service thread, which gets `displays` when it asks for them. -/
inductive Event (κ : Type)
  | checkUpdate (displays : List κ)
  | login (id : Int)
  | hold
  | clearFlag
  | dropped
  | onSubscribe (id : Int)
  | onUnsubscribe (id : Int)
  | service (displays : Option (List κ))
  deriving DecidableEq, Repr

namespace State

section

variable (s : State κ)

def setDisplays (displays : List κ) : State κ :=
  { s with displays, isSynced := if s.tempIgnore then s.isSynced else false }

def swapNewSubscribes : State κ :=
  { s with
    subscribes := s.newSubscribes ++ s.subscribes.filter (· ∉ s.newSubscribes)
    newSubscribes := []
    first := if s.subscribes = [] then s.newSubscribes else s.first }

end

variable [DecidableEq κ] (s : State κ)

/-- `check_changed`, by the lengths first and then display by display. -/
def checkChanged (displays : List κ) : State κ :=
  if s.displays.length ≠ displays.length then s.setDisplays displays
  else if (displays.zip s.displays).any fun d => d.1 ≠ d.2 then s.setDisplays displays
  else s

/-- `run` of the service, and its call by `GenericService::run`. -/
def service (displays : Option (List κ)) : State κ :=
  match s.phase with
  | .ok => if s.subscribes.length > 0 ∨ s.newSubscribes.length > 0 then { s with phase := .snapshot } else s
  | .snapshot => { s with phase := if s.newSubscribes.length > 0 then .callback else .tryGetDisplays }
  | .callback => { s with phase := if s.tempIgnore then .dropSwap false else .hasSubscribes }
  | .hasSubscribes => { s with phase := if s.subscribes.length > 0 then .newSubscriber else .dropSwap false }
  | .newSubscriber => { s with isSynced := false, phase := .dropSwap true }
  | .dropSwap bails => { s.swapNewSubscribes with phase := if bails then .ok else .tryGetDisplays }
  | .tryGetDisplays =>
    match displays with
    | none => { s with phase := .ok }
    | some displays => { s.checkChanged displays with phase := .getUpdate }
  | .getUpdate =>
    if s.isSynced then { s with phase := .ok }
    else { s with isSynced := true, overtaken := fun _ => true, phase := .send s.displays }
  | .send displays =>
    { s with
      told := fun id => if id ∈ s.subscribes then some displays else s.told id
      overtaken := fun id => if id ∈ s.subscribes then false else s.overtaken id
      phase := .ok }

def step : Event κ → State κ
  | .checkUpdate displays => s.checkChanged displays
  | .login id =>
    { s with
      told := fun conn => if conn = id then some s.displays else s.told conn
      overtaken := fun conn => if conn = id then false else s.overtaken conn }
  | .hold => { s with tempIgnore := true, held := s.held + 1 }
  | .clearFlag =>
    if 0 < s.held then { s with tempIgnore := false, held := s.held - 1, dropping := s.dropping + 1 } else s
  | .dropped => if 0 < s.dropping then { s with isSynced := false, dropping := s.dropping - 1 } else s
  | .onSubscribe id =>
    if id ∈ s.subscribes then s else { s with newSubscribes := id :: s.newSubscribes.filter (· ≠ id) }
  | .onUnsubscribe id =>
    if id ∈ s.subscribes then
      { s with subscribes := s.subscribes.filter (· ≠ id), first := s.first.filter (· ≠ id) }
    else { s with newSubscribes := s.newSubscribes.filter (· ≠ id) }
  | .service displays => s.service displays

end State

/-! ### What is due -/

/-- The displays are going to be sent again, at the latest when the guards have been dropped. -/
def Due (s : State κ) : Prop := s.isSynced = false ∨ 0 < s.held ∨ 0 < s.dropping

/-- Of the connections that have subscribed, it does not know the displays only if it found no others there,
and a change was taken between its login and that. -/
def Knows (s : State κ) (id : Int) : Prop :=
  s.told id = some s.displays ∨ id ∈ s.first ∧ s.overtaken id = true

/-- Between two messages, and if no more are due, every subscriber knows the displays. -/
def Told (s : State κ) : Prop :=
  (∀ displays, s.phase ≠ .send displays) → s.isSynced = true → s.held = 0 → s.dropping = 0 →
    ∀ id ∈ s.subscribes, Knows s id

structure Kept (s : State κ) : Prop where
  flag : s.tempIgnore = true → 0 < s.held
  heard : ∀ id, Due s ∨ s.told id = some s.displays ∨ s.overtaken id = true
  told : (∀ displays, s.phase ≠ .send displays) → ∀ id ∈ s.subscribes, Due s ∨ Knows s id
  sending : ∀ displays, s.phase = .send displays → Due s ∨ displays = s.displays
  swapping : ∀ bails, s.phase = .dropSwap bails → Due s ∨ s.subscribes = []

section

variable {s s' : State κ}

theorem zip_any_iff [DecidableEq κ] {xs ys : List κ} (h : ys.length = xs.length) :
    (xs.zip ys).any (fun d => d.1 ≠ d.2) = false ↔ xs = ys := by
  induction xs generalizing ys with
  | nil =>
    rw [List.length_nil, List.length_eq_zero_iff] at h
    rw [h]
    simp
  | cons x xs ih =>
    cases ys with
    | nil => cases h
    | cons y ys =>
      rw [List.length_cons, List.length_cons, Nat.add_right_cancel_iff] at h
      rw [List.zip_cons_cons, List.any_cons, Bool.or_eq_false_iff, ih h, List.cons.injEq]
      simp

theorem checkChanged_eq [DecidableEq κ] (displays : List κ) :
    s.checkChanged displays = if displays = s.displays then s else s.setDisplays displays := by
  unfold State.checkChanged
  by_cases hlen : s.displays.length = displays.length
  · rw [if_neg (not_not.mpr hlen)]
    by_cases heq : displays = s.displays
    · rw [if_pos heq, if_neg]
      rw [(zip_any_iff hlen).mpr heq]
      exact Bool.false_ne_true
    · rw [if_neg heq, if_pos]
      exact Bool.of_not_eq_false fun hnone => heq ((zip_any_iff hlen).mp hnone)
  · rw [if_pos hlen, if_neg fun heq => hlen (congrArg List.length heq).symm]

theorem Due.kept (h : Due s) (hflag : s.tempIgnore = true → 0 < s.held) : Kept s :=
  ⟨hflag, fun _ => Or.inl h, fun _ _ _ => Or.inl h, fun _ _ => Or.inl h, fun _ _ => Or.inl h⟩

namespace Kept

/-- Other displays are found: they are due, or the flag keeps them back and a guard is held. -/
theorem checkChanged [DecidableEq κ] (h : Kept s) (displays : List κ) : Kept (s.checkChanged displays) := by
  rw [checkChanged_eq]
  split_ifs with hsame
  · exact h
  · refine Due.kept ?_ h.flag
    unfold Due State.setDisplays
    dsimp only
    cases hflag : s.tempIgnore with
    | true => exact Or.inr (Or.inl (h.flag hflag))
    | false => exact Or.inl rfl

/-- The service thread goes on, and nothing else changes. -/
theorem goesOn (h : Kept s) (phase : Phase κ) (hnot : ∀ displays, s.phase ≠ .send displays)
    (hsend : ∀ displays, phase ≠ .send displays)
    (hswap : ∀ bails, phase = .dropSwap bails → Due s ∨ s.subscribes = []) :
    Kept { s with phase } :=
  ⟨h.flag, h.heard, fun _ => h.told hnot, fun _ hphase => absurd hphase (hsend _), hswap⟩

/-- The others are told again, or there are no others and the new ones are the first. -/
theorem swapNewSubscribes (h : Kept s) {bails : Bool} (hphase : s.phase = .dropSwap bails) (phase : Phase κ)
    (hsend : ∀ displays, phase ≠ .send displays) (hswap : ∀ bails, phase ≠ .dropSwap bails) :
    Kept { s.swapNewSubscribes with phase } := by
  refine ⟨h.flag, h.heard, fun _ id hid => ?_, fun _ hphase' => absurd hphase' (hsend _),
    fun _ hphase' => absurd hphase' (hswap _)⟩
  rcases h.swapping bails hphase with hdue | hnone
  · exact Or.inl hdue
  · dsimp only [State.swapNewSubscribes] at hid
    rw [hnone, List.filter_nil, List.append_nil] at hid
    have hfirst : id ∈ s.swapNewSubscribes.first := by
      unfold State.swapNewSubscribes
      dsimp only
      rwa [if_pos hnone]
    exact (h.heard id).imp_right (Or.imp_right fun hovertaken => ⟨hfirst, hovertaken⟩)

variable [DecidableEq κ]

/-- The displays have been sent to the subscribers. -/
theorem sent (h : Kept s) {displays : List κ} (hphase : s.phase = .send displays) (got : Option (List κ)) :
    Kept (s.service got) := by
  unfold State.service
  rw [hphase]
  dsimp only
  refine ⟨h.flag, fun id => ?_, fun _ id hid => ?_, fun _ hphase' => (by cases hphase'),
    fun _ hphase' => (by cases hphase')⟩
  · dsimp only
    by_cases hid : id ∈ s.subscribes
    · rw [if_pos hid, Option.some.injEq]
      exact (h.sending displays hphase).imp_right Or.inl
    · rw [if_neg hid, if_neg hid]
      exact h.heard id
  · rcases h.sending displays hphase with hdue | rfl
    · exact Or.inl hdue
    · exact Or.inr (Or.inl (if_pos hid))

theorem service (h : Kept s) (displays : Option (List κ)) : Kept (s.service displays) := by
  cases hphase : s.phase with
  | send ds => exact h.sent hphase displays
  | ok =>
    unfold State.service
    rw [hphase]
    dsimp only
    split_ifs
    · exact h.goesOn _ (by simp [hphase]) (by simp) (by simp)
    · exact h
  | snapshot =>
    unfold State.service
    rw [hphase]
    refine h.goesOn _ (by simp [hphase]) (fun _ => ?_) (fun _ hswap => ?_)
    · split_ifs <;> simp
    · split_ifs at hswap
  | callback =>
    unfold State.service
    rw [hphase]
    refine h.goesOn _ (by simp [hphase]) (fun _ => ?_) (fun _ hswap => ?_)
    · split_ifs <;> simp
    · split_ifs at hswap with hflag
      exact Or.inl (Or.inr (Or.inl (h.flag hflag)))
  | hasSubscribes =>
    unfold State.service
    rw [hphase]
    refine h.goesOn _ (by simp [hphase]) (fun _ => ?_) (fun _ hswap => ?_)
    · split_ifs <;> simp
    · split_ifs at hswap with hnone
      exact Or.inr (List.length_eq_zero_iff.mp (Nat.eq_zero_of_not_pos hnone))
  | newSubscriber =>
    unfold State.service
    rw [hphase]
    exact Due.kept (Or.inl rfl) h.flag
  | dropSwap bails =>
    unfold State.service
    rw [hphase]
    refine h.swapNewSubscribes hphase _ (fun _ => ?_) (fun _ => ?_)
    · split_ifs <;> simp
    · split_ifs <;> simp
  | tryGetDisplays =>
    unfold State.service
    rw [hphase]
    cases displays with
    | none => exact h.goesOn _ (by simp [hphase]) (by simp) (by simp)
    | some displays =>
      have hsame : (s.checkChanged displays).phase = .tryGetDisplays := by
        rw [checkChanged_eq, ← hphase]
        split_ifs <;> rfl
      exact (h.checkChanged displays).goesOn _ (by simp [hsame]) (by simp) (by simp)
  | getUpdate =>
    unfold State.service
    rw [hphase]
    dsimp only
    split_ifs
    · exact h.goesOn _ (by simp [hphase]) (by simp) (by simp)
    · exact ⟨h.flag, fun _ => Or.inr (Or.inr rfl), fun hnot => absurd rfl (hnot s.displays),
        fun _ hphase' => Or.inr (by cases hphase'; rfl), fun _ hphase' => (by cases hphase')⟩

/-- A connection that logs in knows the displays. -/
theorem login (h : Kept s) (id : Int) : Kept (s.step (.login id)) := by
  refine ⟨h.flag, fun conn => ?_, fun hnot conn hconn => ?_, h.sending, h.swapping⟩
  · dsimp only [State.step]
    by_cases hid : conn = id
    · rw [if_pos hid]
      exact Or.inr (Or.inl rfl)
    · rw [if_neg hid, if_neg hid]
      exact h.heard conn
  · dsimp only [State.step, Knows]
    by_cases hid : conn = id
    · rw [if_pos hid]
      exact Or.inr (Or.inl rfl)
    · rw [if_neg hid, if_neg hid]
      exact h.told hnot conn hconn

theorem onUnsubscribe (h : Kept s) (id : Int) : Kept (s.step (.onUnsubscribe id)) := by
  dsimp only [State.step]
  by_cases hid : id ∈ s.subscribes
  · rw [if_pos hid]
    refine ⟨h.flag, h.heard, fun hnot conn hconn => ?_, h.sending, fun bails hphase => ?_⟩
    · obtain ⟨hconn, hother⟩ := List.mem_filter.mp hconn
      exact (h.told hnot conn hconn).imp_right
        (Or.imp_right (And.imp_left fun hfirst => List.mem_filter.mpr ⟨hfirst, hother⟩))
    · refine (h.swapping bails hphase).imp_right fun hnone => ?_
      dsimp only
      rw [hnone, List.filter_nil]
  · rw [if_neg hid]
    exact ⟨h.flag, h.heard, h.told, h.sending, h.swapping⟩

theorem step (h : Kept s) (e : Event κ) : Kept (s.step e) := by
  cases e with
  | checkUpdate displays => exact h.checkChanged displays
  | login id => exact h.login id
  | hold => exact Due.kept (Or.inr (Or.inl (Nat.succ_pos _))) fun _ => Nat.succ_pos _
  | clearFlag =>
    dsimp only [State.step]
    split_ifs
    · exact Due.kept (Or.inr (Or.inr (Nat.succ_pos _))) fun hflag => by cases hflag
    · exact h
  | dropped =>
    dsimp only [State.step]
    split_ifs
    · exact Due.kept (Or.inl rfl) h.flag
    · exact h
  | onSubscribe id =>
    dsimp only [State.step]
    split_ifs
    · exact h
    · exact ⟨h.flag, h.heard, h.told, h.sending, h.swapping⟩
  | onUnsubscribe id => exact h.onUnsubscribe id
  | service displays => exact h.service displays

omit [DecidableEq κ] in
theorem tells (h : Kept s) : Told s := by
  intro hnot hsynced hheld hdropping id hid
  rcases h.told hnot id hid with (hdue | hdue | hdue) | hknows
  · rw [hsynced] at hdue
    cases hdue
  · exact absurd hdue (by rw [hheld]; exact Nat.lt_irrefl 0)
  · exact absurd hdue (by rw [hdropping]; exact Nat.lt_irrefl 0)
  · exact hknows

omit [DecidableEq κ] in
theorem start (displays : List κ) (isSynced : Bool) : Kept { displays, isSynced } where
  flag := fun hflag => by cases hflag
  heard := fun _ => Or.inr (Or.inr rfl)
  told := fun _ _ hid => absurd hid List.not_mem_nil
  sending := fun _ hphase => by cases hphase
  swapping := fun _ hphase => by cases hphase

end Kept

end

/-- No change of the displays is lost, whoever finds it and whatever guards are held: when nothing more
is due, the subscribers know the displays. -/
theorem displays_told [DecidableEq κ] (displays : List κ) (isSynced : Bool) (es : List (Event κ)) :
    Throughout State.step Told { displays, isSynced } es := by
  have hstep : ∀ (s : State κ) (e : Event κ), Kept s → Kept (s.step e) := fun _ e h => h.step e
  exact History.throughout_imp (fun _ h => Kept.tells h)
    (History.throughout_of_step hstep (Kept.start displays isSynced) es)

end RustDesk.DisplaySync
