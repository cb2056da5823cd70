import RustDesk.History
import RustDesk.Message

/-!
# The rounds of a session

Every attempt to connect is a round with a loop of its own. `reconnect` starts another one and tells the
loop before it to close, which may take its time: until it has, both run, and only the newer one may say
whether the session is connected.
-/

namespace RustDesk.ConnectionRounds

open History (run Guarded Throughout)

inductive ConnectionState
  | connecting
  | connected
  | disconnected
  deriving DecidableEq, Repr

structure ConnectionRoundState where
  round : BitVec 32 := 0
  state : ConnectionState := .connecting
  deriving DecidableEq, Repr

namespace ConnectionRoundState

variable (s : ConnectionRoundState)

def newRound : ConnectionRoundState := { round := s.round + 1, state := .connecting }

def setConnected : ConnectionRoundState := { s with state := .connected }

/-- The round after the largest is `0`. -/
def isRoundGt (round : BitVec 32) : Bool :=
  if round = BitVec.allOnes 32 && s.round = 0 then true else round < s.round

def setDisconnected (round : BitVec 32) : ConnectionRoundState × Bool :=
  if s.isRoundGt round then (s, false) else ({ s with state := .disconnected }, true)

end ConnectionRoundState

/-- A loop is `pending` while `reconnect` has not made its thread, and `started` when its sender is that of
the session. -/
inductive Stage
  | pending
  | spawned
  | started
  | connected
  | ended
  deriving DecidableEq, Repr

/-- `thread` is there after the first `reconnect`. `closed` are the loops that `Data::Close` was sent to, and
`stops` those that stopped the clipboard when they ended, with the newest round then. -/
structure Session where
  rounds : ConnectionRoundState := {}
  thread : Bool := false
  sender : Option (BitVec 32) := none
  loops : BitVec 32 → Option Stage := fun _ => none
  closed : List (BitVec 32) := []
  stops : List (BitVec 32 × BitVec 32) := []

inductive Event
  | sessionStart
  | reconnect
  | spawns (round : BitVec 32)
  | registers (round : BitVec 32)
  | connects (round : BitVec 32)
  | leaves (round : BitVec 32)
  | close
  deriving DecidableEq, Repr

namespace Session

variable (s : Session)

def setLoop (round : BitVec 32) (stage : Stage) : Session :=
  { s with loops := fun r => if r = round then some stage else s.loops r }

/-- `send(Data::Close)` -/
def sendClose : Session :=
  match s.sender with
  | some round => { s with closed := round :: s.closed }
  | none => s

def newRound (stage : Stage) : Session :=
  { s with rounds := s.rounds.newRound }.setLoop s.rounds.newRound.round stage

/-- What `reconnect` does while it has the lock. -/
def reconnect : Session :=
  if s.thread then
    match s.rounds.state with
    | .connecting => s
    | .connected => s.sendClose.newRound .pending
    | .disconnected => s.newRound .pending
  else s.newRound .pending

def handleDisconnected (round : BitVec 32) : Session :=
  let (rounds, setDisconnectedOk) := s.rounds.setDisconnected round
  { s with rounds, stops := if setDisconnectedOk then (round, rounds.round) :: s.stops else s.stops }

def step : Event → Session
  | .sessionStart => s.newRound .spawned
  | .reconnect => s.reconnect
  | .spawns round =>
    if s.loops round = some .pending then { s with thread := true }.setLoop round .spawned else s
  | .registers round =>
    if s.loops round = some .spawned then { s with sender := some round }.setLoop round .started else s
  | .connects round =>
    if s.loops round = some .started then { s with rounds := s.rounds.setConnected }.setLoop round .connected
    else s
  | .leaves round =>
    if s.loops round = some .started ∨ s.loops round = some .connected then
      (s.handleDisconnected round).setLoop round .ended
    else s
  | .close => s.sendClose

/-- The rounds are not used up. A round begins when there was none before or the last one is disconnected,
unless `reconnect` begins it and finds a thread: without one it can not know about a round of `session_start_`,
or of another `reconnect` that has not made its thread. -/
def Allowed : Event → Prop
  | .sessionStart =>
    s.rounds.round ≠ BitVec.allOnes 32 ∧ (s.rounds.round = 0 ∨ s.rounds.state = .disconnected)
  | .reconnect =>
    s.rounds.round ≠ BitVec.allOnes 32 ∧ (s.thread ∨ s.rounds.round = 0 ∨ s.rounds.state = .disconnected)
  | _ => True

instance : ∀ e, Decidable (s.Allowed e)
  | .sessionStart | .reconnect => inferInstanceAs (Decidable (_ ∧ _))
  | .spawns _ | .registers _ | .connects _ | .leaves _ | .close => .isTrue trivial

/-- The loop goes on, and has not been told to close. -/
def Active (round : BitVec 32) : Prop :=
  ∃ stage, s.loops round = some stage ∧ stage ≠ .ended ∧ round ∉ s.closed

/-- The state is that of the loop of the newest round. -/
def Describes (stage : Option Stage) : ConnectionState → Prop
  | .connecting => stage = some .pending ∨ stage = some .spawned ∨ stage = some .started
  | .connected => stage = some .connected
  | .disconnected => stage = some .ended

/-- An older loop is not active, does not say what the state is, and leaves the clipboard alone. -/
structure Sound : Prop where
  active : ∀ round, s.Active round → round = s.rounds.round
  newest : s.rounds.round ≠ 0 → Describes (s.loops s.rounds.round) s.rounds.state
  stops : ∀ p ∈ s.stops, p.1 = p.2

/-- An older loop has ended, or has been told to. -/
def Over (round : BitVec 32) : Prop :=
  ∀ stage, s.loops round = some stage → stage = .ended ∨ stage = .connected ∧ round ∈ s.closed

/-- The newest loop has the sender of the session once it has started. -/
structure Kept : Prop where
  older : ∀ round < s.rounds.round, s.Over round
  newest : s.rounds.round ≠ 0 → Describes (s.loops s.rounds.round) s.rounds.state
  later : ∀ round, s.rounds.round < round → s.loops round = none
  sender : s.loops s.rounds.round = some .started ∨ s.loops s.rounds.round = some .connected →
    s.sender = some s.rounds.round
  idle : s.loops 0 = none
  stops : ∀ p ∈ s.stops, p.1 = p.2

end Session

variable {s : Session}

theorem lt_or_eq_or_gt (a b : BitVec 32) : a < b ∨ a = b ∨ b < a := by
  rw [← BitVec.toNat_inj, BitVec.lt_def, BitVec.lt_def]
  exact Nat.lt_trichotomy _ _

namespace Session

theorem rounds_sendClose : s.sendClose.rounds = s.rounds := by
  unfold sendClose
  split <;> rfl

theorem loops_sendClose : s.sendClose.loops = s.loops := by
  unfold sendClose
  split <;> rfl

theorem mem_closed_sendClose {round : BitVec 32} (h : s.sender = some round) :
    round ∈ s.sendClose.closed := by
  unfold sendClose
  rw [h]
  exact List.mem_cons_self

theorem isRoundGt_newest (s : ConnectionRoundState) (hround : s.round ≠ 0) : s.isRoundGt s.round = false := by
  unfold ConnectionRoundState.isRoundGt
  rw [decide_eq_false hround, Bool.and_false, if_neg Bool.false_ne_true]
  exact decide_eq_false (BitVec.lt_irrefl _)

theorem isRoundGt_older (s : ConnectionRoundState) {round : BitVec 32} (h : round < s.round) :
    s.isRoundGt round = true := by
  unfold ConnectionRoundState.isRoundGt
  split
  · rfl
  · exact decide_eq_true h

namespace Kept

theorem sound (h : s.Kept) : s.Sound where
  active := by
    rintro round ⟨stage, hstage, hended, hclosed⟩
    rcases lt_or_eq_or_gt round s.rounds.round with hlt | heq | hgt
    · rcases h.older round hlt stage hstage with rfl | ⟨-, hmem⟩
      · exact absurd rfl hended
      · exact absurd hmem hclosed
    · exact heq
    · rw [h.later round hgt] at hstage
      cases hstage
  newest := h.newest
  stops := h.stops

theorem sendClose (h : s.Kept) : s.sendClose.Kept := by
  unfold Session.sendClose
  split
  · refine ⟨fun round hlt stage hstage => ?_, h.newest, h.later, h.sender, h.idle, h.stops⟩
    exact (h.older round hlt stage hstage).imp_right fun hover => ⟨hover.1, List.mem_cons_of_mem _ hover.2⟩
  · exact h

/-- A round begins when the loop of the one before is over. -/
theorem newRound (h : s.Kept) (hround : s.rounds.round ≠ BitVec.allOnes 32) (hover : s.Over s.rounds.round)
    {stage : Stage} (hstage : stage = .pending ∨ stage = .spawned) : (s.newRound stage).Kept := by
  have hlt : s.rounds.round < s.rounds.round + 1 := by
    have hne : s.rounds.round.toNat ≠ 4294967295 := fun heq => hround (BitVec.eq_of_toNat_eq heq)
    bv_omega
  have hloop : (s.newRound stage).loops (s.rounds.round + 1) = some stage := if_pos rfl
  have hother : ∀ round, round ≠ s.rounds.round + 1 → (s.newRound stage).loops round = s.loops round :=
    fun round hne => if_neg hne
  refine ⟨fun round hlt' => ?_, fun _ => ?_, fun round hgt => ?_, fun hstarted => ?_, ?_, h.stops⟩
  · change round < s.rounds.round + 1 at hlt'
    have hle : round < s.rounds.round ∨ round = s.rounds.round := by bv_omega
    intro stage' hstage'
    rw [hother round (by bv_omega)] at hstage'
    rcases hle with hlt' | rfl
    · exact h.older round hlt' stage' hstage'
    · exact hover stage' hstage'
  · change Describes ((s.newRound stage).loops (s.rounds.round + 1)) .connecting
    rw [hloop]
    exact hstage.imp (congrArg some) fun hspawned => Or.inl (congrArg some hspawned)
  · change s.rounds.round + 1 < round at hgt
    rw [hother round (by bv_omega)]
    exact h.later round (by bv_omega)
  · change (s.newRound stage).loops (s.rounds.round + 1) = _ ∨
      (s.newRound stage).loops (s.rounds.round + 1) = _ at hstarted
    rw [hloop] at hstarted
    rcases hstage with rfl | rfl <;> rcases hstarted with hstarted | hstarted <;> cases hstarted
  · rw [hother 0 (by bv_omega)]
    exact h.idle

/-- What is over before `reconnect` finds out about it. -/
theorem over_of_disconnected (h : s.Kept) (hstart : s.rounds.round = 0 ∨ s.rounds.state = .disconnected) :
    s.Over s.rounds.round := by
  intro stage hstage
  by_cases hzero : s.rounds.round = 0
  · rw [hzero, h.idle] at hstage
    cases hstage
  · have hended := h.newest hzero
    rw [hstart.resolve_left hzero] at hended
    exact Or.inl (Option.some.inj (hstage.symm.trans hended))

theorem reconnect (h : s.Kept) (hallowed : s.Allowed .reconnect) : s.reconnect.Kept := by
  obtain ⟨hround, hstart⟩ := hallowed
  unfold Session.reconnect
  split
  · split
    · exact h
    · rename_i hconnected
      refine h.sendClose.newRound (rounds_sendClose (s := s) ▸ hround) ?_ (Or.inl rfl)
      -- the sender is that of the newest loop, which is connected
      rw [rounds_sendClose]
      intro stage hstage
      rw [loops_sendClose] at hstage
      by_cases hzero : s.rounds.round = 0
      · rw [hzero, h.idle] at hstage
        cases hstage
      · have hnewest := h.newest hzero
        rw [hconnected] at hnewest
        have hsender := h.sender (Or.inr hnewest)
        exact Or.inr ⟨Option.some.inj (hstage.symm.trans hnewest), mem_closed_sendClose hsender⟩
    · rename_i hdisconnected
      exact h.newRound hround (h.over_of_disconnected (Or.inr hdisconnected)) (Or.inl rfl)
  · rename_i hthread
    exact h.newRound hround (h.over_of_disconnected (hstart.resolve_left hthread)) (Or.inl rfl)

/-- Only the loop of the newest round has not been connected. -/
theorem eq_newest (h : s.Kept) {round : BitVec 32} {stage : Stage} (hstage : s.loops round = some stage)
    (hstarting : stage = .pending ∨ stage = .spawned ∨ stage = .started) : round = s.rounds.round := by
  rcases lt_or_eq_or_gt round s.rounds.round with hlt | heq | hgt
  · rcases h.older round hlt stage hstage with rfl | ⟨rfl, -⟩
    · simp at hstarting
    · simp at hstarting
  · exact heq
  · rw [h.later round hgt] at hstage
    cases hstage

theorem round_ne_zero (h : s.Kept) {stage : Stage} (hstage : s.loops s.rounds.round = some stage) :
    s.rounds.round ≠ 0 := by
  intro hzero
  rw [hzero, h.idle] at hstage
  cases hstage

theorem connecting (h : s.Kept) {stage : Stage} (hstage : s.loops s.rounds.round = some stage)
    (hstarting : stage = .pending ∨ stage = .spawned ∨ stage = .started) : s.rounds.state = .connecting := by
  have hnewest := h.newest (h.round_ne_zero hstage)
  rw [hstage] at hnewest
  generalize s.rounds.state = state at hnewest
  cases state with
  | connecting => rfl
  | connected =>
    obtain rfl := Option.some.inj hnewest
    simp at hstarting
  | disconnected =>
    obtain rfl := Option.some.inj hnewest
    simp at hstarting

/-- The newest loop goes on to its next stage. -/
theorem setNewest (h : s.Kept) {before after : Stage} (hbefore : s.loops s.rounds.round = some before)
    {s' : Session} (hloops : s'.loops = s.loops) (hround : s'.rounds.round = s.rounds.round)
    (hclosed : s'.closed = s.closed) (hstate : Describes (some after) s'.rounds.state)
    (hsender : after = .started ∨ after = .connected → s'.sender = some s.rounds.round)
    (hstops : ∀ p ∈ s'.stops, p.1 = p.2) : (s'.setLoop s.rounds.round after).Kept := by
  have hother : ∀ round, round ≠ s.rounds.round →
      (s'.setLoop s.rounds.round after).loops round = s.loops round :=
    fun round hne => (if_neg hne).trans (congrFun hloops round)
  have hself : (s'.setLoop s.rounds.round after).loops s.rounds.round = some after := if_pos rfl
  have hrounds : (s'.setLoop s.rounds.round after).rounds.round = s.rounds.round := hround
  refine ⟨fun round hlt => ?_, fun _ => ?_, fun round hgt => ?_, fun hstarted => ?_, ?_, hstops⟩
  · rw [hrounds] at hlt
    intro stage hstage
    rw [hother round (BitVec.ne_of_lt hlt)] at hstage
    change _ ∨ _ ∧ round ∈ s'.closed
    rw [hclosed]
    exact h.older round hlt stage hstage
  · rw [hrounds, hself]
    exact hstate
  · rw [hrounds] at hgt
    rw [hother round (BitVec.ne_of_lt hgt).symm]
    exact h.later round hgt
  · rw [hrounds, hself, Option.some.injEq, Option.some.injEq] at hstarted
    rw [hrounds]
    exact hsender hstarted
  · rw [hother 0 (h.round_ne_zero hbefore).symm]
    exact h.idle

/-- An older loop ends. -/
theorem endOlder (h : s.Kept) {round : BitVec 32} {stage : Stage} (hstage : s.loops round = some stage)
    (hlt : round < s.rounds.round) :
    (s.setLoop round .ended).Kept := by
  have hnewest : (s.setLoop round .ended).loops s.rounds.round = s.loops s.rounds.round :=
    if_neg (BitVec.ne_of_lt hlt).symm
  refine ⟨fun r hr stage hstage => ?_, fun hzero => ?_, fun r hr => ?_, fun hstarted => ?_, ?_, h.stops⟩
  · by_cases hround : r = round
    · exact Or.inl (Option.some.inj (hstage.symm.trans (if_pos hround)))
    · exact h.older r hr stage (hstage.symm.trans (if_neg hround)).symm
  · exact hnewest ▸ h.newest hzero
  · have hgt : s.rounds.round < r := hr
    exact (if_neg (by bv_omega)).trans (h.later r hr)
  · exact h.sender (hnewest ▸ hstarted)
  · have hne : (0 : BitVec 32) ≠ round := by
      rintro rfl
      rw [h.idle] at hstage
      cases hstage
    exact (if_neg hne).trans h.idle

theorem leaves (h : s.Kept) (round : BitVec 32) : (s.step (.leaves round)).Kept := by
  dsimp only [step]
  split
  · rename_i hlive
    obtain ⟨stage, hstage⟩ : ∃ stage, s.loops round = some stage := by
      rcases hlive with hlive | hlive <;> exact ⟨_, hlive⟩
    rcases lt_or_eq_or_gt round s.rounds.round with hlt | rfl | hgt
    · have holder : s.handleDisconnected round = s := by
        unfold handleDisconnected ConnectionRoundState.setDisconnected
        rw [isRoundGt_older s.rounds hlt]
        rfl
      rw [holder]
      exact h.endOlder hstage hlt
    · have hnewest : s.handleDisconnected s.rounds.round =
          { s with rounds := { s.rounds with state := .disconnected },
                   stops := (s.rounds.round, s.rounds.round) :: s.stops } := by
        unfold handleDisconnected ConnectionRoundState.setDisconnected
        rw [isRoundGt_newest s.rounds (h.round_ne_zero hstage)]
        rfl
      rw [hnewest]
      refine h.setNewest hstage rfl rfl rfl rfl (by simp) fun p hp => ?_
      rcases List.mem_cons.mp hp with rfl | hp
      · rfl
      · exact h.stops p hp
    · rw [h.later round hgt] at hstage
      cases hstage
  · exact h

theorem step (h : s.Kept) {e : Event} (hallowed : s.Allowed e) : (s.step e).Kept := by
  cases e with
  | sessionStart =>
    exact h.newRound hallowed.1 (h.over_of_disconnected hallowed.2) (Or.inr rfl)
  | reconnect => exact h.reconnect hallowed
  | spawns round =>
    dsimp only [Session.step]
    split
    · rename_i hpending
      have heq := h.eq_newest hpending (Or.inl rfl)
      subst heq
      have hstate : Describes (some .spawned) s.rounds.state := by
        rw [h.connecting hpending (Or.inl rfl)]
        exact Or.inr (Or.inl rfl)
      exact h.setNewest hpending rfl rfl rfl hstate (by simp) h.stops
    · exact h
  | registers round =>
    dsimp only [Session.step]
    split
    · rename_i hspawned
      have heq := h.eq_newest hspawned (Or.inr (Or.inl rfl))
      subst heq
      have hstate : Describes (some .started) s.rounds.state := by
        rw [h.connecting hspawned (Or.inr (Or.inl rfl))]
        exact Or.inr (Or.inr rfl)
      exact h.setNewest hspawned rfl rfl rfl hstate (fun _ => rfl) h.stops
    · exact h
  | connects round =>
    dsimp only [Session.step]
    split
    · rename_i hstarted
      have heq := h.eq_newest hstarted (Or.inr (Or.inr rfl))
      subst heq
      exact h.setNewest hstarted rfl rfl rfl rfl (fun _ => h.sender (Or.inl hstarted)) h.stops
    · exact h
  | leaves round => exact h.leaves round
  | close => exact h.sendClose

theorem start : ({} : Session).Kept where
  older _ hlt := absurd hlt (BitVec.not_lt_zero)
  newest hzero := absurd rfl hzero
  later _ _ := rfl
  sender h := by rcases h with h | h <;> cases h
  idle := rfl
  stops _ hp := absurd hp List.not_mem_nil

end Kept

end Session

/-- The first loop is connected, the second one takes over from it, and the first one ends while the third
one connects. -/
def slowLoops : List Event :=
  [.sessionStart, .registers 1, .connects 1, .leaves 1, .reconnect, .spawns 2, .reconnect, .registers 2,
   .connects 2, .reconnect, .spawns 3, .registers 3, .leaves 2, .connects 3]

/-- The first round has no thread: another one leaves its loop connected. -/
example : (run Session.step {} [.sessionStart, .registers 1, .connects 1, .reconnect]).closed = [] := by decide

end RustDesk.ConnectionRounds
