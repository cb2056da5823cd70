import RustDesk.TerminalService

/-!
# Ended sessions and the clean-up of `read_outputs`

`read_outputs` notes the ids of the sessions it finds ended and cleans them up by these ids,
in a copy of the map that it takes later. Between its steps the client may close a terminal,
open it again, or have a session moved to another id. `ReadWatch` runs beside the service and
keeps what the properties speak about: what the running call saw, what it sent, and for which
sessions a `TerminalClosed` has gone out.
-/

namespace RustDesk

open History

def TerminalResponse.terminalId : TerminalResponse → Int
  | .opened o => o.terminalId
  | .data d => d.terminalId
  | .closed c => c.terminalId

def TerminalResponse.isClosed : TerminalResponse → Bool
  | .closed _ => true
  | _ => false

def TerminalEvent.isRead : TerminalEvent → Bool
  | .newProxy | .snapshot | .poll _ _ | .endPolls | .cleanUp _ => true
  | _ => false

/-- The service, and a record of the latest call of `read_outputs`: its snapshot, the sessions
it found ended with their ids, and its responses, each with the session it is about. `answered`
are the sessions whose `handle_close` was answered, `closings` those of all `TerminalClosed`. -/
structure ReadWatch where
  state : TerminalState
  snapshot : SessionMap := ∅
  ended : List (Int × Nat) := []
  emitted : List (TerminalResponse × Option Nat) := []
  answered : List Nat := []
  closings : List Nat := []

namespace TerminalState

/-- The responses that a step of `read_outputs` has added. -/
def newResponses (s s' : TerminalState) : List TerminalResponse :=
  (s'.sent ++ s'.responses).drop (s.sent ++ s.responses).length

/-- The session that a step of `read_outputs` finds ended. -/
def foundEnded (s : TerminalState) : TerminalEvent → Option (Int × Nat)
  | .poll id (some o) =>
    match s.turn id with
    | some x => if (s.session x).shouldSendClosed o then some (id, x) else none
    | none => none
  | _ => none

/-- The session for which `handle_close` sends a `TerminalClosed`. -/
def closedByClient (s : TerminalState) : TerminalEvent → Option Nat
  | .handleClose id killed =>
    match (s.handleClose id killed).2 with
    | .ok (some _) => s.registered id
    | _ => none
  | _ => none

end TerminalState

namespace ReadWatch

def start (s : TerminalState) : ReadWatch where
  state := s

/-- The session that a response is about: the one polled, or the one found ended. -/
def subject (w : ReadWatch) (e : TerminalEvent) (r : TerminalResponse) : Option Nat :=
  match e with
  | .poll id _ => w.state.turn id
  | _ => w.ended.lookup r.terminalId

def step (z : Zstd) (w : ReadWatch) (e : TerminalEvent) : ReadWatch :=
  let state := w.state.step z e
  match e, w.state.reader with
  | .snapshot, .ready _ =>
    { w with state, snapshot := w.state.service.sessions.map, ended := [], emitted := [] }
  | _, _ =>
    let fresh := (w.state.newResponses state).map fun r => (r, w.subject e r)
    let client := (w.state.closedByClient e).toList
    { w with
      state
      ended := w.ended ++ (w.state.foundEnded e).toList
      emitted := w.emitted ++ fresh
      answered := w.answered ++ client
      closings := w.closings ++ client ++
        (fresh.filter fun p => p.1.isClosed).filterMap Prod.snd }

/-- A step of `read_outputs` removes a session from the service, or takes its child, only if
the same call has found the session ended. -/
def Harmless (z : Zstd) (w : ReadWatch) (e : TerminalEvent) : Prop :=
  e.isRead → ∀ x,
    ((∃ id, w.state.registered id = some x) ∧
        ¬ ∃ id, (w.state.step z e).registered id = some x) ∨
      ((w.state.session x).child = true ∧ ((w.state.step z e).session x).child = false) →
    ∃ id, (id, x) ∈ w.ended

/-- Every response of the call carries an id under which its session was registered when the
call began, and no session has more than one `TerminalClosed`. -/
def Faithful (w : ReadWatch) : Prop :=
  (∀ p ∈ w.emitted, ∃ x, p.2 = some x ∧ w.snapshot.lookup p.1.terminalId = some x) ∧
    w.closings.Nodup

end ReadWatch

/-- The ids that `read_outputs` has noted and not yet taken out of the service, as far as it
will look for them there. -/
def ReadPhase.Awaits (id : Int) : ReadPhase → Prop
  | .polling _ _ closed => id ∈ closed
  | .cleaning _ copy closed => id ∈ closed ∧ id ∈ copy
  | .taking copy _ _ closed => id ∈ closed ∧ id ∈ copy
  | .removing copy current _ closed => id = current ∨ id ∈ closed ∧ id ∈ copy
  | _ => False

instance (id : Int) (phase : ReadPhase) : Decidable (phase.Awaits id) := by
  unfold ReadPhase.Awaits
  split <;> infer_instance

/-- `handle_open` registers no session under an id that is awaited; `handle_close` answers for
no session that was already found ended; and `read_outputs` finds no session ended that
`handle_close` has answered for, or whose id belongs to another session by now. -/
def ReadWatch.Orderly (w : ReadWatch) : TerminalEvent → Prop
  | .handleOpen request spawn =>
    w.state.registered request.terminalId = none →
      ((w.state.handleOpen request spawn).1.registered request.terminalId).isSome →
      ¬ w.state.reader.Awaits request.terminalId
  | .handleClose id killed =>
    ∀ x ∈ w.state.closedByClient (.handleClose id killed),
      (w.state.session x).closedMessageSent = false
  | .poll id sighting =>
    ∀ p ∈ w.state.foundEnded (.poll id sighting),
      p.2 ∉ w.answered ∧ ∀ y ∈ w.state.registered p.1, y = p.2
  | _ => True

instance (w : ReadWatch) (e : TerminalEvent) : Decidable (w.Orderly e) := by
  unfold ReadWatch.Orderly
  split <;> infer_instance

/-- Every step of the run keeps to what `read_outputs` may do. -/
def ReadSound (z : Zstd) (s : TerminalState) (events : List TerminalEvent) : Prop :=
  Guarded (ReadWatch.step z) (ReadWatch.Harmless z) (ReadWatch.start s) events ∧
    Throughout (ReadWatch.step z) ReadWatch.Faithful (ReadWatch.start s) events

namespace TerminalClosing

open ReadWatch

/-- The ids that `read_outputs` has noted and not yet answered for. -/
def pending : ReadPhase → List Int
  | .polling _ _ closed => closed
  | .cleaning _ _ closed => closed
  | .taking _ id _ closed => id :: closed
  | .removing _ id _ closed => id :: closed
  | _ => []

/-- The session that the clean-up of an id will act on. -/
def Copied (i : Int) (x : Nat) : ReadPhase → Prop
  | .cleaning _ copy closed => i ∈ closed ∧ copy.lookup i = some x
  | .taking copy id y closed => i = id ∧ x = y ∨ i ∈ closed ∧ copy.lookup i = some x
  | .removing copy _ _ closed => i ∈ closed ∧ copy.lookup i = some x
  | _ => False

structure Inv (w : ReadWatch) : Prop where
  injective : ∀ i j x, w.snapshot.lookup i = some x → w.snapshot.lookup j = some x → i = j
  below : ∀ i x, w.snapshot.lookup i = some x → x < w.state.service.sessions.next
  ended : ∀ i x, (i, x) ∈ w.ended → w.snapshot.lookup i = some x
  noted : ∀ i x, (i, x) ∈ w.ended → (w.state.session x).closedMessageSent = true
  turn : ∀ i x, w.state.turn i = some x → w.snapshot.lookup i = some x ∧ ∀ y, (i, y) ∉ w.ended
  pending : ∀ i ∈ pending w.state.reader, ∃ x, (i, x) ∈ w.ended ∧ x ∉ w.closings
  nodup : (TerminalClosing.pending w.state.reader).Nodup
  copied : ∀ i x, Copied i x w.state.reader → (i, x) ∈ w.ended
  awaited : ∀ i x, w.state.reader.Awaits i → w.state.registered i = some x → (i, x) ∈ w.ended
  emitted : ∀ p ∈ w.emitted, ∃ x, p.2 = some x ∧ w.snapshot.lookup p.1.terminalId = some x
  closings : w.closings.Nodup
  closed : ∀ x ∈ w.closings, x ∈ w.answered ∨ (w.state.session x).closedMessageSent = true
  known : ∀ x ∈ w.closings, x < w.state.service.sessions.next
  answered : ∀ x ∈ w.answered, x < w.state.service.sessions.next ∧
    (w.state.session x).closedMessageSent = false ∧ ∀ i, w.state.registered i ≠ some x

theorem inv_start {s : TerminalState} (hidle : s.reader = .idle) : Inv (start s) := by
  constructor <;>
    simp [start, hidle, TerminalClosing.pending, Copied, ReadPhase.Awaits, TerminalState.turn]

variable {z : Zstd} {w : ReadWatch} {s s' : TerminalState} {e : TerminalEvent}

theorem newResponses_append {new : List TerminalResponse}
    (h : s'.sent ++ s'.responses = s.sent ++ s.responses ++ new) : s.newResponses s' = new := by
  rw [TerminalState.newResponses, h, List.drop_left]

theorem newResponses_nil (hsent : s'.sent = s.sent) (hresponses : s'.responses = s.responses) :
    s.newResponses s' = [] :=
  newResponses_append (by rw [hsent, hresponses, List.append_nil])

/-- A step of the client, or of a shell: it may register a session that was registered before
or a new one, under an id that is not awaited. -/
structure Outside (s s' : TerminalState) : Prop where
  reader : s'.reader = s.reader
  sent : s'.sent = s.sent
  responses : s'.responses = s.responses
  next : s.service.sessions.next ≤ s'.service.sessions.next
  flag : ∀ x < s.service.sessions.next,
    (s'.session x).closedMessageSent = (s.session x).closedMessageSent
  registered : ∀ i x, s'.registered i = some x → s.registered i = some x ∨
    ¬ s.reader.Awaits i ∧ (s.service.sessions.next ≤ x ∨ ∃ j, s.registered j = some x)

theorem Inv.outside (h : Inv w) (hout : Outside w.state s') : Inv { w with state := s' } where
  injective := h.injective
  below i x hi := (h.below i x hi).trans_le hout.next
  ended := h.ended
  noted i x hi := by
    rw [hout.flag x (h.below i x (h.ended i x hi))]
    exact h.noted i x hi
  turn i x hi := by
    refine h.turn i x ?_
    rw [← hi]
    simp only [TerminalState.turn, hout.reader]
  pending := by
    rw [hout.reader]
    exact h.pending
  nodup := by
    rw [hout.reader]
    exact h.nodup
  copied := by
    rw [hout.reader]
    exact h.copied
  awaited i x ha hi := by
    rw [hout.reader] at ha
    rcases hout.registered i x hi with hi | ⟨hnot, -⟩
    · exact h.awaited i x ha hi
    · exact absurd ha hnot
  emitted := h.emitted
  closings := h.closings
  closed x hx := by
    rw [hout.flag x (h.known x hx)]
    exact h.closed x hx
  known x hx := (h.known x hx).trans_le hout.next
  answered x hx := by
    obtain ⟨hlt, hflag, hnone⟩ := h.answered x hx
    refine ⟨hlt.trans_le hout.next, by rw [hout.flag x hlt]; exact hflag, ?_⟩
    intro i hi
    rcases hout.registered i x hi with hi | ⟨-, hge | ⟨j, hj⟩⟩
    · exact hnone i hi
    · exact absurd hlt (by omega)
    · exact hnone j hj

theorem outside_refl (s : TerminalState) : Outside s s :=
  ⟨rfl, rfl, rfl, le_rfl, fun _ _ => rfl, fun _ _ hi => Or.inl hi⟩

theorem outside_remap (s : TerminalState) (id : Int) (hid : s.registered id = none →
    ((s.remap id).registered id).isSome → ¬ s.reader.Awaits id) : Outside s (s.remap id) := by
  rcases s.remap_cases id with heq | ⟨hnone, lowest, heq⟩
  · rw [heq]
    exact outside_refl s
  · refine ⟨by rw [heq]; rfl, by rw [heq]; rfl, by rw [heq]; rfl,
      by rw [heq]; exact (Sessions.next_move ..).ge, fun x _ => by rw [heq]; rfl, ?_⟩
    intro i x hi
    have hi' := hi
    rw [heq] at hi'
    rcases Sessions.lookup_move hi' with hold | ⟨rfl, hsource⟩
    · exact Or.inl hold
    · refine Or.inr ⟨hid hnone ?_, Or.inr ⟨lowest, hsource⟩⟩
      rw [hi]
      rfl

/-- A session object changes, but not whether its end has been noted. -/
theorem outside_setSession {x : Nat} {v : TerminalSession}
    (hv : x < s.service.sessions.next → v.closedMessageSent = (s.session x).closedMessageSent) :
    Outside s (s.setSession x v) := by
  refine ⟨rfl, rfl, rfl, le_rfl, ?_, fun _ _ hi => Or.inl hi⟩
  intro y hy
  rw [TerminalState.setSession_session]
  split_ifs with hyx
  · subst hyx
    exact hv hy
  · rfl

theorem outside_erase (s : TerminalState) (id : Int) :
    Outside s (s.setSessions (s.service.sessions.erase id)) :=
  ⟨rfl, rfl, rfl, le_rfl, fun _ _ => rfl, fun _ _ hi => Or.inl (Sessions.lookup_erase_eq_some.mp hi).2⟩

theorem Outside.trans {s₁ s₂ : TerminalState} (h : Outside s s₁) (h' : Outside s₁ s₂) :
    Outside s s₂ where
  reader := h'.reader.trans h.reader
  sent := h'.sent.trans h.sent
  responses := h'.responses.trans h.responses
  next := h.next.trans h'.next
  flag x hx := (h'.flag x (hx.trans_le h.next)).trans (h.flag x hx)
  registered i x hi := by
    rcases h'.registered i x hi with hi | ⟨hnot, hx⟩
    · exact h.registered i x hi
    · rw [h.reader] at hnot
      refine Or.inr ⟨hnot, ?_⟩
      rcases hx with hge | ⟨j, hj⟩
      · exact Or.inl (h.next.trans hge)
      · rcases h.registered j x hj with hj | ⟨-, hx⟩
        · exact Or.inr ⟨j, hj⟩
        · exact hx

theorem outside_handleOpen {request : OpenTerminal} {spawn : SpawnResult}
    (hid : s.registered request.terminalId = none →
      ((s.handleOpen request spawn).1.registered request.terminalId).isSome →
      ¬ s.reader.Awaits request.terminalId) : Outside s (s.handleOpen request spawn).1 := by
  cases hreg : (s.remap request.terminalId).registered request.terminalId with
  | some x =>
    rw [TerminalState.handleOpen_reconnect spawn hreg] at hid ⊢
    have hremap : Outside s (s.remap request.terminalId) :=
      outside_remap s _ fun hnone _ => hid hnone (by
        change ((s.remap request.terminalId).registered request.terminalId).isSome
        rw [hreg]
        rfl)
    have hset : Outside (s.remap request.terminalId) ((s.remap request.terminalId).setSession x
        (s.session x).reconnect) := outside_setSession fun _ => by
      rcases s.remap_cases request.terminalId with heq | ⟨-, lowest, heq⟩ <;> rw [heq] <;> rfl
    have hboth := hremap.trans hset
    exact ⟨hboth.reader, hboth.sent, hboth.responses, hboth.next, hboth.flag, hboth.registered⟩
  | none =>
    have hremap : Outside s (s.remap request.terminalId) :=
      outside_remap s _ fun _ hsome => by rw [hreg] at hsome; exact absurd hsome nofun
    cases spawn with
    | error message =>
      rw [TerminalState.handleOpen_error hreg]
      exact hremap
    | ok pid =>
      have hnone : s.registered request.terminalId = none := by
        rcases s.remap_cases request.terminalId with heq | ⟨hnone, -⟩
        · rw [← hreg, heq]
        · exact hnone
      rw [TerminalState.handleOpen_new hreg] at hid ⊢
      have hfree : ¬ s.reader.Awaits request.terminalId := by
        refine hid hnone (Option.isSome_iff_exists.mpr ⟨_, Finmap.lookup_insert _⟩)
      refine hremap.trans ⟨rfl, rfl, rfl, Nat.le_succ _, ?_, ?_⟩
      · intro x hx
        have hne : x ≠ (s.remap request.terminalId).service.sessions.next := by omega
        exact congrArg _ (Function.update_of_ne hne ..)
      · intro i x hi
        rcases Sessions.lookup_insert_eq_some.mp hi with ⟨rfl, rfl⟩ | ⟨-, hi⟩
        · exact Or.inr ⟨by rw [hremap.reader]; exact hfree, Or.inl le_rfl⟩
        · exact Or.inl hi

theorem outside_handleClose (id : Int) (killed : Except String Unit) :
    Outside s (s.handleClose id killed).1 := by
  unfold TerminalState.handleClose
  cases hreg : s.registered id with
  | none => exact outside_refl s
  | some x => exact (outside_erase s id).trans (outside_setSession fun _ => rfl)

theorem outside_step (horder : w.Orderly e) (hread : e.isRead = false) :
    Outside w.state (w.state.step z e) := by
  cases e with
  | handleOpen request spawn => exact outside_handleOpen horder
  | handleClose id killed => exact outside_handleClose id killed
  | resetStatus isPersistent =>
    refine ⟨rfl, rfl, rfl, le_rfl, fun x _ => ?_, fun _ _ hi => Or.inl hi⟩
    simp only [TerminalState.step, TerminalState.resetStatus, TerminalState.session]
    split_ifs <;> rfl
  | setPersistent isPersistent =>
    exact ⟨rfl, rfl, rfl, le_rfl, fun _ _ => rfl, fun _ _ hi => Or.inl hi⟩
  | output x data =>
    refine outside_setSession fun _ => ?_
    unfold TerminalSession.trySendOutput
    split
    · split_ifs <;> rfl
    · rfl
  | newProxy | snapshot | poll | endPolls | cleanUp => exact absurd hread nofun

/-- `handle_close` takes the session it answers for out of the service. -/
theorem closedByClient_spec {x : Nat} (h : s.closedByClient e = some x) :
    (∃ i, s.registered i = some x) ∧ ∀ i, (s.step z e).registered i ≠ some x := by
  unfold TerminalState.closedByClient at h
  split at h
  case h_1 id killed =>
    have hreg : s.registered id = some x := by
      split at h
      · exact h
      · exact absurd h nofun
    refine ⟨⟨id, hreg⟩, ?_⟩
    intro i hi
    simp only [TerminalState.step, TerminalState.handleClose, hreg] at hi
    obtain ⟨hne, hi⟩ := Sessions.lookup_erase_eq_some.mp hi
    exact hne (s.service.sessions.distinct i id x hi hreg)
  case h_2 => exact absurd h nofun

/-- `handle_close` answers for a session that has not been found ended. -/
theorem Inv.answer {x : Nat} (h : Inv w) (hlt : x < w.state.service.sessions.next)
    (hflag : (w.state.session x).closedMessageSent = false)
    (hgone : ∀ i, w.state.registered i ≠ some x) (hnew : x ∉ w.answered) :
    Inv { w with answered := w.answered ++ [x], closings := w.closings ++ [x] } := by
  have hclosings : x ∉ w.closings := by
    intro hx
    rcases h.closed x hx with hans | hset
    · exact hnew hans
    · rw [hflag] at hset
      exact absurd hset nofun
  refine { h with pending := ?_, closings := ?_, closed := ?_, known := ?_, answered := ?_ }
  · intro i hi
    obtain ⟨y, hy, hyc⟩ := h.pending i hi
    refine ⟨y, hy, ?_⟩
    rw [List.mem_append, List.mem_singleton, not_or]
    refine ⟨hyc, ?_⟩
    rintro rfl
    rw [h.noted i y hy] at hflag
    exact absurd hflag nofun
  · have hconcat := h.closings.concat hclosings
    rwa [List.concat_eq_append] at hconcat
  · intro y hy
    rcases List.mem_append.mp hy with hy | hy
    · exact (h.closed y hy).imp_left (List.mem_append_left [x])
    · exact Or.inl (List.mem_append_right _ hy)
  · intro y hy
    rcases List.mem_append.mp hy with hy | hy
    · exact h.known y hy
    · rw [List.mem_singleton.mp hy]
      exact hlt
  · intro y hy
    rcases List.mem_append.mp hy with hy | hy
    · exact h.answered y hy
    · rw [List.mem_singleton.mp hy]
      exact ⟨hlt, hflag, hgone⟩

/-- The record of a step that sends nothing and finds no session ended. -/
theorem step_quiet (hfirst : ∀ p, ¬ (e = .snapshot ∧ w.state.reader = .ready p))
    (hnew : w.state.newResponses (w.state.step z e) = []) (hfound : w.state.foundEnded e = none) :
    w.step z e = { w with
      state := w.state.step z e
      answered := w.answered ++ (w.state.closedByClient e).toList
      closings := w.closings ++ (w.state.closedByClient e).toList } := by
  unfold ReadWatch.step
  split
  case h_1 p hreader => exact absurd ⟨rfl, hreader⟩ (hfirst p)
  case h_2 => simp [hnew, hfound]

theorem step_state (hfirst : ∀ p, ¬ (e = .snapshot ∧ w.state.reader = .ready p))
    (hnew : w.state.newResponses (w.state.step z e) = []) (hfound : w.state.foundEnded e = none)
    (hread : e.isRead = true) : w.step z e = { w with state := w.state.step z e } := by
  have hclient : w.state.closedByClient e = none := by
    cases e <;> first | rfl | exact absurd hread nofun
  rw [step_quiet hfirst hnew hfound, hclient]
  simp

theorem inv_outside_step (h : Inv w) (horder : w.Orderly e) (hread : e.isRead = false) :
    Inv (w.step z e) := by
  have hout := outside_step (z := z) horder hread
  have hfound : w.state.foundEnded e = none := by
    cases e <;> first | rfl | exact absurd hread nofun
  rw [step_quiet (by rintro p ⟨rfl, -⟩; exact absurd hread nofun)
    (newResponses_nil hout.sent hout.responses) hfound]
  cases hclient : w.state.closedByClient e with
  | none => simpa using h.outside hout
  | some x =>
    obtain ⟨⟨i, hi⟩, hgone⟩ := closedByClient_spec (z := z) hclient
    have hlt := w.state.service.sessions.below i x hi
    have hflag : (w.state.session x).closedMessageSent = false := by
      cases e with
      | handleClose id killed => exact horder x hclient
      | _ => exact absurd hclient nofun
    refine (h.outside hout).answer (hlt.trans_le hout.next) ?_ hgone fun hx => ?_
    · change ((w.state.step z e).session x).closedMessageSent = false
      rw [hout.flag x hlt]
      exact hflag
    · exact (h.answered x hx).2.2 i hi

/-- The thread of `read_outputs` goes on; what it has still to do was to be done before. -/
theorem Inv.setReader (h : Inv w) {phase : ReadPhase}
    (hturn : ∀ i x, ({ w.state with reader := phase } : TerminalState).turn i = some x →
      w.state.turn i = some x)
    (hpending : (TerminalClosing.pending phase).Sublist (TerminalClosing.pending w.state.reader))
    (hcopied : ∀ i x, Copied i x phase → (i, x) ∈ w.ended)
    (hawaited : ∀ i x, phase.Awaits i → w.state.registered i = some x → (i, x) ∈ w.ended) :
    Inv { w with state := { w.state with reader := phase } } :=
  { h with
    turn := fun i x hi => h.turn i x (hturn i x hi)
    pending := fun i hi => h.pending i (hpending.subset hi)
    nodup := h.nodup.sublist hpending
    copied := hcopied
    awaited := hawaited }

/-- `read_outputs` is done with all ids. -/
theorem Inv.rest (h : Inv w) {phase : ReadPhase} (hphase : phase = .idle ∨ ∃ p, phase = .ready p) :
    Inv { w with state := { w.state with reader := phase } } := by
  apply h.setReader
  · intro i x hi
    rcases hphase with rfl | ⟨p, rfl⟩ <;> simp [TerminalState.turn] at hi
  · rcases hphase with rfl | ⟨p, rfl⟩ <;> exact List.nil_sublist _
  · intro i x hc
    rcases hphase with rfl | ⟨p, rfl⟩ <;> exact absurd hc not_false
  · intro i x ha
    rcases hphase with rfl | ⟨p, rfl⟩ <;> exact absurd ha not_false

theorem Inv.lookup_ended {i : Int} {x : Nat} (h : Inv w) (hx : (i, x) ∈ w.ended) :
    w.ended.lookup i = some x := by
  cases hy : w.ended.lookup i with
  | none =>
    have := List.lookup_eq_none_iff.mp hy (i, x) hx
    simp at this
  | some y =>
    obtain ⟨before, after, hsplit, -⟩ := List.lookup_eq_some_iff.mp hy
    have hmem : (i, y) ∈ w.ended := by simp [hsplit]
    rw [← h.ended i y hmem, h.ended i x hx]

/-- `read_outputs` answers for a session it has found ended. -/
theorem Inv.close {i : Int} {x : Nat} (h : Inv w) (hx : (i, x) ∈ w.ended) (hnew : x ∉ w.closings)
    (hdone : i ∉ TerminalClosing.pending w.state.reader) {r : TerminalResponse}
    (hr : r.terminalId = i) :
    Inv { w with emitted := w.emitted ++ [(r, some x)], closings := w.closings ++ [x] } := by
  have hlookup := h.ended i x hx
  refine { h with pending := ?_, emitted := ?_, closings := ?_, closed := ?_, known := ?_ }
  · intro j hj
    obtain ⟨y, hy, hyc⟩ := h.pending j hj
    refine ⟨y, hy, ?_⟩
    rw [List.mem_append, List.mem_singleton, not_or]
    refine ⟨hyc, ?_⟩
    rintro rfl
    have hij := h.injective i j y hlookup (h.ended j y hy)
    exact hdone (hij ▸ hj)
  · intro p hp
    rcases List.mem_append.mp hp with hp | hp
    · exact h.emitted p hp
    · rw [List.mem_singleton.mp hp]
      exact ⟨x, rfl, by rw [hr]; exact hlookup⟩
  · have hconcat := h.closings.concat hnew
    rwa [List.concat_eq_append] at hconcat
  · intro y hy
    rcases List.mem_append.mp hy with hy | hy
    · exact h.closed y hy
    · rw [List.mem_singleton.mp hy]
      exact Or.inr (h.noted i x hx)
  · intro y hy
    rcases List.mem_append.mp hy with hy | hy
    · exact h.known y hy
    · rw [List.mem_singleton.mp hy]
      exact h.below i x hlookup

theorem Inv.setResponses (h : Inv w) (responses sent : List TerminalResponse) :
    Inv { w with state := { w.state with responses, sent } } :=
  { h with turn := h.turn }

theorem inv_returnResponses (h : Inv w) : Inv { w with state := w.state.returnResponses } :=
  (h.rest (Or.inl rfl)).setResponses ..

theorem newResponses_cleaned {s₁ : TerminalState} (hsent : s₁.sent = s.sent)
    (hresponses : s₁.responses = s.responses) (persistent : Bool) (copy : SessionMap)
    (closed : List Int) (id exitCode : Int) :
    s.newResponses (s₁.cleaned persistent copy closed id exitCode) =
      [.closed { terminalId := id, exitCode }] := by
  apply newResponses_append
  simp [TerminalState.cleaned, TerminalState.respond, hsent, hresponses]

/-- The record of a step that sends a `TerminalClosed` for a session found ended. -/
theorem step_cleaned {wait : WaitResult} {id exitCode : Int} {x : Nat} {persistent : Bool}
    {copy : SessionMap} {closed : List Int} {s₁ : TerminalState} (h : Inv w)
    (hx : (id, x) ∈ w.ended)
    (hclean : w.state.cleanUp wait = s₁.cleaned persistent copy closed id exitCode)
    (hsent : s₁.sent = w.state.sent) (hresponses : s₁.responses = w.state.responses) :
    w.step z (.cleanUp wait) = { w with
      state := s₁.cleaned persistent copy closed id exitCode
      emitted := w.emitted ++ [(.closed { terminalId := id, exitCode }, some x)]
      closings := w.closings ++ [x] } := by
  have hsubject : w.subject (.cleanUp wait) (.closed { terminalId := id, exitCode }) = some x :=
    h.lookup_ended hx
  have hnew := newResponses_cleaned hsent hresponses persistent copy closed id exitCode
  simp [ReadWatch.step, TerminalState.step, hclean, hnew, hsubject, TerminalState.foundEnded,
    TerminalState.closedByClient, TerminalResponse.isClosed]

theorem Inv.cleaned {id : Int} {x : Nat} {closed : List Int} {copy : SessionMap} (h : Inv w)
    (hpending : TerminalClosing.pending w.state.reader = id :: closed) (hx : (id, x) ∈ w.ended)
    (hcopied : ∀ i y, i ∈ closed → copy.lookup i = some y → (i, y) ∈ w.ended)
    (hawaited : ∀ i y, i ∈ closed → i ∈ copy → w.state.registered i = some y → (i, y) ∈ w.ended)
    (persistent : Bool) (exitCode : Int) :
    Inv { w with
      state := w.state.cleaned persistent copy closed id exitCode
      emitted := w.emitted ++ [(.closed { terminalId := id, exitCode }, some x)]
      closings := w.closings ++ [x] } := by
  obtain ⟨y, hy, hyc⟩ := h.pending id (by rw [hpending]; exact List.mem_cons_self)
  have hxc : x ∉ w.closings := by
    have hxy : some x = some y := by rw [← h.ended id x hx, h.ended id y hy]
    rw [Option.some.inj hxy]
    exact hyc
  have hnodup := h.nodup
  rw [hpending, List.nodup_cons] at hnodup
  have hnext : Inv { w with state := { w.state with reader := .cleaning persistent copy closed } } := by
    apply h.setReader
    · intro i y hi
      simp [TerminalState.turn] at hi
    · rw [hpending]
      exact List.sublist_cons_self _ _
    · intro i y hc
      exact hcopied i y hc.1 hc.2
    · intro i y ha hi
      exact hawaited i y ha.1 ha.2 hi
  exact (hnext.close hx hxc hnodup.1 rfl).setResponses ..

theorem step_cleanUp {wait : WaitResult}
    (hnew : w.state.newResponses (w.state.cleanUp wait) = []) :
    w.step z (.cleanUp wait) = { w with state := w.state.cleanUp wait } :=
  step_state (by rintro p ⟨h, -⟩; exact absurd h nofun) hnew rfl rfl

theorem takeChild_outside (s : TerminalState) (x : Nat) (wait : WaitResult) :
    Outside s (s.setSession x ((s.session x).takeChild wait).1) :=
  outside_setSession fun _ => rfl

section CleanUp

variable {persistent : Bool} {copy : SessionMap} {closed : List Int} {id : Int} {wait : WaitResult}

theorem inv_taking {x : Nat} (h : Inv w) (hreader : w.state.reader = .taking copy id x closed) :
    Inv (w.step z (.cleanUp wait)) := by
  have hcopied : ∀ i y, Copied i y (.taking copy id x closed) → (i, y) ∈ w.ended := by
    rw [← hreader]
    exact h.copied
  have hclean : w.state.cleanUp wait =
      (w.state.setSession x ((w.state.session x).takeChild wait).1).cleaned false copy closed id
        ((w.state.session x).takeChild wait).2 := by
    simp only [TerminalState.cleanUp, hreader]
  have htake := h.outside (takeChild_outside w.state x wait)
  have hx : (id, x) ∈ w.ended := hcopied id x (Or.inl ⟨rfl, rfl⟩)
  rw [step_cleaned h hx hclean rfl rfl]
  apply htake.cleaned
  · simp [hreader, TerminalClosing.pending]
  · exact hx
  · intro i y hi hy
    exact hcopied i y (Or.inr ⟨hi, hy⟩)
  · intro i y hi hcopy hreg
    refine h.awaited i y ?_ hreg
    rw [hreader]
    exact ⟨hi, hcopy⟩

theorem inv_removing {exitCode : Int} (h : Inv w)
    (hreader : w.state.reader = .removing copy id exitCode closed) :
    Inv (w.step z (.cleanUp wait)) := by
  have hclean : w.state.cleanUp wait =
      (w.state.setSessions (w.state.service.sessions.erase id)).cleaned true (copy.erase id) closed id
        exitCode := by
    simp only [TerminalState.cleanUp, hreader]
  have herase := h.outside (outside_erase w.state id)
  obtain ⟨x, hx, -⟩ := h.pending id (by rw [hreader]; exact List.mem_cons_self)
  rw [step_cleaned h hx hclean rfl rfl]
  apply herase.cleaned
  · simp [hreader, TerminalClosing.pending]
  · exact hx
  · intro i y hi hy
    refine h.copied i y ?_
    rw [hreader]
    exact ⟨hi, (Sessions.lookup_erase_eq_some.mp hy).2⟩
  · intro i y hi hcopy hreg
    refine h.awaited i y ?_ (Sessions.lookup_erase_eq_some.mp hreg).2
    rw [hreader]
    exact Or.inr ⟨hi, (Finmap.mem_erase.mp hcopy).2⟩

theorem inv_cleaning (h : Inv w) (hreader : w.state.reader = .cleaning persistent copy (id :: closed)) :
    Inv (w.step z (.cleanUp wait)) := by
  have hcopied : ∀ i y, i ∈ id :: closed → copy.lookup i = some y → (i, y) ∈ w.ended := by
    intro i y hi hy
    refine h.copied i y ?_
    rw [hreader]
    exact ⟨hi, hy⟩
  have hawaited : ∀ i y, i ∈ id :: closed → i ∈ copy → w.state.registered i = some y →
      (i, y) ∈ w.ended := by
    intro i y hi hcopy hreg
    refine h.awaited i y ?_ hreg
    rw [hreader]
    exact ⟨hi, hcopy⟩
  have hclean : w.state.cleanUp wait = w.state.beginCleanUp persistent copy closed id wait := by
    simp only [TerminalState.cleanUp, hreader]
  cases hy : copy.lookup id with
  | none =>
    obtain ⟨x, hx, -⟩ := h.pending id (by rw [hreader]; exact List.mem_cons_self)
    rw [TerminalState.beginCleanUp, hy] at hclean
    rw [step_cleaned h hx hclean rfl rfl]
    apply h.cleaned
    · simp [hreader, TerminalClosing.pending]
    · exact hx
    · intro i y hi
      exact hcopied i y (List.mem_cons_of_mem _ hi)
    · intro i y hi
      exact hawaited i y (List.mem_cons_of_mem _ hi)
  | some x =>
    have hx : (id, x) ∈ w.ended := hcopied id x List.mem_cons_self hy
    have hmem : id ∈ copy := Finmap.mem_of_lookup_eq_some hy
    cases persistent with
    | true =>
      have htake := h.outside (takeChild_outside w.state x wait)
      simp only [TerminalState.beginCleanUp, hy, if_true] at hclean
      split_ifs at hclean with hsent
      · rw [step_cleanUp (by rw [hclean]; exact newResponses_nil rfl rfl), hclean]
        apply htake.setReader
        · intro i y hi
          simp [TerminalState.turn] at hi
        · simp [hreader, TerminalClosing.pending]
        · intro i y hc
          exact hcopied i y (List.mem_cons_of_mem _ hc.1) hc.2
        · rintro i y (rfl | ⟨hi, hcopy⟩) hreg
          · exact hawaited i y List.mem_cons_self hmem hreg
          · exact hawaited i y (List.mem_cons_of_mem _ hi) hcopy hreg
      · rw [step_cleaned h hx hclean rfl rfl]
        apply htake.cleaned
        · simp [hreader, TerminalClosing.pending]
        · exact hx
        · intro i y hi
          exact hcopied i y (List.mem_cons_of_mem _ hi)
        · intro i y hi
          exact hawaited i y (List.mem_cons_of_mem _ hi)
    | false =>
      have herase := h.outside (outside_erase w.state id)
      simp only [TerminalState.beginCleanUp, hy, Bool.false_eq_true, if_false] at hclean
      rw [step_cleanUp (by rw [hclean]; exact newResponses_nil rfl rfl), hclean]
      apply herase.setReader
      · intro i y hi
        simp [TerminalState.turn] at hi
      · simp [hreader, TerminalClosing.pending]
      · rintro i y (⟨rfl, rfl⟩ | ⟨hi, hcopy⟩)
        · exact hx
        · exact hcopied i y (List.mem_cons_of_mem _ hi) (Sessions.lookup_erase_eq_some.mp hcopy).2
      · intro i y ha hreg
        exact hawaited i y (List.mem_cons_of_mem _ ha.1) (Finmap.mem_erase.mp ha.2).2
          (Sessions.lookup_erase_eq_some.mp hreg).2

theorem inv_cleanUp (h : Inv w) : Inv (w.step z (.cleanUp wait)) := by
  cases hreader : w.state.reader with
  | cleaning persistent copy closed =>
    cases closed with
    | nil =>
      have hclean : w.state.cleanUp wait = w.state.returnResponses := by
        simp only [TerminalState.cleanUp, hreader]
      have hnew : w.state.newResponses (w.state.cleanUp wait) = [] := by
        rw [hclean]
        apply newResponses_append
        simp [TerminalState.returnResponses]
      rw [step_cleanUp hnew, hclean]
      exact inv_returnResponses h
    | cons id closed => exact inv_cleaning h hreader
  | taking copy id x closed => exact inv_taking h hreader
  | removing copy id exitCode closed => exact inv_removing h hreader
  | idle | ready | polling =>
    have hclean : w.state.cleanUp wait = w.state := by
      simp only [TerminalState.cleanUp, hreader]
    rw [step_cleanUp (by rw [hclean]; exact newResponses_nil rfl rfl), hclean]
    exact h

end CleanUp

theorem inv_newProxy (h : Inv w) : Inv (w.step z .newProxy) := by
  have hstep : w.state.step z .newProxy = w.state ∨ w.state.step z .newProxy =
      { w.state with reader := .ready w.state.service.isPersistent } := by
    simp only [TerminalState.step]
    split
    · exact Or.inr rfl
    · exact Or.inl rfl
  have hnew : w.state.newResponses (w.state.step z .newProxy) = [] := by
    rcases hstep with heq | heq <;> rw [heq] <;> exact newResponses_nil rfl rfl
  rw [step_state (by rintro p ⟨h, -⟩; exact absurd h nofun) hnew rfl rfl]
  rcases hstep with heq | heq <;> rw [heq]
  · exact h
  · exact h.rest (Or.inr ⟨_, rfl⟩)

theorem inv_snapshot (h : Inv w) : Inv (w.step z .snapshot) := by
  by_cases hready : ∃ p, w.state.reader = .ready p
  · obtain ⟨p, hreader⟩ := hready
    have hstep : w.step z .snapshot = { w with
        state := { w.state with reader := .polling p w.state.service.sessions.map [] }
        snapshot := w.state.service.sessions.map
        ended := []
        emitted := [] } := by
      simp only [ReadWatch.step, hreader, TerminalState.step]
    rw [hstep]
    exact { h with
      injective := w.state.service.sessions.distinct
      below := w.state.service.sessions.below
      ended := nofun
      noted := nofun
      turn := fun i x hi => ⟨hi, nofun⟩
      pending := nofun
      nodup := List.nodup_nil
      copied := fun i x hc => absurd hc not_false
      awaited := fun i x ha => absurd ha List.not_mem_nil
      emitted := nofun }
  · have hstep : w.state.step z .snapshot = w.state := by
      simp only [TerminalState.step]
      split
      case h_1 p hreader => exact absurd ⟨p, hreader⟩ hready
      case h_2 => rfl
    rw [step_state (by rintro p ⟨-, hp⟩; exact hready ⟨p, hp⟩)
      (by rw [hstep]; exact newResponses_nil rfl rfl) rfl rfl, hstep]
    exact h

theorem inv_endPolls (h : Inv w) : Inv (w.step z .endPolls) := by
  have hstep : w.state.step z .endPolls = w.state ∨
      w.state.step z .endPolls = w.state.returnResponses ∨
      ∃ p todo closed, w.state.reader = .polling p todo closed ∧ w.state.step z .endPolls =
        { w.state with reader := .cleaning p w.state.service.sessions.map closed } := by
    simp only [TerminalState.step]
    split
    case h_1 p todo closed hreader =>
      split_ifs
      · unfold TerminalState.endPolls
        split_ifs
        · exact Or.inr (Or.inl rfl)
        · exact Or.inr (Or.inr ⟨p, todo, closed, hreader, rfl⟩)
      · exact Or.inl rfl
    case h_2 => exact Or.inl rfl
  have hnew : w.state.newResponses (w.state.step z .endPolls) = [] := by
    rcases hstep with heq | heq | ⟨p, todo, closed, -, heq⟩
    · rw [heq]
      exact newResponses_nil rfl rfl
    · rw [heq]
      apply newResponses_append
      simp [TerminalState.returnResponses]
    · rw [heq]
      exact newResponses_nil rfl rfl
  rw [step_state (by rintro p ⟨h, -⟩; exact absurd h nofun) hnew rfl rfl]
  rcases hstep with heq | heq | ⟨p, todo, closed, hreader, heq⟩ <;> rw [heq]
  · exact h
  · exact inv_returnResponses h
  · have hawaited : ∀ i x, i ∈ closed → w.state.registered i = some x → (i, x) ∈ w.ended := by
      intro i x hi hreg
      refine h.awaited i x ?_ hreg
      rw [hreader]
      exact hi
    apply h.setReader
    · intro i x hi
      simp [TerminalState.turn] at hi
    · rw [hreader]
      exact List.Sublist.refl _
    · intro i x hc
      exact hawaited i x hc.1 hc.2
    · intro i x ha hreg
      exact hawaited i x ha.1 hreg

theorem createTerminalDataResponse_eq (z : Zstd) (id : Int) (data : Bytes) :
    ∃ d, createTerminalDataResponse z id data = .data d ∧ d.terminalId = id := by
  unfold createTerminalDataResponse
  dsimp only
  split_ifs <;> exact ⟨_, rfl, rfl⟩

theorem poll_responses {session : TerminalSession} {id : Int} {o : Sighting} {r : TerminalResponse}
    (hr : r ∈ (session.poll z id o).2) : r.terminalId = id ∧ r.isClosed = false := by
  have hdata : ∃ data, r = createTerminalDataResponse z id data := by
    unfold TerminalSession.poll at hr
    cases hstate : session.state with
    | closed => simp [TerminalSession.drain, hstate] at hr
    | active pendingBuffer sigwinch =>
      simp only [TerminalSession.drain, hstate, List.mem_append, List.mem_map] at hr
      rcases hr with hr | ⟨data, -, rfl⟩
      · unfold TerminalSession.replay at hr
        split at hr
        · split_ifs at hr
          · exact absurd hr List.not_mem_nil
          · exact ⟨_, List.mem_singleton.mp hr⟩
        · exact absurd hr List.not_mem_nil
      · exact ⟨data, rfl⟩
  obtain ⟨data, rfl⟩ := hdata
  obtain ⟨d, hd, hid⟩ := createTerminalDataResponse_eq z id data
  rw [hd]
  exact ⟨hid, rfl⟩

theorem poll_flag (session : TerminalSession) (id : Int) (o : Sighting) :
    ((session.poll z id o).1).closedMessageSent =
      (session.closedMessageSent || session.shouldSendClosed o) := by
  unfold TerminalSession.poll
  cases hstate : session.state <;> simp [TerminalSession.drain, hstate]

section Poll

variable {persistent : Bool} {todo : SessionMap} {closed : List Int} {id : Int} {x : Nat}

theorem step_poll (hreader : w.state.reader = .polling persistent todo closed)
    (hx : todo.lookup id = some x) (o : Sighting) :
    w.step z (.poll id (some o)) = { w with
      state := w.state.poll z persistent todo closed id (some o)
      ended := w.ended ++ if (w.state.session x).shouldSendClosed o then [(id, x)] else []
      emitted := w.emitted ++ ((w.state.session x).poll z id o).2.map fun r => (r, some x) } := by
  have hturn : w.state.turn id = some x := by rw [TerminalState.turn_polling hreader, hx]
  have hstate : w.state.step z (.poll id (some o)) =
      w.state.poll z persistent todo closed id (some o) := by
    simp only [TerminalState.step, hreader]
  have hnew : w.state.newResponses (w.state.poll z persistent todo closed id (some o)) =
      ((w.state.session x).poll z id o).2 := by
    apply newResponses_append
    rw [TerminalState.poll_eq hx]
    simp [TerminalState.respond, TerminalState.setSession]
  have hnone : ((((w.state.session x).poll z id o).2.map fun r =>
      ((r, some x) : TerminalResponse × Option Nat)).filter fun p => p.1.isClosed) = [] := by
    rw [List.filter_eq_nil_iff]
    intro p hp
    obtain ⟨r, hr, rfl⟩ := List.mem_map.mp hp
    simp [(poll_responses hr).2]
  have hfound : (w.state.foundEnded (.poll id (some o))).toList =
      if (w.state.session x).shouldSendClosed o then [(id, x)] else [] := by
    simp only [TerminalState.foundEnded, hturn]
    split_ifs <;> rfl
  unfold ReadWatch.step
  simp only [hstate, hnew, hfound, ReadWatch.subject, hturn, hnone, TerminalState.closedByClient,
    Option.toList_none, List.append_nil, List.filterMap_nil]

theorem turn_erase (hreader : s.reader = .polling persistent todo closed) {i : Int} {y : Nat}
    (hi : (todo.erase id).lookup i = some y) : i ≠ id ∧ s.turn i = some y := by
  obtain ⟨hne, hlookup⟩ := Sessions.lookup_erase_eq_some.mp hi
  exact ⟨hne, by rw [TerminalState.turn_polling hreader, hlookup]⟩

/-- A session of the snapshot is passed over, or its turn finds it alive. -/
theorem Inv.passed (h : Inv w) (hreader : w.state.reader = .polling persistent todo closed) :
    Inv { w with state := { w.state with reader := .polling persistent (todo.erase id) closed } } := by
  apply h.setReader
  · intro i y hi
    exact (turn_erase hreader hi).2
  · rw [hreader]
    exact List.Sublist.refl _
  · intro i y hc
    exact absurd hc not_false
  · intro i y ha hreg
    refine h.awaited i y ?_ hreg
    rw [hreader]
    exact ha

theorem Inv.found (h : Inv w) (hreader : w.state.reader = .polling persistent todo closed)
    (hx : todo.lookup id = some x) (hflag : (w.state.session x).closedMessageSent = false)
    (hanswered : x ∉ w.answered) (howner : ∀ y, w.state.registered id = some y → y = x)
    {v : TerminalSession} (hv : v.closedMessageSent = true) :
    Inv { w with
      state := { w.state.setSession x v with
        reader := .polling persistent (todo.erase id) (closed ++ [id]) }
      ended := w.ended ++ [(id, x)] } := by
  have hturn : w.state.turn id = some x := by rw [TerminalState.turn_polling hreader, hx]
  obtain ⟨hsnapshot, hnever⟩ := h.turn id x hturn
  have hclosings : x ∉ w.closings := by
    intro hc
    rcases h.closed x hc with ha | hf
    · exact hanswered ha
    · rw [hflag] at hf
      exact absurd hf nofun
  have hset : ∀ y, (w.state.session y).closedMessageSent = true →
      ((w.state.setSession x v).session y).closedMessageSent = true := by
    intro y hy
    rw [TerminalState.setSession_session]
    split_ifs
    · exact hv
    · exact hy
  have hpending : TerminalClosing.pending w.state.reader = closed := by rw [hreader]; rfl
  have hfresh : id ∉ closed := by
    intro hid
    obtain ⟨y, hy, -⟩ := h.pending id (by rw [hpending]; exact hid)
    exact hnever y hy
  refine { h with
    ended := ?_, noted := ?_, turn := ?_, pending := ?_, nodup := ?_, copied := ?_, awaited := ?_,
    closed := ?_, answered := ?_ }
  · intro i y hi
    rcases List.mem_append.mp hi with hi | hi
    · exact h.ended i y hi
    · cases List.mem_singleton.mp hi
      exact hsnapshot
  · intro i y hi
    rcases List.mem_append.mp hi with hi | hi
    · exact hset y (h.noted i y hi)
    · cases List.mem_singleton.mp hi
      change ((w.state.setSession x v).session x).closedMessageSent = true
      rw [TerminalState.setSession_session, if_pos rfl]
      exact hv
  · intro i y hi
    obtain ⟨hne, hold⟩ := turn_erase hreader hi
    obtain ⟨hy, hno⟩ := h.turn i y hold
    refine ⟨hy, ?_⟩
    intro y' hy'
    rcases List.mem_append.mp hy' with hy' | hy'
    · exact hno y' hy'
    · exact hne (congrArg Prod.fst (List.mem_singleton.mp hy'))
  · intro i hi
    rcases List.mem_append.mp hi with hi | hi
    · obtain ⟨y, hy, hyc⟩ := h.pending i (by rw [hpending]; exact hi)
      exact ⟨y, List.mem_append_left _ hy, hyc⟩
    · rw [List.mem_singleton.mp hi]
      exact ⟨x, List.mem_append_right _ List.mem_cons_self, hclosings⟩
  · have hnodup := h.nodup
    rw [hpending] at hnodup
    have hconcat := hnodup.concat hfresh
    rwa [List.concat_eq_append] at hconcat
  · intro i y hc
    exact absurd hc not_false
  · intro i y ha hreg
    rcases List.mem_append.mp ha with ha | ha
    · refine List.mem_append_left _ (h.awaited i y ?_ hreg)
      rw [hreader]
      exact ha
    · rw [List.mem_singleton.mp ha] at hreg ⊢
      rw [howner y hreg]
      exact List.mem_append_right _ List.mem_cons_self
  · intro y hy
    exact (h.closed y hy).imp_right (hset y)
  · intro y hy
    obtain ⟨hlt, hf, hgone⟩ := h.answered y hy
    refine ⟨hlt, ?_, hgone⟩
    have hne : y ≠ x := fun hyx => hanswered (hyx ▸ hy)
    change ((w.state.setSession x v).session y).closedMessageSent = false
    rw [TerminalState.setSession_session, if_neg hne]
    exact hf

theorem Inv.emit (h : Inv w) {new : List (TerminalResponse × Option Nat)}
    (hnew : ∀ p ∈ new, ∃ x, p.2 = some x ∧ w.snapshot.lookup p.1.terminalId = some x) :
    Inv { w with emitted := w.emitted ++ new } := by
  refine { h with emitted := ?_ }
  intro p hp
  rcases List.mem_append.mp hp with hp | hp
  · exact h.emitted p hp
  · exact hnew p hp

theorem inv_turn (h : Inv w) {o : Sighting} (horder : w.Orderly (.poll id (some o)))
    (hreader : w.state.reader = .polling persistent todo closed) (hx : todo.lookup id = some x) :
    Inv (w.step z (.poll id (some o))) := by
  have hturn : w.state.turn id = some x := by rw [TerminalState.turn_polling hreader, hx]
  obtain ⟨hsnapshot, -⟩ := h.turn id x hturn
  have hnew : ∀ p ∈ ((w.state.session x).poll z id o).2.map fun r =>
      ((r, some x) : TerminalResponse × Option Nat), ∃ x, p.2 = some x ∧
        w.snapshot.lookup p.1.terminalId = some x := by
    intro p hp
    obtain ⟨r, hr, rfl⟩ := List.mem_map.mp hp
    exact ⟨x, rfl, by rw [(poll_responses hr).1]; exact hsnapshot⟩
  rw [step_poll hreader hx, TerminalState.poll_eq hx]
  by_cases hended : (w.state.session x).shouldSendClosed o = true
  · have hflag : (w.state.session x).closedMessageSent = false := by
      unfold TerminalSession.shouldSendClosed at hended
      rw [Bool.and_eq_true, Bool.not_eq_true'] at hended
      exact hended.1
    have hfound : w.state.foundEnded (.poll id (some o)) = some (id, x) := by
      simp only [TerminalState.foundEnded, hturn, hended, if_true]
    obtain ⟨hanswered, howner⟩ := horder (id, x) hfound
    have hv : ((w.state.session x).poll z id o).1.closedMessageSent = true := by
      rw [poll_flag, hended, Bool.or_true]
    rw [if_pos hended, if_pos hended]
    exact ((h.found hreader hx hflag hanswered howner hv).emit hnew).setResponses ..
  · have hset : Outside w.state (w.state.setSession x ((w.state.session x).poll z id o).1) :=
      outside_setSession fun _ => by
        rw [poll_flag, Bool.eq_false_iff.mpr hended, Bool.or_false]
    rw [if_neg hended, if_neg hended, List.append_nil]
    exact (((h.outside hset).passed hreader).emit hnew).setResponses ..

theorem inv_poll (h : Inv w) {sighting : Option Sighting} (horder : w.Orderly (.poll id sighting)) :
    Inv (w.step z (.poll id sighting)) := by
  cases hturn : w.state.turn id with
  | none =>
    have hstep : w.state.step z (.poll id sighting) = w.state := by
      simp only [TerminalState.step]
      split
      case h_1 p todo closed hreader =>
        rw [TerminalState.turn_polling hreader] at hturn
        simp only [TerminalState.poll, hturn]
      case h_2 => rfl
    have hfound : w.state.foundEnded (.poll id sighting) = none := by
      unfold TerminalState.foundEnded
      cases sighting <;> simp [hturn]
    rw [step_state (by rintro p ⟨h, -⟩; cases h)
      (by rw [hstep]; exact newResponses_nil rfl rfl) hfound rfl, hstep]
    exact h
  | some x =>
    have hpolling : ∃ p todo closed, w.state.reader = .polling p todo closed := by
      unfold TerminalState.turn at hturn
      split at hturn
      case h_1 p todo closed hreader => exact ⟨p, todo, closed, hreader⟩
      case h_2 => cases hturn
    obtain ⟨p, todo, closed, hreader⟩ := hpolling
    have hx : todo.lookup id = some x := by rw [← TerminalState.turn_polling hreader, hturn]
    cases sighting with
    | some o => exact inv_turn h horder hreader hx
    | none =>
      have hstep : w.state.step z (.poll id none) =
          { w.state with reader := .polling p (todo.erase id) closed } := by
        simp only [TerminalState.step, hreader, TerminalState.poll, hx]
      rw [step_state (by rintro p ⟨h, -⟩; cases h)
        (by rw [hstep]; exact newResponses_nil rfl rfl) rfl rfl, hstep]
      exact h.passed hreader

end Poll

theorem inv_step (h : Inv w) (horder : w.Orderly e) : Inv (w.step z e) := by
  cases hread : e.isRead with
  | false => exact inv_outside_step h horder hread
  | true =>
    cases e with
    | newProxy => exact inv_newProxy h
    | snapshot => exact inv_snapshot h
    | poll id sighting => exact inv_poll h horder
    | endPolls => exact inv_endPolls h
    | cleanUp wait => exact inv_cleanUp h
    | handleOpen | handleClose | resetStatus | setPersistent | output => exact absurd hread nofun

/-- Every session that loses its entry or its child was found ended. -/
structure Keeps (w : ReadWatch) (s : TerminalState) : Prop where
  registered : ∀ i x, w.state.registered i = some x → s.registered i = some x ∨ (i, x) ∈ w.ended
  child : ∀ x, (w.state.session x).child = true → (s.session x).child = true ∨ ∃ i, (i, x) ∈ w.ended

theorem Keeps.harmless (h : Keeps w (w.state.step z e)) : Harmless z w e := by
  rintro - x (⟨⟨i, hi⟩, hgone⟩ | ⟨hhad, hhas⟩)
  · rcases h.registered i x hi with hi | hx
    · exact absurd ⟨i, hi⟩ hgone
    · exact ⟨i, hx⟩
  · rcases h.child x hhad with hhas' | hx
    · rw [hhas] at hhas'
      exact absurd hhas' nofun
    · exact hx

theorem keeps_of_eq (hsessions : s.service.sessions = w.state.service.sessions)
    (hchild : ∀ x, (s.session x).child = (w.state.session x).child) : Keeps w s where
  registered i x hi := by
    refine Or.inl ?_
    unfold TerminalState.registered
    rw [hsessions]
    exact hi
  child x hx := Or.inl (by rw [hchild]; exact hx)

theorem keeps_takeChild {id : Int} {x : Nat} (hx : (id, x) ∈ w.ended) (wait : WaitResult) :
    Keeps w (w.state.setSession x ((w.state.session x).takeChild wait).1) where
  registered i y hi := Or.inl hi
  child y hy := by
    by_cases hyx : y = x
    · exact Or.inr ⟨id, by rw [hyx]; exact hx⟩
    · rw [TerminalState.setSession_session, if_neg hyx]
      exact Or.inl hy

theorem keeps_erase {id : Int} (hid : ∀ x, w.state.registered id = some x → (id, x) ∈ w.ended) :
    Keeps w (w.state.setSessions (w.state.service.sessions.erase id)) where
  registered i x hi := by
    by_cases hne : i = id
    · subst hne
      exact Or.inr (hid x hi)
    · exact Or.inl (Sessions.lookup_erase_eq_some.mpr ⟨hne, hi⟩)
  child x hx := Or.inl hx

theorem Keeps.congr {s₁ : TerminalState} (h : Keeps w s₁)
    (hservice : s.service = s₁.service) (hheap : s.heap = s₁.heap) : Keeps w s where
  registered i x hi := by
    unfold TerminalState.registered
    rw [hservice]
    exact h.registered i x hi
  child x hx := by
    unfold TerminalState.session
    rw [hheap]
    exact h.child x hx

theorem keeps_beginCleanUp {persistent : Bool} {copy : SessionMap} {closed : List Int} {id : Int}
    (wait : WaitResult)
    (hcopied : ∀ x, copy.lookup id = some x → (id, x) ∈ w.ended)
    (hawaited : ∀ x, id ∈ copy → w.state.registered id = some x → (id, x) ∈ w.ended) :
    Keeps w (w.state.beginCleanUp persistent copy closed id wait) := by
  unfold TerminalState.beginCleanUp
  cases hx : copy.lookup id with
  | none => exact keeps_of_eq rfl fun _ => rfl
  | some x =>
    cases persistent with
    | true =>
      have htake := keeps_takeChild (hcopied x hx) wait
      simp only [if_true]
      split_ifs
      · exact htake.congr rfl rfl
      · exact htake.congr rfl rfl
    | false =>
      exact (keeps_erase fun y hy => hawaited y (Finmap.mem_of_lookup_eq_some hx) hy).congr rfl rfl

theorem keeps_cleanUp (h : Inv w) (wait : WaitResult) : Keeps w (w.state.cleanUp wait) := by
  have hcopied := h.copied
  have hawaited := h.awaited
  unfold TerminalState.cleanUp
  split
  case h_1 => exact keeps_of_eq rfl fun _ => rfl
  case h_2 persistent copy id closed hreader =>
    rw [hreader] at hcopied hawaited
    apply keeps_beginCleanUp
    · intro x hx
      exact hcopied id x ⟨List.mem_cons_self, hx⟩
    · intro x hcopy hx
      exact hawaited id x ⟨List.mem_cons_self, hcopy⟩ hx
  case h_3 copy id x closed hreader =>
    rw [hreader] at hcopied
    exact (keeps_takeChild (hcopied id x (Or.inl ⟨rfl, rfl⟩)) wait).congr rfl rfl
  case h_4 copy id exitCode closed hreader =>
    rw [hreader] at hawaited
    exact (keeps_erase fun x hx => hawaited id x (Or.inl rfl) hx).congr rfl rfl
  case h_5 => exact keeps_of_eq rfl fun _ => rfl

theorem poll_child (session : TerminalSession) (id : Int) (o : Sighting) :
    ((session.poll z id o).1).child = session.child := by
  unfold TerminalSession.poll
  cases hstate : session.state <;> simp [TerminalSession.drain, hstate]

theorem keeps_poll (persistent : Bool) (todo : SessionMap) (closed : List Int) (id : Int)
    (sighting : Option Sighting) :
    Keeps w (w.state.poll z persistent todo closed id sighting) := by
  unfold TerminalState.poll
  cases todo.lookup id with
  | none => exact keeps_of_eq rfl fun _ => rfl
  | some x =>
    cases sighting with
    | none => exact keeps_of_eq rfl fun _ => rfl
    | some o =>
      refine keeps_of_eq rfl fun y => ?_
      change ((w.state.setSession x ((w.state.session x).poll z id o).1).session y).child = _
      rw [TerminalState.setSession_session]
      split_ifs with hyx
      · rw [hyx, poll_child]
      · rfl

theorem harmless_step (h : Inv w) : Harmless z w e := by
  cases e with
  | handleOpen | handleClose | resetStatus | setPersistent | output =>
    exact fun hread => absurd hread nofun
  | newProxy =>
    refine Keeps.harmless ?_
    simp only [TerminalState.step]
    split <;> exact keeps_of_eq rfl fun _ => rfl
  | snapshot =>
    refine Keeps.harmless ?_
    simp only [TerminalState.step]
    split <;> exact keeps_of_eq rfl fun _ => rfl
  | poll id sighting =>
    refine Keeps.harmless ?_
    simp only [TerminalState.step]
    split
    · exact keeps_poll ..
    · exact keeps_of_eq rfl fun _ => rfl
  | endPolls =>
    refine Keeps.harmless ?_
    simp only [TerminalState.step, TerminalState.endPolls]
    split
    · split_ifs <;> exact keeps_of_eq rfl fun _ => rfl
    · exact keeps_of_eq rfl fun _ => rfl
  | cleanUp wait => exact Keeps.harmless (keeps_cleanUp h wait)

theorem state_run (w : ReadWatch) (events : List TerminalEvent) :
    (run (ReadWatch.step z) w events).state = run (TerminalState.step z) w.state events := by
  induction events generalizing w with
  | nil => rfl
  | cons e events ih =>
    have hstep : (w.step z e).state = w.state.step z e := by
      unfold ReadWatch.step
      split <;> rfl
    rw [run_cons, run_cons, ih, hstep]

end TerminalClosing

open TerminalClosing

/-- In every run whose steps are orderly, `read_outputs` removes and takes children of only
those sessions that it found ended, its responses carry the ids of their sessions, and no
session is closed twice. -/
theorem readOutputs_sound {z : Zstd} {s : TerminalState} (hidle : s.reader = .idle)
    {events : List TerminalEvent}
    (horder : Guarded (ReadWatch.step z) ReadWatch.Orderly (ReadWatch.start s) events) :
    ReadSound z s events := by
  have hinv := inv_start hidle
  constructor
  · exact guarded_of_inv (fun w e h ho => inv_step h ho) (fun w e h _ => harmless_step h) hinv horder
  · exact throughout_imp (fun w h => ⟨h.emitted, h.closings⟩)
      (throughout_of_guarded (fun w e h ho => inv_step h ho) hinv horder)

namespace TerminalClosing

/-- A service that is not persistent, with one session. -/
def oneTerminal : TerminalState where
  service := { serviceId := "ts", sessions := Sessions.add .empty 1 }
  heap _ :=
    { ptyPair := true
      child := true
      outputRx := some []
      readerThread := true
      rows := 24
      cols := 80
      state := .active none .idle }

/-- The shell has ended when the session is polled. -/
def endsPolled : List TerminalEvent :=
  [.newProxy, .snapshot, .poll 1 (some { readerFinished := true })]

/-- The clean-up of the only terminal that has ended. -/
def cleansUp : List TerminalEvent :=
  [.endPolls, .cleanUp (.exited 0), .cleanUp (.exited 0), .cleanUp (.exited 0)]

/-- The client opens the terminal again when the clean-up is over. -/
def openedAfter : List TerminalEvent :=
  endsPolled ++ cleansUp ++ [.handleOpen ⟨1, 24, 80⟩ (.ok 7)]

/-- The client closes the terminal and opens it again before the clean-up. -/
def openedBefore : List TerminalEvent :=
  endsPolled ++ [.handleClose 1 (.ok ()), .handleOpen ⟨1, 24, 80⟩ (.ok 7)] ++ cleansUp

end TerminalClosing

theorem readOutputs_sound_openedAfter : ReadSound Zstd.stored oneTerminal openedAfter :=
  readOutputs_sound rfl (by decide)

/-- The clean-up takes the child of the session that was opened in between. -/
theorem readOutputs_takes_other :
    oneTerminal.reader = .idle ∧ ¬ ReadSound Zstd.stored oneTerminal openedBefore := by
  refine ⟨rfl, ?_⟩
  rintro ⟨hharmless, -⟩
  obtain ⟨id, hid⟩ := hharmless.2.2.2.2.2.2.2.1 rfl 1 (Or.inr ⟨by decide, by decide⟩)
  have hended : ∀ p ∈ (run (ReadWatch.step Zstd.stored) (ReadWatch.start oneTerminal)
      (openedBefore.take 7)).ended, p.2 ≠ 1 := by decide
  exact hended (id, 1) hid rfl

end RustDesk
