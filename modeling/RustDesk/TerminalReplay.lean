import RustDesk.TerminalService

/-!
# What a client is shown after it has come back

The output of a session reaches the client through the channel of its reader thread, and
what the client missed is replayed from the buffer of the session. After `handle_open` has
reconnected to a session, the client is sent the replay and then every message that leaves
the channel, in the order in which it entered.
-/

namespace RustDesk

open History

/-- All output for a terminal in the responses of `read_outputs`, those of a call that has not
returned yet included. -/
def TerminalState.output (z : Zstd) (s : TerminalState) (id : Int) : Bytes :=
  (s.sent ++ s.responses).flatMap (TerminalResponse.output z id)

namespace TerminalReplay

/-- The step polls the session, with its lock. -/
def Polls (x : Nat) (s : TerminalState) : TerminalEvent → Prop
  | .poll id (some _) => s.turn id = some x
  | _ => False

instance (x : Nat) (s : TerminalState) (e : TerminalEvent) : Decidable (Polls x s e) := by
  unfold Polls
  split <;> infer_instance

/-- The messages that `read_outputs` receives from the channel of the session in a step. -/
def received (x : Nat) (s : TerminalState) (e : TerminalEvent) : List Bytes :=
  if Polls x s e then (s.session x).channel else []

/-- The message that enters the channel of the session in a step. -/
def accepted (x : Nat) (s : TerminalState) : TerminalEvent → List Bytes
  | .output y data =>
    match (s.session x).outputRx with
    | some queue => if y = x ∧ queue.length < channelBufferSize then [data] else []
    | none => []
  | _ => []

/-- The client neither opens nor closes the terminal, and does not connect anew. -/
def Leaves (id : Int) : TerminalEvent → Prop
  | .handleOpen request _ => request.terminalId ≠ id
  | .handleClose terminalId _ => terminalId ≠ id
  | .resetStatus _ => False
  | _ => True

variable {z : Zstd} {s s' : TerminalState} {id : Int} {x : Nat} {e : TerminalEvent}

theorem createTerminalDataResponse_output (hz : z.Lossless) (i : Int) (data : Bytes) :
    (createTerminalDataResponse z i data).output z id = if i = id then data else [] := by
  obtain ⟨packed, henc, hdec⟩ := hz data
  have hplain : (TerminalResponse.data { terminalId := i, data }).output z id
      = if i = id then data else [] := by simp [TerminalResponse.output]
  unfold createTerminalDataResponse
  by_cases hlong : data.length > compressThreshold
  · by_cases hshort : packed.length < data.length
    · simp [hlong, hshort, Zstd.compress, Zstd.decompress, henc, hdec, TerminalResponse.output]
    · simpa [hlong, hshort, Zstd.compress, henc] using hplain
  · simpa [hlong] using hplain

/-- The responses of a session that is not closed: the replay, then what was received. -/
theorem poll_output (hz : z.Lossless) {session : TerminalSession} {i : Int} {o : Sighting}
    (hactive : session.state ≠ .closed) :
    ((session.poll z i o).2).flatMap (TerminalResponse.output z id) =
      if i = id then session.pending ++ session.channel.flatten else [] := by
  have hreceived : (session.channel.map (createTerminalDataResponse z i)).flatMap
      (TerminalResponse.output z id) = if i = id then session.channel.flatten else [] := by
    by_cases hi : i = id <;>
      simp [List.flatMap_map, createTerminalDataResponse_output hz, hi]
  cases hstate : session.state with
  | closed => exact absurd hstate hactive
  | active pendingBuffer sigwinch =>
    have hreplay : (TerminalSession.replay z i pendingBuffer).flatMap
        (TerminalResponse.output z id) = if i = id then session.pending else [] := by
      cases pendingBuffer with
      | none => simp [TerminalSession.replay, TerminalSession.pending, hstate]
      | some buffer =>
        by_cases hempty : buffer = []
        · simp [TerminalSession.replay, TerminalSession.pending, hstate, hempty]
        · simp [TerminalSession.replay, TerminalSession.pending, hstate, hempty,
            createTerminalDataResponse_output hz]
    simp only [TerminalSession.poll, TerminalSession.drain, hstate]
    rw [List.flatMap_append, hreplay, hreceived]
    split_ifs <;> rfl

theorem poll_output_other (hz : z.Lossless) (session : TerminalSession) {i : Int} (hi : i ≠ id)
    (o : Sighting) : ((session.poll z i o).2).flatMap (TerminalResponse.output z id) = [] := by
  by_cases hstate : session.state = .closed
  · simp [TerminalSession.poll, TerminalSession.drain, hstate]
  · rw [poll_output hz hstate, if_neg hi]

theorem poll_channel (session : TerminalSession) (i : Int) (o : Sighting) :
    ((session.poll z i o).1).channel = [] := by
  unfold TerminalSession.poll
  cases hstate : session.state <;> cases hrx : session.outputRx <;>
    simp [TerminalSession.drain, TerminalSession.channel, hstate, hrx]

theorem poll_state {session : TerminalSession} (hactive : session.state ≠ .closed) (i : Int)
    (o : Sighting) : ∃ sigwinch, ((session.poll z i o).1).state = .active none sigwinch := by
  unfold TerminalSession.poll
  cases hstate : session.state with
  | closed => exact absurd hstate hactive
  | active pendingBuffer sigwinch => simp [TerminalSession.drain, hstate]

/-- Terminal and session belong together, in the map and in what is left of a snapshot. -/
structure Tracks (id : Int) (x : Nat) (s : TerminalState) : Prop where
  synced : s.service.needsSessionSync = false
  known : x < s.service.sessions.next
  registered : ∀ i y, s.registered i = some y → (i = id ↔ y = x)
  turn : ∀ i y, s.turn i = some y → (i = id ↔ y = x)
  active : (s.session x).state ≠ .closed

/-- Nothing has happened that concerns the session. -/
structure Untouched (z : Zstd) (id : Int) (x : Nat) (s s' : TerminalState) : Prop where
  tracks : Tracks id x s'
  output : s'.output z id = s.output z id
  outputRx : (s'.session x).outputRx = (s.session x).outputRx
  state : (s'.session x).state = (s.session x).state

section Steps

variable (h : Tracks id x s)

include h

theorem untouched_refl : Untouched z id x s s := ⟨h, rfl, rfl, rfl⟩

/-- The output that waits in the channel of another session does not matter. -/
theorem untouched_setSession {y : Nat} {v : TerminalSession}
    (hv : y = x → v.outputRx = (s.session x).outputRx ∧ v.state = (s.session x).state) :
    Untouched z id x s (s.setSession y v) := by
  have hrx : ((s.setSession y v).session x).outputRx = (s.session x).outputRx := by
    rw [TerminalState.setSession_session]
    split_ifs with hy
    · exact (hv hy.symm).1
    · rfl
  have hstate : ((s.setSession y v).session x).state = (s.session x).state := by
    rw [TerminalState.setSession_session]
    split_ifs with hy
    · exact (hv hy.symm).2
    · rfl
  exact ⟨⟨h.synced, h.known, h.registered, h.turn, by rw [hstate]; exact h.active⟩, rfl, hrx, hstate⟩

theorem untouched_erase (i : Int) :
    Untouched z id x s (s.setSessions (s.service.sessions.erase i)) := by
  refine ⟨⟨h.synced, h.known, ?_, h.turn, h.active⟩, rfl, rfl, rfl⟩
  intro j y hj
  exact h.registered j y (Sessions.lookup_erase_eq_some.mp hj).2

theorem untouched_handleOpen {request : OpenTerminal} {spawn : SpawnResult}
    (hid : request.terminalId ≠ id) : Untouched z id x s (s.handleOpen request spawn).1 := by
  have hremap : s.remap request.terminalId = s := by
    unfold TerminalState.remap
    rw [h.synced]
    simp
  cases hreg : s.registered request.terminalId with
  | some y =>
    have hy : y ≠ x := fun hy => hid ((h.registered _ _ hreg).mpr hy)
    have hset : Untouched z id x s (s.setSession y (s.session y).reconnect) :=
      untouched_setSession h fun hyx => absurd hyx hy
    rw [TerminalState.handleOpen_reconnect spawn (by rw [hremap]; exact hreg), hremap]
    exact ⟨⟨rfl, h.known, h.registered, h.turn, hset.tracks.active⟩, hset.output, hset.outputRx,
      hset.state⟩
  | none =>
    cases spawn with
    | error e =>
      rw [TerminalState.handleOpen_error (by rw [hremap]; exact hreg), hremap]
      exact untouched_refl h
    | ok pid =>
      have hne : s.service.sessions.next ≠ x := by have := h.known; omega
      have hset : Untouched z id x s (s.setSession s.service.sessions.next
          (TerminalState.newSession request pid)) :=
        untouched_setSession h fun hyx => absurd hyx hne
      rw [TerminalState.handleOpen_new (by rw [hremap]; exact hreg), hremap]
      refine ⟨⟨rfl, Nat.lt_succ_of_lt h.known, ?_, h.turn, hset.tracks.active⟩, hset.output,
        hset.outputRx, hset.state⟩
      intro i y hi
      rcases Sessions.lookup_insert_eq_some.mp hi with ⟨rfl, rfl⟩ | ⟨-, hi⟩
      · exact ⟨fun hi => absurd hi hid, fun hy => absurd hy hne⟩
      · exact h.registered i y hi

theorem untouched_handleClose (i : Int) (killed : Except String Unit) :
    Untouched z id x s (s.handleClose i killed).1 := by
  unfold TerminalState.handleClose
  cases hreg : s.registered i with
  | none => exact untouched_refl h
  | some y =>
    have herase : Untouched z id x s _ := untouched_erase h i
    have hset : Untouched z id x _ ((s.setSessions (s.service.sessions.erase i)).setSession y
        { s.session y with child := false }) :=
      untouched_setSession herase.tracks fun hy => by subst hy; exact ⟨rfl, rfl⟩
    exact ⟨hset.tracks, hset.output.trans herase.output, hset.outputRx, hset.state⟩

/-- The thread of `read_outputs` goes on without a turn of a session. -/
theorem untouched_reader {phase : ReadPhase}
    (hturn : ∀ i y, ({ s with reader := phase } : TerminalState).turn i = some y →
      (i = id ↔ y = x)) : Untouched z id x s { s with reader := phase } :=
  ⟨⟨h.synced, h.known, h.registered, hturn, h.active⟩, rfl, rfl, rfl⟩

theorem untouched_returnResponses : Untouched z id x s s.returnResponses := by
  refine ⟨⟨h.synced, h.known, h.registered, ?_, h.active⟩, ?_, rfl, rfl⟩
  · intro i y hi
    simp [TerminalState.turn, TerminalState.returnResponses] at hi
  · simp [TerminalState.output, TerminalState.returnResponses]

theorem untouched_cleaned (persistent : Bool) (copy : SessionMap) (closed : List Int)
    (i exitCode : Int) : Untouched z id x s (s.cleaned persistent copy closed i exitCode) := by
  refine ⟨⟨h.synced, h.known, h.registered, ?_, h.active⟩, ?_, rfl, rfl⟩
  · intro i y hi
    simp [TerminalState.turn, TerminalState.cleaned] at hi
  · simp [TerminalState.output, TerminalState.cleaned, TerminalState.respond,
      TerminalResponse.output]

theorem untouched_takeChild (y : Nat) (wait : WaitResult) :
    Untouched z id x s (s.setSession y ((s.session y).takeChild wait).1) :=
  untouched_setSession h fun hy => by subst hy; exact ⟨rfl, rfl⟩

end Steps

theorem Untouched.trans {s₁ s₂ : TerminalState} (h : Untouched z id x s s₁)
    (h' : Untouched z id x s₁ s₂) : Untouched z id x s s₂ :=
  ⟨h'.tracks, h'.output.trans h.output, h'.outputRx.trans h.outputRx, h'.state.trans h.state⟩

theorem untouched_endPolls (h : Tracks id x s) (persistent : Bool) (closed : List Int) :
    Untouched z id x s (s.endPolls persistent closed) := by
  unfold TerminalState.endPolls
  split_ifs with hclosed
  · exact untouched_returnResponses h
  · exact untouched_reader h fun i y hi => by simp [TerminalState.turn] at hi

theorem untouched_beginCleanUp (h : Tracks id x s) (persistent : Bool) (copy : SessionMap)
    (closed : List Int) (i : Int) (wait : WaitResult) :
    Untouched z id x s (s.beginCleanUp persistent copy closed i wait) := by
  unfold TerminalState.beginCleanUp
  cases copy.lookup i with
  | none => exact untouched_cleaned h ..
  | some y =>
    cases persistent with
    | true =>
      have htake : Untouched z id x s _ := untouched_takeChild h y wait
      simp only [if_true]
      split_ifs with hsent
      · exact htake.trans (untouched_reader htake.tracks fun i y hi => by
          simp [TerminalState.turn] at hi)
      · exact htake.trans (untouched_cleaned htake.tracks ..)
    | false =>
      have herase : Untouched z id x s _ := untouched_erase h i
      exact herase.trans (untouched_reader herase.tracks fun i y hi => by
        simp [TerminalState.turn] at hi)

theorem untouched_cleanUp (h : Tracks id x s) (wait : WaitResult) :
    Untouched z id x s (s.cleanUp wait) := by
  unfold TerminalState.cleanUp
  split
  case h_1 => exact untouched_returnResponses h
  case h_2 => exact untouched_beginCleanUp h ..
  case h_3 copy i y closed _ =>
    have htake : Untouched z id x s _ := untouched_takeChild h y wait
    exact htake.trans (untouched_cleaned htake.tracks ..)
  case h_4 copy i exitCode closed _ =>
    have herase : Untouched z id x s _ := untouched_erase h i
    exact herase.trans (untouched_cleaned herase.tracks ..)
  case h_5 => exact untouched_refl h

theorem untouched_poll (hz : z.Lossless) (h : Tracks id x s) {persistent : Bool}
    {todo : SessionMap} {closed : List Int} (hreader : s.reader = .polling persistent todo closed)
    {i : Int} {sighting : Option Sighting} (hnot : ¬ Polls x s (.poll i sighting)) :
    Untouched z id x s (s.poll z persistent todo closed i sighting) := by
  have hrest : ∀ j y, (todo.erase i).lookup j = some y → (j = id ↔ y = x) := by
    intro j y hj
    refine h.turn j y ?_
    rw [TerminalState.turn_polling hreader]
    exact (Sessions.lookup_erase_eq_some.mp hj).2
  unfold TerminalState.poll
  cases hy : todo.lookup i with
  | none => exact untouched_refl h
  | some y =>
    have hturn : s.turn i = some y := by rw [TerminalState.turn_polling hreader, hy]
    cases sighting with
    | none => exact untouched_reader h hrest
    | some o =>
      have hyx : y ≠ x := by
        rintro rfl
        exact hnot hturn
      have hi : i ≠ id := fun hi => hyx ((h.turn i y hturn).mp hi)
      have hset : Untouched z id x s (s.setSession y ((s.session y).poll z i o).1) :=
        untouched_setSession h fun hy => absurd hy hyx
      refine ⟨⟨h.synced, h.known, h.registered, hrest, hset.tracks.active⟩, ?_, hset.outputRx,
        hset.state⟩
      simp [TerminalState.output, TerminalState.respond, TerminalState.setSession,
        poll_output_other hz _ hi]

/-- The turn of the session itself: it is sent what was pending and what has arrived. -/
structure Served (z : Zstd) (id : Int) (x : Nat) (s s' : TerminalState) : Prop where
  tracks : Tracks id x s'
  output : s'.output z id =
    s.output z id ++ ((s.session x).pending ++ (s.session x).channel.flatten)
  pending : (s'.session x).pending = []
  channel : (s'.session x).channel = []

theorem served_poll (hz : z.Lossless) (h : Tracks id x s) {persistent : Bool} {todo : SessionMap}
    {closed : List Int} (hreader : s.reader = .polling persistent todo closed) {i : Int}
    {o : Sighting} (hturn : s.turn i = some x) :
    Served z id x s (s.poll z persistent todo closed i (some o)) := by
  have hi : i = id := (h.turn i x hturn).mpr rfl
  have hlookup : todo.lookup i = some x := by rw [← TerminalState.turn_polling hreader, hturn]
  obtain ⟨sigwinch, hstate⟩ := poll_state (z := z) h.active i o
  have hsession : (s.poll z persistent todo closed i (some o)).session x =
      ((s.session x).poll z i o).1 := by
    rw [TerminalState.poll_eq hlookup]
    exact Function.update_self ..
  have hservice : (s.poll z persistent todo closed i (some o)).service = s.service := by
    rw [TerminalState.poll_eq hlookup]
    rfl
  refine ⟨⟨?_, ?_, ?_, ?_, ?_⟩, ?_, ?_, ?_⟩
  · rw [hservice]
    exact h.synced
  · rw [hservice]
    exact h.known
  · unfold TerminalState.registered
    rw [hservice]
    exact h.registered
  · intro j y hj
    refine h.turn j y ?_
    rw [TerminalState.poll_eq hlookup] at hj
    rw [TerminalState.turn_polling hreader]
    exact (Sessions.lookup_erase_eq_some.mp hj).2
  · rw [hsession, hstate]
    exact nofun
  · have hout : (((s.session x).poll z i o).2).flatMap (TerminalResponse.output z id) = _ :=
      poll_output hz h.active
    rw [if_pos hi] at hout
    simp [TerminalState.poll_eq hlookup, TerminalState.output, TerminalState.respond,
      TerminalState.setSession, hout]
  · rw [hsession, TerminalSession.pending, hstate]
  · rw [hsession, poll_channel]

theorem untouched_of_not_polls (hz : z.Lossless) (h : Tracks id x s) (hleaves : Leaves id e)
    (hnot : ¬ Polls x s e) (hother : ∀ data, e ≠ .output x data) :
    Untouched z id x s (s.step z e) := by
  cases e with
  | handleOpen request spawn => exact untouched_handleOpen h hleaves
  | handleClose i killed => exact untouched_handleClose h i killed
  | resetStatus isPersistent => exact absurd hleaves not_false
  | setPersistent isPersistent =>
    exact ⟨⟨h.synced, h.known, h.registered, h.turn, h.active⟩, rfl, rfl, rfl⟩
  | output y data =>
    refine untouched_setSession h fun hy => ?_
    subst hy
    exact absurd rfl (hother data)
  | newProxy =>
    simp only [TerminalState.step]
    split
    · exact untouched_reader h fun i y hi => by simp [TerminalState.turn] at hi
    · exact untouched_refl h
  | snapshot =>
    simp only [TerminalState.step]
    split
    · exact untouched_reader h h.registered
    · exact untouched_refl h
  | poll i sighting =>
    simp only [TerminalState.step]
    split
    case h_1 persistent todo closed hreader => exact untouched_poll hz h hreader hnot
    case h_2 => exact untouched_refl h
  | endPolls =>
    simp only [TerminalState.step]
    split
    · split_ifs
      · exact untouched_endPolls h ..
      · exact untouched_refl h
    · exact untouched_refl h
  | cleanUp wait => exact untouched_cleanUp h wait

theorem served_of_polls (hz : z.Lossless) (h : Tracks id x s) (hpolls : Polls x s e) :
    Served z id x s (s.step z e) := by
  unfold Polls at hpolls
  split at hpolls
  case h_1 i o =>
    have hpolls' := hpolls
    unfold TerminalState.turn at hpolls'
    split at hpolls'
    case h_1 persistent todo closed hreader =>
      simp only [TerminalState.step, hreader]
      exact served_poll hz h hreader hpolls
    case h_2 => exact absurd hpolls' nofun
  case h_2 => exact absurd hpolls not_false

/-- A message for the session enters its channel unless the channel is full. -/
theorem output_step (h : Tracks id x s) (data : Bytes) :
    Tracks id x (s.step z (.output x data)) ∧
      ((s.step z (.output x data)).session x).channel =
        (s.session x).channel ++ accepted x s (.output x data) ∧
      ((s.step z (.output x data)).session x).state = (s.session x).state := by
  have hsession : (s.step z (.output x data)).session x = (s.session x).trySendOutput data :=
    Function.update_self ..
  have hstate : ((s.session x).trySendOutput data).state = (s.session x).state := by
    unfold TerminalSession.trySendOutput
    split
    · split_ifs <;> rfl
    · rfl
  refine ⟨⟨h.synced, h.known, h.registered, h.turn, ?_⟩, ?_, ?_⟩
  · rw [hsession, hstate]
    exact h.active
  · rw [hsession]
    unfold TerminalSession.trySendOutput accepted
    cases hrx : (s.session x).outputRx with
    | none => simp [TerminalSession.channel, hrx]
    | some queue =>
      by_cases hfull : queue.length < channelBufferSize <;>
        simp [TerminalSession.channel, hrx, hfull]
  · rw [hsession, hstate]

theorem channel_eq_of_outputRx {a b : TerminalSession} (h : a.outputRx = b.outputRx) :
    a.channel = b.channel := by
  unfold TerminalSession.channel
  rw [h]

theorem pending_eq_of_state {a b : TerminalSession} (h : a.state = b.state) :
    a.pending = b.pending := by
  unfold TerminalSession.pending
  rw [h]

theorem accepted_of_ne (hother : ∀ data, e ≠ .output x data) : accepted x s e = [] := by
  unfold accepted
  split
  case h_1 y data =>
    have hy : y ≠ x := by
      rintro rfl
      exact hother data rfl
    split
    · rw [if_neg fun h => hy h.1]
    · rfl
  case h_2 => rfl

/-- What one step does to the session of a terminal, to its channel and to its output. -/
structure Flow (z : Zstd) (id : Int) (x : Nat) (s : TerminalState) (e : TerminalEvent) : Prop where
  tracks : Tracks id x (s.step z e)
  channel : (s.session x).channel ++ accepted x s e =
    received x s e ++ ((s.step z e).session x).channel
  output : s.output z id ++ (s.session x).pending ++ (received x s e).flatten =
    (s.step z e).output z id ++ ((s.step z e).session x).pending
  pending : ((s.step z e).session x).pending =
    if Polls x s e then [] else (s.session x).pending

theorem flow_step (hz : z.Lossless) (h : Tracks id x s) (hleaves : Leaves id e) :
    Flow z id x s e := by
  by_cases hpolls : Polls x s e
  · have hserved := served_of_polls hz h hpolls
    have hno : ∀ data, e ≠ .output x data := by
      rintro data rfl
      exact hpolls
    refine ⟨hserved.tracks, ?_, ?_, ?_⟩
    · rw [accepted_of_ne hno, received, if_pos hpolls, hserved.channel]
    · rw [received, if_pos hpolls, hserved.output, hserved.pending, List.append_nil,
        List.append_assoc]
    · rw [if_pos hpolls, hserved.pending]
  · have hreceived : received x s e = [] := if_neg hpolls
    by_cases hother : ∀ data, e ≠ .output x data
    · have hkeep := untouched_of_not_polls hz h hleaves hpolls hother
      refine ⟨hkeep.tracks, ?_, ?_, ?_⟩
      · rw [accepted_of_ne hother, hreceived, channel_eq_of_outputRx hkeep.outputRx,
          List.append_nil, List.nil_append]
      · rw [hreceived, hkeep.output, pending_eq_of_state hkeep.state, List.flatten_nil,
          List.append_nil]
      · rw [if_neg hpolls, pending_eq_of_state hkeep.state]
    · push Not at hother
      obtain ⟨data, rfl⟩ := hother
      obtain ⟨htracks, hchannel, hstate⟩ := output_step (z := z) h data
      have hpending := pending_eq_of_state hstate
      refine ⟨htracks, ?_, ?_, ?_⟩
      · rw [hreceived, hchannel, List.nil_append]
      · rw [hreceived, hpending, List.flatten_nil, List.append_nil]
        rfl
      · rw [if_neg hpolls, hpending]

variable {events : List TerminalEvent}

/-- No step of the run polls the session. -/
abbrev Unpolled (z : Zstd) (x : Nat) (s : TerminalState) (events : List TerminalEvent) : Prop :=
  Guarded (TerminalState.step z) (fun s e => ¬ Polls x s e) s events

theorem pending_run (hz : z.Lossless) (h : Tracks id x s) (hleaves : ∀ e ∈ events, Leaves id e) :
    ((run (TerminalState.step z) s events).session x).pending =
      if Unpolled z x s events then (s.session x).pending else [] := by
  induction events generalizing s with
  | nil => simp [Unpolled, Guarded]
  | cons e events ih =>
    have hflow := flow_step hz h (hleaves e List.mem_cons_self)
    have hrest := ih hflow.tracks fun e' he' => hleaves e' (List.mem_cons_of_mem _ he')
    rw [run_cons, hrest, hflow.pending]
    by_cases hpolls : Polls x s e
    · simp [Unpolled, Guarded, hpolls]
    · simp [Unpolled, Guarded, hpolls]

theorem channel_run (hz : z.Lossless) (h : Tracks id x s) (hleaves : ∀ e ∈ events, Leaves id e) :
    (s.session x).channel ++ collect (TerminalState.step z) (accepted x) s events =
      collect (TerminalState.step z) (received x) s events ++
        ((run (TerminalState.step z) s events).session x).channel := by
  have hguard : Guarded (TerminalState.step z) (fun _ e => Leaves id e) s events :=
    guarded_of_mem hleaves
  apply collect_conserved (fun s => (s.session x).channel) (accepted x) (received x) ?_ ?_ h hguard
  · intro s e hs he
    exact (flow_step hz hs he).tracks
  · intro s e hs he
    exact (flow_step hz hs he).channel

theorem output_run (hz : z.Lossless) (h : Tracks id x s) (hleaves : ∀ e ∈ events, Leaves id e) :
    s.output z id ++ (s.session x).pending ++
        (collect (TerminalState.step z) (received x) s events).flatten =
      (run (TerminalState.step z) s events).output z id ++
        ((run (TerminalState.step z) s events).session x).pending := by
  have hguard : Guarded (TerminalState.step z) (fun _ e => Leaves id e) s events :=
    guarded_of_mem hleaves
  have htracks : ∀ t e, Tracks id x t → Leaves id e → Tracks id x (t.step z e) := by
    intro t e ht he
    exact (flow_step hz ht he).tracks
  have hflow : ∀ t e, Tracks id x t → Leaves id e → t.output z id ++ (t.session x).pending ++
      (received x t e).flatten =
        [] ++ ((t.step z e).output z id ++ ((t.step z e).session x).pending) := by
    intro t e ht he
    exact (flow_step hz ht he).output
  have hconserved := collect_conserved (fun t => t.output z id ++ (t.session x).pending)
    (fun t e => (received x t e).flatten) (fun _ _ => [])
    htracks hflow h hguard
  rw [collect_eq_nil (guarded_of_forall fun _ _ => rfl), List.nil_append] at hconserved
  rw [collect_flatten, hconserved]

theorem received_run (h : Unpolled z x s events) :
    collect (TerminalState.step z) (received x) s events = [] :=
  collect_eq_nil (guarded_imp (fun _ _ hnot => if_neg hnot) h)

theorem reconnect_pending (session : TerminalSession) :
    session.reconnect.pending =
      (session.outputBuffer.appendAll (session.channel.take channelBufferSize)).getRecent
        defaultReconnectBufferBytes := by
  generalize hbuffer : (session.outputBuffer.appendAll
    (session.channel.take channelBufferSize)).getRecent defaultReconnectBufferBytes = buffer
  by_cases hempty : buffer = [] <;>
    simp [TerminalSession.pending, TerminalSession.reconnect, hbuffer, hempty]

theorem reconnect_channel (session : TerminalSession) :
    session.reconnect.channel = session.channel.drop channelBufferSize := by
  cases hrx : session.outputRx <;> simp [TerminalSession.reconnect, TerminalSession.channel, hrx]

section Opened

variable {request : OpenTerminal} (spawn : SpawnResult)
  (hx : (s.remap request.terminalId).registered request.terminalId = some x)

include hx

theorem opened_session : ((s.handleOpen request spawn).1).session x = (s.session x).reconnect := by
  rw [TerminalState.handleOpen_reconnect spawn hx]
  exact Function.update_self ..

theorem opened_output : ((s.handleOpen request spawn).1).output z id = s.output z id := by
  rw [TerminalState.handleOpen_reconnect spawn hx]
  unfold TerminalState.remap
  split_ifs
  · split <;> rfl
  · rfl

theorem opened_tracks (hidle : s.reader = .idle) :
    Tracks request.terminalId x (s.handleOpen request spawn).1 := by
  have hreader : (s.remap request.terminalId).reader = .idle := by
    unfold TerminalState.remap
    split_ifs
    · split <;> exact hidle
    · exact hidle
  refine ⟨?_, ?_, ?_, ?_, ?_⟩
  · rw [TerminalState.handleOpen_reconnect spawn hx]
    rfl
  · rw [TerminalState.handleOpen_reconnect spawn hx]
    exact (s.remap request.terminalId).service.sessions.below _ _ hx
  · rw [TerminalState.handleOpen_reconnect spawn hx]
    intro i y hi
    constructor
    · rintro rfl
      exact Option.some.inj (hi.symm.trans hx)
    · rintro rfl
      exact (s.remap request.terminalId).service.sessions.distinct i _ y hi hx
  · rw [TerminalState.handleOpen_reconnect spawn hx]
    intro i y hi
    simp [TerminalState.turn, TerminalState.clearSync, hreader] at hi
  · rw [opened_session spawn hx]
    intro hclosed
    cases hclosed

end Opened

end TerminalReplay

open TerminalReplay

/-- After a reconnection the client is sent the most recent output of the session, and then
the messages that leave the channel of the session: those that had not been drained and those
that enter it afterwards, in this order. Nothing is sent before the session is polled. -/
theorem terminal_replay {z : Zstd} (hz : z.Lossless) {s : TerminalState} (hidle : s.reader = .idle)
    (request : OpenTerminal) {x : Nat} (spawn : SpawnResult)
    (hx : (s.remap request.terminalId).registered request.terminalId = some x)
    (events : List TerminalEvent) (hleaves : ∀ e ∈ events, Leaves request.terminalId e) :
    let opened := (s.handleOpen request spawn).1
    let last := run (TerminalState.step z) opened events
    let replayed := ((s.session x).outputBuffer.appendAll ((s.session x).channel.take 500)).getRecent
      (8 * 1024)
    let live := collect (TerminalState.step z) (received x) opened events
    live ++ (last.session x).channel =
        (s.session x).channel.drop 500 ++ collect (TerminalState.step z) (accepted x) opened events ∧
      (Unpolled z x opened events →
        live = [] ∧ last.output z request.terminalId = s.output z request.terminalId) ∧
      (¬ Unpolled z x opened events → last.output z request.terminalId =
        s.output z request.terminalId ++ (replayed ++ live.flatten)) := by
  intro opened last replayed live
  have htracks : Tracks request.terminalId x opened := opened_tracks spawn hx hidle
  have hsession : opened.session x = (s.session x).reconnect := opened_session spawn hx
  have hchannel := channel_run hz htracks hleaves
  have houtput := output_run hz htracks hleaves
  have hpending := pending_run hz htracks hleaves
  rw [hsession, reconnect_channel] at hchannel
  rw [hsession, reconnect_pending, opened_output spawn hx] at houtput
  rw [hsession, reconnect_pending] at hpending
  refine ⟨hchannel.symm, ?_, ?_⟩
  · intro hunpolled
    have hlive : live = [] := received_run hunpolled
    rw [hpending, if_pos hunpolled, received_run hunpolled, List.flatten_nil,
      List.append_nil] at houtput
    exact ⟨hlive, (List.append_cancel_right houtput).symm⟩
  · intro hpolled
    rw [hpending, if_neg hpolled, List.append_nil, List.append_assoc] at houtput
    exact houtput.symm

namespace TerminalReplay

/-- A service whose only session is under another id than the client will ask for; a line of
its output is remembered, and a message waits in the channel. -/
def survivor : TerminalState where
  service :=
    { serviceId := "ts"
      sessions := Sessions.add .empty 2
      isPersistent := true
      needsSessionSync := true }
  heap _ :=
    { ptyPair := true
      child := true
      outputRx := some [[98]]
      readerThread := true
      outputBuffer := { lines := [[97, 10]], totalSize := 2 }
      rows := 24
      cols := 80 }

/-- Two calls of `read_outputs`; in the second one the session is locked. -/
def twoCalls : List TerminalEvent :=
  [.output 0 [99], .newProxy, .snapshot, .poll 1 (some {}), .endPolls, .output 0 [100], .newProxy,
    .snapshot, .poll 1 none, .endPolls]

end TerminalReplay

theorem terminal_replay_remapped :
    (run (TerminalState.step Zstd.stored) (survivor.handleOpen ⟨1, 24, 80⟩ (.error "")).1
      twoCalls).output Zstd.stored 1 = [97, 10, 98, 99] := by
  have hidle : survivor.reader = .idle := rfl
  have hreplay := terminal_replay Zstd.lossless_stored hidle ⟨1, 24, 80⟩ (x := 0) (.error "") (by decide)
    twoCalls (by simp [twoCalls, Leaves])
  exact hreplay.2.2 (by decide)

end RustDesk
