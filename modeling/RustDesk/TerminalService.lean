import RustDesk.TerminalSession
import RustDesk.History
import Mathlib.Data.Finmap
import Mathlib.Data.Finset.Max

/-!
# The terminal service

The service keeps its sessions in a map by terminal id. The client's actions hold the lock
of the service, so that each is one step; `read_outputs` runs beside them in a thread of its
own and holds the locks only for a short time: it takes a snapshot of the map, polls the
sessions of the snapshot one by one, and then cleans up those that have ended, by their ids,
in a second copy of the map. Session objects are shared between the map and its copies; they
are numbered here in the order in which they are created.
-/

namespace RustDesk

/-- Terminal ids and the session objects under them. -/
abbrev SessionMap := Finmap fun _ : Int => Nat

/-- The map of the service: an object is under one id only, and the next one is new. -/
structure Sessions where
  map : SessionMap := ∅
  next : Nat := 0
  below : ∀ id x, map.lookup id = some x → x < next := by simp
  distinct : ∀ i j x, map.lookup i = some x → map.lookup j = some x → i = j := by simp

namespace Sessions

def empty : Sessions := {}

def lookup (t : Sessions) (id : Int) : Option Nat := t.map.lookup id

theorem lookup_erase_eq_some {m : SessionMap} {i id : Int} {x : Nat} :
    (m.erase id).lookup i = some x ↔ i ≠ id ∧ m.lookup i = some x := by
  by_cases hi : i = id
  · subst hi
    simp
  · rw [Finmap.lookup_erase_ne hi]
    simp [hi]

theorem lookup_insert_eq_some {m : SessionMap} {i id : Int} {x y : Nat} :
    (m.insert id y).lookup i = some x ↔ i = id ∧ x = y ∨ i ≠ id ∧ m.lookup i = some x := by
  by_cases hi : i = id
  · subst hi
    rw [Finmap.lookup_insert]
    simp [eq_comm]
  · rw [Finmap.lookup_insert_of_ne _ hi]
    simp [hi]

def erase (t : Sessions) (id : Int) : Sessions where
  map := t.map.erase id
  next := t.next
  below i x h := t.below i x (lookup_erase_eq_some.mp h).2
  distinct i j x hi hj :=
    t.distinct i j x (lookup_erase_eq_some.mp hi).2 (lookup_erase_eq_some.mp hj).2

/-- The object of `source` is registered under `id` instead. -/
def move (t : Sessions) (source id : Int) : Sessions :=
  match h : t.map.lookup source with
  | none => t
  | some x =>
    { map := (t.map.erase source).insert id x
      next := t.next
      below := by
        intro i y hi
        rcases lookup_insert_eq_some.mp hi with ⟨-, rfl⟩ | ⟨-, hi⟩
        · exact t.below source y h
        · exact t.below i y (lookup_erase_eq_some.mp hi).2
      distinct := by
        intro i j y hi hj
        rcases lookup_insert_eq_some.mp hi with ⟨rfl, rfl⟩ | ⟨-, hi'⟩
          <;> rcases lookup_insert_eq_some.mp hj with ⟨rfl, hy⟩ | ⟨-, hj'⟩
        · rfl
        · obtain ⟨hne, hj'⟩ := lookup_erase_eq_some.mp hj'
          exact absurd (t.distinct j source y hj' h) hne
        · subst hy
          obtain ⟨hne, hi'⟩ := lookup_erase_eq_some.mp hi'
          exact absurd (t.distinct i source y hi' h) hne
        · exact t.distinct i j y (lookup_erase_eq_some.mp hi').2 (lookup_erase_eq_some.mp hj').2 }

theorem next_move (t : Sessions) (source id : Int) : (t.move source id).next = t.next := by
  unfold move
  split <;> rfl

theorem lookup_move {t : Sessions} {source id i : Int} {x : Nat}
    (h : (t.move source id).lookup i = some x) :
    t.lookup i = some x ∨ i = id ∧ t.lookup source = some x := by
  unfold move at h
  split at h
  · exact Or.inl h
  · rename_i y hy
    rcases lookup_insert_eq_some.mp h with ⟨rfl, rfl⟩ | ⟨-, h⟩
    · exact Or.inr ⟨rfl, hy⟩
    · exact Or.inl (lookup_erase_eq_some.mp h).2

/-- A new object is registered under `id`. -/
def add (t : Sessions) (id : Int) : Sessions where
  map := t.map.insert id t.next
  next := t.next + 1
  below := by
    intro i x hi
    rcases lookup_insert_eq_some.mp hi with ⟨-, rfl⟩ | ⟨-, hi⟩
    · omega
    · have := t.below i x hi
      omega
  distinct := by
    intro i j x hi hj
    rcases lookup_insert_eq_some.mp hi with ⟨rfl, hx⟩ | ⟨-, hi'⟩
      <;> rcases lookup_insert_eq_some.mp hj with ⟨rfl, hx'⟩ | ⟨-, hj'⟩
    · rfl
    · have := t.below j x hj'
      omega
    · have := t.below i x hi'
      omega
    · exact t.distinct i j x hi' hj'

end Sessions

structure PersistentTerminalService where
  serviceId : String
  sessions : Sessions := {}
  isPersistent : Bool := false
  needsSessionSync : Bool := false

structure OpenTerminal where
  terminalId : Int
  rows : Nat
  cols : Nat
  deriving DecidableEq, Repr

/-- Where a call of `read_outputs` is: `ready` has its proxy, which has asked the service
whether it is persistent; then the call polls the sessions `todo` of its snapshot, or cleans
up the terminals in `closed` with its second copy of the map. The clean-up of a terminal
stops once more between the map and the session: in a service that is not persistent the
entry goes first and the child of the object follows, in a persistent one it is the reverse. -/
inductive ReadPhase
  | idle
  | ready (persistent : Bool)
  | polling (persistent : Bool) (todo : SessionMap) (closed : List Int)
  | cleaning (persistent : Bool) (copy : SessionMap) (closed : List Int)
  | taking (copy : SessionMap) (id : Int) (x : Nat) (closed : List Int)
  | removing (copy : SessionMap) (id : Int) (exitCode : Int) (closed : List Int)

/-- The service with its session objects, and the thread of `read_outputs`: `responses` are
those of the running call, `sent` those of the calls before. -/
structure TerminalState where
  service : PersistentTerminalService
  heap : Nat → TerminalSession
  reader : ReadPhase := .idle
  responses : List TerminalResponse := []
  sent : List TerminalResponse := []

/-- What opening a terminal and starting its shell gives. -/
abbrev SpawnResult := Except String Nat

/-- One step of the service. In `poll`, `sighting` is absent when the session is locked by
someone else; in `handleClose`, `killed` says whether the child could be killed. -/
inductive TerminalEvent
  | handleOpen (request : OpenTerminal) (spawn : SpawnResult)
  | handleClose (terminalId : Int) (killed : Except String Unit)
  | resetStatus (isPersistent : Bool)
  | setPersistent (isPersistent : Bool)
  | output (x : Nat) (data : Bytes)
  | newProxy
  | snapshot
  | poll (terminalId : Int) (sighting : Option Sighting)
  | endPolls
  | cleanUp (wait : WaitResult)

namespace TerminalState

def session (s : TerminalState) (x : Nat) : TerminalSession := s.heap x

def registered (s : TerminalState) (id : Int) : Option Nat := s.service.sessions.lookup id

def setSession (s : TerminalState) (x : Nat) (session : TerminalSession) : TerminalState :=
  { s with heap := Function.update s.heap x session }

def setSessions (s : TerminalState) (sessions : Sessions) : TerminalState :=
  { s with service := { s.service with sessions } }

@[simp] theorem setSession_session (s : TerminalState) (x y : Nat) (v : TerminalSession) :
    (s.setSession y v).session x = if x = y then v else s.session x := Function.update_apply ..

@[simp] theorem setSession_service (s : TerminalState) (x : Nat) (v : TerminalSession) :
    (s.setSession x v).service = s.service := rfl

@[simp] theorem setSession_reader (s : TerminalState) (x : Nat) (v : TerminalSession) :
    (s.setSession x v).reader = s.reader := rfl

@[simp] theorem setSessions_session (s : TerminalState) (t : Sessions) (x : Nat) :
    (s.setSessions t).session x = s.session x := rfl

@[simp] theorem setSessions_reader (s : TerminalState) (t : Sessions) :
    (s.setSessions t).reader = s.reader := rfl

@[simp] theorem setSessions_sessions (s : TerminalState) (t : Sessions) :
    (s.setSessions t).service.sessions = t := rfl

/-- The first part of `handle_open`: after a reconnection, the session with the lowest id is
given the id that the client asks for when there is none under it. -/
def remap (s : TerminalState) (terminalId : Int) : TerminalState :=
  if (s.registered terminalId).isNone ∧ s.service.needsSessionSync then
    match s.service.sessions.map.keys.min with
    | some lowestId => s.setSessions (s.service.sessions.move lowestId terminalId)
    | none => s
  else s

theorem remap_cases (s : TerminalState) (id : Int) :
    s.remap id = s ∨ s.registered id = none ∧
      ∃ lowest, s.remap id = s.setSessions (s.service.sessions.move lowest id) := by
  unfold remap
  split_ifs with h
  · split
    · exact Or.inr ⟨Option.isNone_iff_eq_none.mp h.1, _, rfl⟩
    · exact Or.inl rfl
  · exact Or.inl rfl

/-- The ids of the other sessions, listed in the first answer after a reconnection. -/
def otherSessions (s : TerminalState) (terminalId : Int) : Finset Int :=
  if s.service.needsSessionSync then s.service.sessions.map.keys.erase terminalId else ∅

def clearSync (s : TerminalState) : TerminalState :=
  { s with service := { s.service with needsSessionSync := false } }

/-- A session with a shell that has just been started. -/
def newSession (request : OpenTerminal) (pid : Nat) : TerminalSession where
  ptyPair := true
  child := true
  outputRx := some []
  readerThread := true
  pid
  rows := request.rows % 2 ^ 16
  cols := request.cols % 2 ^ 16
  state := .active none .idle

def handleOpen (s : TerminalState) (request : OpenTerminal) (spawn : SpawnResult) :
    TerminalState × Except String TerminalResponse :=
  let s := s.remap request.terminalId
  match s.registered request.terminalId with
  | some x =>
    let session := (s.session x).reconnect
    let hasPending := !session.pending.isEmpty
    ((s.setSession x session).clearSync,
      .ok (.opened {
        terminalId := request.terminalId
        success := true
        message := if hasPending then "Reconnected to existing terminal with pending output"
          else "Reconnected to existing terminal"
        pid := session.pid
        serviceId := s.service.serviceId
        replayTerminalOutput := hasPending
        persistentSessions := s.otherSessions request.terminalId }))
  | none =>
    match spawn with
    | .error e => (s, .error e)
    | .ok pid =>
      ((s.setSession s.service.sessions.next (newSession request pid)
          |>.setSessions (s.service.sessions.add request.terminalId)).clearSync,
        .ok (.opened {
          terminalId := request.terminalId
          success := true
          message := "Terminal opened"
          pid
          serviceId := s.service.serviceId
          persistentSessions := s.otherSessions request.terminalId }))

section HandleOpen

variable {s : TerminalState} {request : OpenTerminal}

theorem handleOpen_reconnect {x : Nat} (spawn : SpawnResult)
    (h : (s.remap request.terminalId).registered request.terminalId = some x) :
    (s.handleOpen request spawn).1 =
      ((s.remap request.terminalId).setSession x (s.session x).reconnect).clearSync := by
  have hsession : (s.remap request.terminalId).session x = s.session x := by
    unfold remap
    split_ifs
    · split <;> rfl
    · rfl
  simp only [handleOpen, h, hsession]

theorem handleOpen_error {e : String}
    (h : (s.remap request.terminalId).registered request.terminalId = none) :
    (s.handleOpen request (.error e)).1 = s.remap request.terminalId := by
  simp only [handleOpen, h]

theorem handleOpen_new {pid : Nat}
    (h : (s.remap request.terminalId).registered request.terminalId = none) :
    (s.handleOpen request (.ok pid)).1 =
      (((s.remap request.terminalId).setSession (s.remap request.terminalId).service.sessions.next
          (newSession request pid)).setSessions
        ((s.remap request.terminalId).service.sessions.add request.terminalId)).clearSync := by
  simp only [handleOpen, h]

end HandleOpen

def handleClose (s : TerminalState) (terminalId : Int) (killed : Except String Unit) :
    TerminalState × Except String (Option TerminalResponse) :=
  match s.registered terminalId with
  | some x =>
    let exitCode : Except String Int := if (s.session x).child then killed.map fun _ => -1 else .ok 0
    (s.setSessions (s.service.sessions.erase terminalId)
        |>.setSession x { s.session x with child := false },
      exitCode.map fun exitCode => some (.closed { terminalId, exitCode }))
  | none => (s, .ok none)

def resetStatus (s : TerminalState) (isPersistent : Bool) : TerminalState :=
  { s with
    service := { s.service with isPersistent, needsSessionSync := true }
    heap := fun x =>
      if x ∈ s.service.sessions.map.entries.map Sigma.snd then { s.heap x with state := .closed }
      else s.heap x }

/-- `read_outputs` returns. -/
def returnResponses (s : TerminalState) : TerminalState :=
  { s with reader := .idle, responses := [], sent := s.sent ++ s.responses }

def respond (s : TerminalState) (responses : List TerminalResponse) : TerminalState :=
  { s with responses := s.responses ++ responses }

def setPersistent (s : TerminalState) (isPersistent : Bool) : TerminalState :=
  { s with service := { s.service with isPersistent } }

def poll (z : Zstd) (s : TerminalState) (persistent : Bool) (todo : SessionMap) (closed : List Int)
    (terminalId : Int) (sighting : Option Sighting) : TerminalState :=
  match todo.lookup terminalId with
  | none => s
  | some x =>
    let todo := todo.erase terminalId
    match sighting with
    | none => { s with reader := .polling persistent todo closed }
    | some o =>
      let (session, responses) := (s.session x).poll z terminalId o
      let closed := if (s.session x).shouldSendClosed o then closed ++ [terminalId] else closed
      { (s.setSession x session).respond responses with reader := .polling persistent todo closed }

theorem poll_eq {z : Zstd} {s : TerminalState} {persistent : Bool} {todo : SessionMap}
    {closed : List Int} {id : Int} {x : Nat} (h : todo.lookup id = some x) (o : Sighting) :
    s.poll z persistent todo closed id (some o) =
      { (s.setSession x ((s.session x).poll z id o).1).respond ((s.session x).poll z id o).2 with
        reader := .polling persistent (todo.erase id)
          (if (s.session x).shouldSendClosed o then closed ++ [id] else closed) } := by
  simp only [poll, h]

/-- The session whose turn comes when `read_outputs` goes on with a terminal. -/
def turn (s : TerminalState) (id : Int) : Option Nat :=
  match s.reader with
  | .polling _ todo _ => todo.lookup id
  | _ => none

theorem turn_polling {s : TerminalState} {persistent : Bool} {todo : SessionMap}
    {closed : List Int} (hreader : s.reader = .polling persistent todo closed) (id : Int) :
    s.turn id = todo.lookup id := by
  simp only [turn, hreader]

/-- All sessions of the snapshot have been polled. -/
def endPolls (s : TerminalState) (persistent : Bool) (closed : List Int) : TerminalState :=
  if closed.isEmpty then s.returnResponses
  else { s with reader := .cleaning persistent s.service.sessions.map closed }

/-- The response for a terminal that has been cleaned up. -/
def cleaned (s : TerminalState) (persistent : Bool) (copy : SessionMap) (closed : List Int)
    (terminalId exitCode : Int) : TerminalState :=
  { s.respond [.closed { terminalId, exitCode }] with reader := .cleaning persistent copy closed }

/-- The clean-up begins with the next terminal that has ended. -/
def beginCleanUp (s : TerminalState) (persistent : Bool) (copy : SessionMap) (closed : List Int)
    (terminalId : Int) (wait : WaitResult) : TerminalState :=
  match copy.lookup terminalId with
  | none => s.cleaned persistent copy closed terminalId 0
  | some x =>
    if persistent then
      let (session, exitCode) := (s.session x).takeChild wait
      let s := s.setSession x session
      if session.closedMessageSent then
        { s with reader := .removing copy terminalId exitCode closed }
      else s.cleaned persistent copy closed terminalId exitCode
    else
      { s.setSessions (s.service.sessions.erase terminalId) with
        reader := .taking (copy.erase terminalId) terminalId x closed }

def cleanUp (s : TerminalState) (wait : WaitResult) : TerminalState :=
  match s.reader with
  | .cleaning _ _ [] => s.returnResponses
  | .cleaning persistent copy (id :: closed) => s.beginCleanUp persistent copy closed id wait
  | .taking copy id x closed =>
    let (session, exitCode) := (s.session x).takeChild wait
    (s.setSession x session).cleaned false copy closed id exitCode
  | .removing copy id exitCode closed =>
    s.setSessions (s.service.sessions.erase id)
      |>.cleaned true (copy.erase id) closed id exitCode
  | _ => s

/-- A step that the thread of `read_outputs` is not ready for changes nothing. -/
def step (z : Zstd) (s : TerminalState) : TerminalEvent → TerminalState
  | .handleOpen request spawn => (s.handleOpen request spawn).1
  | .handleClose id killed => (s.handleClose id killed).1
  | .resetStatus isPersistent => s.resetStatus isPersistent
  | .setPersistent isPersistent => s.setPersistent isPersistent
  | .output x data => s.setSession x ((s.session x).trySendOutput data)
  | .newProxy =>
    match s.reader with
    | .idle => { s with reader := .ready s.service.isPersistent }
    | _ => s
  | .snapshot =>
    match s.reader with
    | .ready persistent => { s with reader := .polling persistent s.service.sessions.map [] }
    | _ => s
  | .poll id sighting =>
    match s.reader with
    | .polling persistent todo closed => s.poll z persistent todo closed id sighting
    | _ => s
  | .endPolls =>
    match s.reader with
    | .polling persistent todo closed => if todo = ∅ then s.endPolls persistent closed else s
    | _ => s
  | .cleanUp wait => s.cleanUp wait

end TerminalState

end RustDesk
