import RustDesk.History

/-!
# The clipboard read through the connection manager

The service asks the connection manager for the clipboard and waits 800 ms for the answer; formats of
more than 3 KiB follow in one more frame, for which it waits 1000 ms. The stream is kept for the next
call, and neither requests nor answers say which call they belong to.

Here a frame carries a mark that the service does not see: the request it answers, and the clipboard
that the manager found for it. A connection that was given up is forgotten, since no call reads from
it again. That a frame comes too late is a `timeout` before it is received.
-/

namespace RustDesk.ClipboardCm

open History (run Guarded Throughout)

abbrev Bytes := List UInt8

structure Clipboard where
  compress : Bool
  content : Bytes
  width : Int
  height : Int
  format : Int
  specialName : String
  deriving DecidableEq, Repr

structure ClipboardNonFile where
  compress : Bool
  content : Bytes
  contentLen : Nat
  nextRaw : Bool
  width : Int
  height : Int
  format : Int
  specialName : String
  deriving DecidableEq, Repr

def ClipboardNonFile.clipboard (c : ClipboardNonFile) : Clipboard :=
  ⟨c.compress, c.content, c.width, c.height, c.format, c.specialName⟩

/-- An error of the clipboard, which has a text. -/
structure Failure where
  text : String
  text_ne : text ≠ ""
  deriving DecidableEq, Repr

abbrev Snapshot := Except Failure (List Clipboard)

inductive Data
  | clipboardNonFile (answer : Option (String × List ClipboardNonFile))
  | monitorReady
  | other
  deriving DecidableEq, Repr

inductive Frame
  | json (data : Data)
  | raw (bytes : Bytes)
  deriving DecidableEq, Repr

/-! ### The manager -/

def Clipboard.isLarge (c : Clipboard) : Bool := 1024 * 3 < c.content.length

def Clipboard.main (c : Clipboard) : ClipboardNonFile where
  compress := c.compress
  content := if c.isLarge then [] else c.content
  contentLen := c.content.length
  nextRaw := c.isLarge
  width := c.width
  height := c.height
  format := c.format
  specialName := c.specialName

/-- One round of the loop: the raw contents and the main data so far. -/
def push (parts : Bytes × List ClipboardNonFile) (c : Clipboard) : Bytes × List ClipboardNonFile :=
  (if c.isLarge then parts.1 ++ c.content else parts.1, parts.2 ++ [c.main])

def frames : Snapshot → List Frame
  | .ok clipboards =>
    let (rawContents, mainData) := clipboards.foldl push ([], [])
    let header := Frame.json (.clipboardNonFile (some ("", mainData)))
    if rawContents ≠ [] then [header, .raw rawContents] else [header]
  | .error e => [.json (.clipboardNonFile (some (e.text, [])))]

structure Answer where
  request : Nat
  snapshot : Snapshot

structure Sent where
  answer : Option Answer
  frame : Frame

/-- The stream: requests that the manager has not handled, and frames that have not been read. -/
structure Conn where
  requests : List Nat := []
  inbox : List Sent := []

namespace Conn

def fresh (isEnabled : Bool) : Conn where
  inbox := if isEnabled then [⟨none, .json .monitorReady⟩] else []

def ask (conn : Conn) (id : Nat) : Conn := { conn with requests := conn.requests ++ [id] }

def reply (conn : Conn) (snapshot : Snapshot) : Conn :=
  match conn.requests with
  | id :: requests =>
    { requests, inbox := conn.inbox ++ (frames snapshot).map fun f => ⟨some ⟨id, snapshot⟩, f⟩ }
  | [] => conn

end Conn

/-! ### The service -/

inductive ReadError
  | runtime
  | connect
  | send
  | timedOut
  | reset
  | manager (text : String)
  | raw
  | unexpected
  deriving DecidableEq, Repr

abbrev Reply := Except ReadError (List ClipboardNonFile)

inductive Phase
  | idle
  | header (id : Nat)
  | raw (id : Nat) (answer : Option Answer) (contents : List ClipboardNonFile)
  | panicked

/-- What a call returned, and the answer that it took. -/
structure Result where
  call : Nat
  answer : Option Answer
  reply : Reply

structure State where
  rt : Bool := false
  stream : Option Conn := none
  phase : Phase := .idle
  calls : Nat := 0
  results : List Result := []

inductive Event
  /-- A call: whether a runtime can be made, whether the kept stream takes the request, whether there is a
  new connection (and a `MonitorReady` on it) and it takes the request. -/
  | call (runtime sent : Bool) (connect : Option Bool) (sentNew : Bool)
  | answer (snapshot : Snapshot)
  | receive
  | timeout
  | reset

/-- `data.split_to` for each format that comes raw; it panics where there is too little data. -/
def fill : List ClipboardNonFile → Bytes → Option (List ClipboardNonFile)
  | [], _ => some []
  | c :: cs, data =>
    if c.nextRaw then
      if c.contentLen ≤ data.length then
        (fill cs (data.drop c.contentLen)).map ({ c with content := data.take c.contentLen } :: ·)
      else none
    else (fill cs data).map (c :: ·)

/-- How a frame is read that is not what was expected. -/
structure Misread where
  parse : Bytes → Option Data
  toVec : Data → Bytes

variable (m : Misread)

/-- `ConnectionTmpl::next` -/
def next : Frame → Option Data
  | .json data => some data
  | .raw bytes => m.parse bytes

/-- `ConnectionTmpl::next_raw` -/
def nextRaw : Frame → Bytes
  | .json data => m.toVec data
  | .raw bytes => bytes

namespace State

variable (s : State)

def finish (id : Nat) (answer : Option Answer) (reply : Reply) : State :=
  { s with phase := .idle, results := ⟨id, answer, reply⟩ :: s.results }

/-- `read_clipboard_from_cm_ipc`, up to its loop. -/
def call (runtime sent : Bool) (connect : Option Bool) (sentNew : Bool) : State :=
  let id := s.calls
  let s := { s with calls := s.calls + 1 }
  if !s.rt && !runtime then s.finish id none (.error .runtime)
  else
    let s := { s with rt := true }
    match s.stream, sent with
    | some conn, true => { s with stream := some (conn.ask id), phase := .header id }
    | _, _ =>
      match connect with
      | none => s.finish id none (.error .connect)
      | some isEnabled =>
        if sentNew then { s with stream := some ((Conn.fresh isEnabled).ask id), phase := .header id }
        else s.finish id none (.error .send)

/-- The loop, when `next_timeout` returns a frame. -/
def onHeader (id : Nat) (x : Sent) : State :=
  match next m x.frame with
  | some (.clipboardNonFile (some (err, contents))) =>
    if err ≠ "" then s.finish id x.answer (.error (.manager err))
    else if contents.any (·.nextRaw) then { s with phase := .raw id x.answer contents }
    else s.finish id x.answer (.ok contents)
  | some .monitorReady => s
  | _ => s.finish id x.answer (.error .unexpected)

def onRaw (id : Nat) (answer : Option Answer) (contents : List ClipboardNonFile) (x : Sent) : State :=
  match fill contents (nextRaw m x.frame) with
  | some contents => s.finish id answer (.ok contents)
  | none => { s with phase := .panicked }

def takeFrame : Option (Sent × State) :=
  match s.stream with
  | some ⟨requests, x :: inbox⟩ => some (x, { s with stream := some ⟨requests, inbox⟩ })
  | _ => none

def receive : State :=
  match s.phase, s.takeFrame with
  | .header id, some (x, s) => s.onHeader m id x
  | .raw id answer contents, some (x, s) => s.onRaw m id answer contents x
  | _, _ => s

def dropStream : State := { s with stream := none }

def step : Event → State
  | .call runtime sent connect sentNew =>
    match s.phase with
    | .idle => s.call runtime sent connect sentNew
    | _ => s
  | .answer snapshot => { s with stream := s.stream.map (·.reply snapshot) }
  | .receive => s.receive m
  | .timeout =>
    match s.phase with
    | .header id => s.finish id none (.error .timedOut)
    | .raw id answer contents => s.dropStream.finish id answer (.ok contents)
    | _ => s
  | .reset =>
    match s.phase with
    | .header id => s.finish id none (.error .reset)
    | .raw id answer _ => s.dropStream.finish id answer (.error .raw)
    | _ => s

end State

/-! ### What is promised, and when it holds -/

/-- What is returned are the formats and bytes of the clipboard that was found for this call. -/
def Result.Right (r : Result) : Prop :=
  ∀ contents, r.reply = .ok contents →
    ∃ clipboards, r.answer = some ⟨r.call, .ok clipboards⟩ ∧
      contents.map ClipboardNonFile.clipboard = clipboards

def Conn.Settled (conn : Conn) : Prop := conn.requests = [] ∧ ∀ x ∈ conn.inbox, x.answer = none

/-- A call reuses the stream only when nothing is owed on it, and raw data are not late. -/
def State.Undelayed (s : State) : Event → Prop
  | .call _ sent _ _ => s.phase = .idle → sent = true → ∀ conn ∈ s.stream, conn.Settled
  | .timeout => ∀ id answer contents, s.phase ≠ .raw id answer contents
  | _ => True

/-! ### The two frames of an answer -/

def mainData (clipboards : List Clipboard) : List ClipboardNonFile := clipboards.map Clipboard.main

def rawContents (clipboards : List Clipboard) : Bytes :=
  clipboards.flatMap fun c => if c.isLarge then c.content else []

@[simp] theorem main_nextRaw (c : Clipboard) : c.main.nextRaw = c.isLarge := rfl

@[simp] theorem mainData_cons (c : Clipboard) (clipboards : List Clipboard) :
    mainData (c :: clipboards) = c.main :: mainData clipboards := rfl

theorem rawContents_cons (c : Clipboard) (clipboards : List Clipboard) :
    rawContents (c :: clipboards) = (if c.isLarge then c.content else []) ++ rawContents clipboards := by
  rw [rawContents, List.flatMap_cons, rawContents]

theorem foldl_push (clipboards : List Clipboard) (parts : Bytes × List ClipboardNonFile) :
    clipboards.foldl push parts = (parts.1 ++ rawContents clipboards, parts.2 ++ mainData clipboards) := by
  induction clipboards generalizing parts with
  | nil => simp [rawContents, mainData]
  | cons c clipboards ih =>
    rw [List.foldl_cons, ih, push, rawContents_cons, mainData_cons]
    by_cases hc : c.isLarge = true
    · simp [hc]
    · simp [hc]

theorem frames_ok (clipboards : List Clipboard) :
    frames (.ok clipboards) =
      Frame.json (.clipboardNonFile (some ("", mainData clipboards))) ::
        if rawContents clipboards ≠ [] then [.raw (rawContents clipboards)] else [] := by
  rw [frames, foldl_push]
  by_cases hraw : rawContents clipboards = []
  · simp [hraw]
  · simp [hraw]

theorem any_nextRaw (clipboards : List Clipboard) :
    (mainData clipboards).any (·.nextRaw) = true ↔ rawContents clipboards ≠ [] := by
  induction clipboards with
  | nil => simp [mainData, rawContents]
  | cons c clipboards ih =>
    rw [mainData_cons, List.any_cons, Bool.or_eq_true, ih, rawContents_cons, ne_eq, ne_eq,
      List.append_eq_nil_iff, not_and_or, main_nextRaw]
    by_cases hlarge : c.isLarge = true
    · have hc : c.content ≠ [] := by
        intro hnil
        simp [Clipboard.isLarge, hnil] at hlarge
      simp [hlarge, hc]
    · simp [hlarge]

theorem clipboard_main {c : Clipboard} (hc : ¬ c.isLarge = true) : c.main.clipboard = c := by
  simp [Clipboard.main, ClipboardNonFile.clipboard, hc]

theorem fill_mainData (clipboards : List Clipboard) :
    ∃ contents, fill (mainData clipboards) (rawContents clipboards) = some contents ∧
      contents.map ClipboardNonFile.clipboard = clipboards := by
  induction clipboards with
  | nil => exact ⟨[], rfl, rfl⟩
  | cons c clipboards ih =>
    obtain ⟨contents, hfill, hmap⟩ := ih
    rw [mainData_cons, rawContents_cons, fill, main_nextRaw]
    by_cases hlarge : c.isLarge = true
    · have hlen : c.main.contentLen = c.content.length := rfl
      refine ⟨{ c.main with content := c.content } :: contents, ?_, ?_⟩
      · rw [if_pos hlarge, if_pos hlarge, hlen, if_pos (by simp), List.drop_left, List.take_left, hfill]
        rfl
      · rw [List.map_cons, hmap]
        rfl
    · refine ⟨c.main :: contents, ?_, ?_⟩
      · rw [if_neg hlarge, if_neg hlarge, List.nil_append, hfill]
        rfl
      · rw [List.map_cons, hmap, clipboard_main hlarge]

theorem fill_of_none {contents : List ClipboardNonFile} (h : ¬ contents.any (·.nextRaw) = true) (data : Bytes) :
    fill contents data = some contents := by
  induction contents with
  | nil => rfl
  | cons c contents ih =>
    rw [List.any_cons, Bool.or_eq_true, not_or] at h
    rw [fill, if_neg h.1, ih h.2]
    rfl

theorem map_clipboard_mainData {clipboards : List Clipboard}
    (h : ¬ (mainData clipboards).any (·.nextRaw) = true) :
    (mainData clipboards).map ClipboardNonFile.clipboard = clipboards := by
  obtain ⟨contents, hfill, hmap⟩ := fill_mainData clipboards
  rw [fill_of_none h, Option.some.injEq] at hfill
  rw [hfill, hmap]

/-! ### Along a run -/

/-- The answer of the call is to come, or has come, behind what a connection begins with. -/
def Conn.Awaits (conn : Conn) (id : Nat) : Prop :=
  ∃ ready : List Sent, (∀ x ∈ ready, x.frame = .json .monitorReady) ∧
    (conn.requests = [id] ∧ conn.inbox = ready ∨
      conn.requests = [] ∧ ∃ snapshot,
        conn.inbox = ready ++ (frames snapshot).map fun f => ⟨some ⟨id, snapshot⟩, f⟩)

def State.InPhase (s : State) : Phase → Prop
  | .idle => True
  | .header id => ∃ conn, s.stream = some conn ∧ conn.Awaits id
  | .raw id answer contents => ∃ requests clipboards,
    s.stream = some ⟨requests, [⟨some ⟨id, .ok clipboards⟩, .raw (rawContents clipboards)⟩]⟩ ∧
      requests = [] ∧ answer = some ⟨id, .ok clipboards⟩ ∧ contents = mainData clipboards
  | .panicked => False

structure State.Inv (s : State) : Prop where
  right : ∀ r ∈ s.results, r.Right
  /-- The only frames that are no part of an answer are those that connections begin with. -/
  ready : ∀ conn ∈ s.stream, ∀ x ∈ conn.inbox, x.answer = none → x.frame = .json .monitorReady
  inPhase : s.InPhase s.phase

theorem right_error (id : Nat) (answer : Option Answer) (e : ReadError) :
    Result.Right ⟨id, answer, .error e⟩ := by
  intro contents h
  cases h

namespace State

variable {m} {s : State} {conn : Conn} {id : Nat}

theorem inv_finish {answer : Option Answer} {reply : Reply} (hright : ∀ r ∈ s.results, r.Right)
    (hready : ∀ conn ∈ s.stream, ∀ x ∈ conn.inbox, x.answer = none → x.frame = .json .monitorReady)
    (hr : Result.Right ⟨id, answer, reply⟩) : (s.finish id answer reply).Inv where
  right r hmem := by
    rcases List.mem_cons.mp hmem with rfl | hmem
    · exact hr
    · exact hright r hmem
  ready := hready
  inPhase := trivial

theorem awaits_ask (hready : ∀ x ∈ conn.inbox, x.answer = none → x.frame = .json .monitorReady)
    (hsettled : conn.Settled) : (conn.ask id).Awaits id := by
  refine ⟨conn.inbox, fun x hx => hready x hx (hsettled.2 x hx), .inl ⟨?_, rfl⟩⟩
  rw [Conn.ask, hsettled.1]
  rfl

theorem ready_fresh (isEnabled : Bool) :
    ∀ x ∈ (Conn.fresh isEnabled).inbox, x.frame = .json .monitorReady := by
  intro x hx
  rw [Conn.fresh] at hx
  cases isEnabled with
  | false => exact absurd hx List.not_mem_nil
  | true => rw [List.mem_singleton.mp hx]

theorem inv_call {runtime sent sentNew : Bool} {connect : Option Bool} (hs : s.Inv)
    (hclean : sent = true → ∀ conn ∈ s.stream, conn.Settled) : (s.call runtime sent connect sentNew).Inv := by
  have hfail : ∀ e, ({ s with calls := s.calls + 1, rt := true }.finish s.calls none (.error e)).Inv :=
    fun e => inv_finish hs.right hs.ready (right_error _ _ _)
  -- Without the kept stream the call goes on with a new one.
  have hnew : State.Inv (match connect with
      | none => { s with calls := s.calls + 1, rt := true }.finish s.calls none (.error .connect)
      | some isEnabled =>
        if sentNew then
          { s with calls := s.calls + 1, rt := true, stream := some ((Conn.fresh isEnabled).ask s.calls),
                   phase := .header s.calls }
        else { s with calls := s.calls + 1, rt := true }.finish s.calls none (.error .send)) := by
    cases connect with
    | none => exact hfail .connect
    | some isEnabled =>
      cases sentNew with
      | false => exact hfail .send
      | true =>
        refine ⟨hs.right, ?_, _, rfl, (Conn.fresh isEnabled).inbox, ready_fresh isEnabled, .inl ⟨rfl, rfl⟩⟩
        intro conn hconn x hx _
        rw [← Option.mem_some.mp hconn] at hx
        exact ready_fresh isEnabled x hx
  rw [call]
  by_cases hrt : (!s.rt && !runtime) = true
  · rw [if_pos hrt]
    exact inv_finish hs.right hs.ready (right_error _ _ _)
  · rw [if_neg hrt]
    cases hstream : s.stream with
    | none =>
      rw [hstream] at hnew
      simpa only [hstream] using hnew
    | some conn =>
      cases sent with
      | false => simpa only [hstream] using hnew
      | true =>
        have hready := hs.ready conn hstream
        refine ⟨hs.right, ?_, _, rfl, awaits_ask hready (hclean rfl conn hstream)⟩
        intro conn' hconn
        rw [← Option.mem_some.mp hconn]
        exact hready

theorem ready_reply (hready : ∀ x ∈ conn.inbox, x.answer = none → x.frame = .json .monitorReady)
    (snapshot : Snapshot) : ∀ x ∈ (conn.reply snapshot).inbox, x.answer = none → x.frame = .json .monitorReady := by
  intro x hx hnone
  rw [Conn.reply] at hx
  cases hrequests : conn.requests with
  | nil =>
    rw [hrequests] at hx
    exact hready x hx hnone
  | cons id requests =>
    rw [hrequests] at hx
    rcases List.mem_append.mp hx with hx | hx
    · exact hready x hx hnone
    · obtain ⟨f, -, rfl⟩ := List.mem_map.mp hx
      cases hnone

theorem awaits_reply (h : conn.Awaits id) (snapshot : Snapshot) : (conn.reply snapshot).Awaits id := by
  obtain ⟨ready, hready, ⟨hrequests, hinbox⟩ | ⟨hrequests, hinbox⟩⟩ := h
  · rw [Conn.reply, hrequests]
    exact ⟨ready, hready, .inr ⟨rfl, snapshot, by rw [hinbox]⟩⟩
  · rw [Conn.reply, hrequests]
    exact ⟨ready, hready, .inr ⟨hrequests, hinbox⟩⟩

theorem inv_answer (hs : s.Inv) (snapshot : Snapshot) :
    State.Inv { s with stream := s.stream.map (·.reply snapshot) } where
  right := hs.right
  ready conn hconn := by
    obtain ⟨conn', hstream, rfl⟩ := Option.map_eq_some_iff.mp hconn
    exact ready_reply (hs.ready conn' hstream) snapshot
  inPhase := by
    have hphase := hs.inPhase
    cases hp : s.phase with
    | idle => trivial
    | header id =>
      rw [hp] at hphase
      obtain ⟨conn, hstream, hawaits⟩ := hphase
      exact ⟨conn.reply snapshot, by rw [hstream]; rfl, awaits_reply hawaits snapshot⟩
    | raw id answer contents =>
      rw [hp] at hphase
      obtain ⟨requests, clipboards, hstream, rfl, hanswer⟩ := hphase
      exact ⟨[], clipboards, by rw [hstream]; rfl, rfl, hanswer⟩
    | panicked =>
      rw [hp] at hphase
      exact hphase

theorem inv_onHeader {x : Sent} {inbox : List Sent} (hright : ∀ r ∈ s.results, r.Right)
    (hready : ∀ conn ∈ s.stream, ∀ x ∈ conn.inbox, x.answer = none → x.frame = .json .monitorReady)
    (hphase : s.phase = .header id) (hconn : conn.Awaits id) (hx : conn.inbox = x :: inbox)
    (hstream : s.stream = some { conn with inbox }) : (s.onHeader m id x).Inv := by
  obtain ⟨ready, hmonitor, hcases⟩ := hconn
  cases ready with
  | cons y ready =>
    -- The frame is one that a connection begins with: the call goes on waiting.
    have hrest : x = y ∧ Conn.Awaits { conn with inbox } id := by
      have hready' : ∀ x ∈ ready, x.frame = .json .monitorReady := fun x hx =>
        hmonitor x (List.mem_cons_of_mem y hx)
      rcases hcases with ⟨hrequests, hinbox⟩ | ⟨hrequests, snapshot, hinbox⟩
      · rw [hinbox, List.cons.injEq] at hx
        exact ⟨hx.1.symm, ready, hready', .inl ⟨hrequests, hx.2.symm⟩⟩
      · rw [hinbox, List.cons_append, List.cons.injEq] at hx
        exact ⟨hx.1.symm, ready, hready', .inr ⟨hrequests, snapshot, hx.2.symm⟩⟩
    have hframe : x.frame = .json .monitorReady := hrest.1 ▸ hmonitor y List.mem_cons_self
    rw [onHeader, hframe, next]
    refine ⟨hright, hready, ?_⟩
    rw [hphase]
    exact ⟨_, hstream, hrest.2⟩
  | nil =>
    rcases hcases with ⟨-, hinbox⟩ | ⟨hrequests, snapshot, hinbox⟩
    · rw [hinbox] at hx
      cases hx
    · rw [hinbox, List.nil_append] at hx
      cases snapshot with
      | error e =>
        obtain ⟨rfl, -⟩ := List.cons.inj hx
        rw [onHeader, next]
        simp only [if_pos e.text_ne]
        exact inv_finish hright hready (right_error _ _ _)
      | ok clipboards =>
        rw [frames_ok, List.map_cons] at hx
        obtain ⟨rfl, hrest⟩ := List.cons.inj hx
        rw [onHeader, next]
        simp only [ne_eq, not_true_eq_false, if_false]
        by_cases hany : (mainData clipboards).any (·.nextRaw) = true
        · rw [if_pos ((any_nextRaw clipboards).mp hany)] at hrest
          rw [if_pos hany]
          refine ⟨hright, hready, [], clipboards, ?_, rfl, rfl, rfl⟩
          rw [hstream, hrequests, ← hrest]
          rfl
        · rw [if_neg hany]
          apply inv_finish hright hready
          intro contents hok
          obtain rfl := Except.ok.inj hok
          exact ⟨clipboards, rfl, map_clipboard_mainData hany⟩

theorem exists_of_takeFrame {x : Sent} {t : State} (h : s.takeFrame = some (x, t)) :
    ∃ requests inbox, s.stream = some ⟨requests, x :: inbox⟩ ∧
      t = { s with stream := some ⟨requests, inbox⟩ } := by
  rw [takeFrame] at h
  split at h
  · rename_i requests y inbox hstream
    rw [Option.some.injEq, Prod.mk.injEq] at h
    exact ⟨requests, inbox, by rw [hstream, h.1], h.2.symm⟩
  · cases h

theorem inv_receive (hs : s.Inv) : (s.receive m).Inv := by
  rw [receive]
  cases htake : s.takeFrame with
  | none =>
    cases s.phase <;> exact hs
  | some xt =>
    obtain ⟨x, t⟩ := xt
    obtain ⟨requests, inbox, hstream, rfl⟩ := exists_of_takeFrame htake
    have hready : ∀ conn ∈ some (Conn.mk requests inbox), ∀ x ∈ conn.inbox, x.answer = none →
        x.frame = .json .monitorReady := by
      intro conn hconn y hy
      rw [← Option.mem_some.mp hconn] at hy
      exact hs.ready _ hstream y (List.mem_cons_of_mem x hy)
    have hphase := hs.inPhase
    cases hp : s.phase with
    | idle => exact hs
    | header id =>
      rw [hp] at hphase
      obtain ⟨conn, hconn, hawaits⟩ := hphase
      rw [hstream, Option.some.injEq] at hconn
      rw [← hconn] at hawaits
      exact inv_onHeader hs.right hready rfl hawaits rfl rfl
    | raw id answer contents =>
      rw [hp] at hphase
      obtain ⟨requests', clipboards, hconn, -, rfl, rfl⟩ := hphase
      rw [hstream, Option.some.injEq, Conn.mk.injEq, List.cons.injEq] at hconn
      obtain ⟨contents, hfill, hmap⟩ := fill_mainData clipboards
      simp only [onRaw, hconn.2.1, nextRaw, hfill]
      refine inv_finish ?_ hready ?_
      · exact hs.right
      · intro contents' hok
        obtain rfl := Except.ok.inj hok
        exact ⟨clipboards, rfl, hmap⟩
    | panicked => exact hs

theorem inv_step {e : Event} (hs : s.Inv) (he : s.Undelayed e) : (s.step m e).Inv := by
  have hphase := hs.inPhase
  cases e with
  | call runtime sent connect sentNew =>
    rw [step]
    cases hp : s.phase with
    | idle => exact inv_call hs (he hp)
    | header id => exact hs
    | raw id answer contents => exact hs
    | panicked => exact hs
  | answer snapshot => exact inv_answer hs snapshot
  | receive => exact inv_receive hs
  | timeout =>
    rw [step]
    cases hp : s.phase with
    | idle => exact hs
    | header id => exact inv_finish hs.right hs.ready (right_error _ _ _)
    | raw id answer contents => exact absurd hp (he id answer contents)
    | panicked => exact hs
  | reset =>
    rw [step]
    cases hp : s.phase with
    | idle => exact hs
    | header id => exact inv_finish hs.right hs.ready (right_error _ _ _)
    | raw id answer contents =>
      exact inv_finish hs.right (fun conn hconn => absurd hconn (Option.not_mem_none conn)) (right_error _ _ _)
    | panicked => exact hs

theorem inv_init : State.Inv {} where
  right r hr := absurd hr List.not_mem_nil
  ready conn hconn := by cases hconn
  inPhase := trivial

/-- When the stream is reused only with nothing owed on it and the raw data are not late, whatever a
call returns is what the manager found for it. -/
theorem right_of_undelayed (m : Misread) (es : List Event)
    (h : Guarded (State.step m) Undelayed {} es) :
    Throughout (State.step m) (fun s => ∀ r ∈ s.results, r.Right) {} es := by
  have hinv := History.throughout_of_guarded (fun s e hs he => inv_step (m := m) hs he) inv_init h
  exact History.throughout_imp (fun s hs => hs.right) hinv

/-- Frames that are none of those expected: none of them is read in these runs. -/
def unread : Misread where
  parse _ := none
  toVec _ := []

def text (content : Bytes) : Clipboard where
  compress := false
  content := content
  width := 0
  height := 0
  format := 0
  specialName := ""

def largeText : Clipboard := text (List.replicate 3073 0)

theorem isLarge_largeText : largeText.isLarge = true := by
  have hlen : largeText.content.length = 3073 := List.length_replicate
  rw [Clipboard.isLarge, hlen]
  decide

/-- Two calls on one stream, the first with raw data. -/
def twoCalls (c : Clipboard) : List Event :=
  [.call true false (some false) true, .answer (.ok [c]), .receive, .receive, .call true true none false,
    .answer (.ok [text [2]]), .receive]

theorem guarded_twoCalls {c : Clipboard} (hc : c.isLarge = true) :
    Guarded (State.step unread) Undelayed {} (twoCalls c) := by
  have hraw : rawContents [c] ≠ [] := (any_nextRaw [c]).mp (by simp [hc])
  obtain ⟨contents, hfill, -⟩ := fill_mainData [c]
  rw [mainData_cons] at hfill
  have hthird : run (State.step unread) {} ((twoCalls c).take 4) =
      { rt := true, stream := some {}, calls := 1, results := [⟨0, some ⟨0, .ok [c]⟩, .ok contents⟩] } := by
    simp [twoCalls, step, call, Conn.ask, Conn.fresh, Conn.reply, frames_ok, hraw, receive, takeFrame, onHeader, next,
      hc, onRaw, nextRaw, hfill, finish]
  refine ⟨fun _ h => absurd h (by decide), trivial, trivial, trivial, ?_, trivial, trivial, trivial⟩
  intro _ _ conn hconn
  have hstream : (run (State.step unread) {} ((twoCalls c).take 4)).stream = some conn := hconn
  rw [hthird] at hstream
  obtain rfl := Option.some.inj hstream
  exact ⟨rfl, fun x hx => absurd hx List.not_mem_nil⟩

theorem right_twoCalls :
    Guarded (State.step unread) Undelayed {} (twoCalls largeText) ∧
      Throughout (State.step unread) (fun s => ∀ r ∈ s.results, r.Right) {} (twoCalls largeText) :=
  ⟨guarded_twoCalls isLarge_largeText,
    right_of_undelayed unread (twoCalls largeText) (guarded_twoCalls isLarge_largeText)⟩

/-- The answer of the first call comes after the call gave up, and is taken for that of the second. -/
def lateHeader : List Event :=
  [.call true false (some true) true, .receive, .timeout, .answer (.ok [text [1]]), .call true true none false,
    .receive]

/-- The raw data come after the call gave up on them. -/
def lateRaw (c : Clipboard) : List Event :=
  [.call true false (some false) true, .answer (.ok [c]), .receive, .timeout]

theorem results_lateRaw {c : Clipboard} (hc : c.isLarge = true) :
    (run (State.step unread) {} (lateRaw c)).results = [⟨0, some ⟨0, .ok [c]⟩, .ok [c.main]⟩] := by
  have hraw : rawContents [c] ≠ [] := (any_nextRaw [c]).mp (by simp [hc])
  simp [lateRaw, step, call, Conn.ask, Conn.fresh, Conn.reply, frames_ok, hraw, receive, takeFrame, onHeader, next,
    mainData, hc, finish, dropStream]

theorem wrong_of_late :
    (¬ ∀ r ∈ (run (State.step unread) {} lateHeader).results, r.Right) ∧
      ¬ ∀ r ∈ (run (State.step unread) {} (lateRaw largeText)).results, r.Right := by
  constructor
  · intro h
    obtain ⟨clipboards, hanswer, -⟩ := h ⟨1, some ⟨0, .ok [text [1]]⟩, .ok [(text [1]).main]⟩ List.mem_cons_self _ rfl
    simp at hanswer
  · rw [results_lateRaw isLarge_largeText]
    intro h
    obtain ⟨clipboards, hanswer, hmap⟩ := h _ List.mem_cons_self _ rfl
    have hok : [largeText] = clipboards := by
      simpa only [Option.some.injEq, Answer.mk.injEq, Except.ok.injEq, true_and] using hanswer
    rw [← hok, List.map_singleton, List.cons.injEq] at hmap
    have hlen := congrArg (fun c : Clipboard => c.content.length) hmap.1
    simp only [ClipboardNonFile.clipboard, Clipboard.main, isLarge_largeText, if_true, List.length_nil] at hlen
    have hlen' : largeText.content.length = 3073 := List.length_replicate
    omega

end State

end RustDesk.ClipboardCm
