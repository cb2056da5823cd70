import RustDesk.BytesCodec
import RustDesk.History
import RustDesk.PartialReads
import RustDesk.TerminalSession

/-!
# The terminal helper

On Windows a shell for another user runs under a helper process. The service puts what the client types,
and the sizes of its window, into a channel; the writer thread takes them out and writes them to a pipe, and
the input thread of the helper reads them and passes them to the terminal.

`pending` has the data of the calls of `handle_data` that are about to put it into the channel, which they do
without the lock of the session. A call that waits for room in the channel with the lock held is one step, as
no one can see the session before it is done.
-/

namespace RustDesk.TerminalHelper

open History (run Guarded Throughout)

def msgTypeData : UInt8 := 0x01

def msgTypeResize : UInt8 := 0x02

def msgHeaderSize : Nat := 5

def maxPayloadSize : Nat := 16 * 1024 * 1024

def encodeHelperMessage (msgType : UInt8) (payload : Bytes) : Bytes :=
  msgType :: toLeBytes 4 payload.length ++ payload

def encodeResizeMessage (rows cols : Nat) : Bytes :=
  encodeHelperMessage msgTypeResize (toLeBytes 2 rows ++ toLeBytes 2 cols)

/-- What the terminal is asked for. -/
inductive PtyCall
  | writeAll (data : Bytes)
  | resize (rows cols : Nat)
  deriving DecidableEq, Repr

namespace PtyCall

def encode : PtyCall → Bytes
  | .writeAll data => encodeHelperMessage msgTypeData data
  | .resize rows cols => encodeResizeMessage rows cols

def size : PtyCall → Option (Nat × Nat)
  | .writeAll _ => none
  | .resize rows cols => some (rows, cols)

end PtyCall

/-- The size of a terminal that was opened with a size and got calls since. -/
def lastSize (opened : Nat × Nat) (calls : List PtyCall) : Nat × Nat :=
  (calls.filterMap PtyCall.size).getLast?.getD opened

/-! ### The input thread -/

inductive InputEnd
  | payloadTooLarge
  | unknownType
  | ptyWrite
  | ptyFlush
  | exiting
  | stopped
  deriving DecidableEq, Repr

inductive InputStage
  | header
  | payload (msgType : UInt8) (length : Nat)
  | ended (reason : InputEnd)
  deriving DecidableEq, Repr

structure InputThread where
  stage : InputStage := .header
  calls : List PtyCall := []
  deriving DecidableEq, Repr

/-- The answers of the terminal, and whether the shell has exited when the loop begins again. -/
structure Answers where
  writeAll : Bool := true
  flush : Bool := true
  exiting : Bool := false
  deriving DecidableEq, Repr

namespace InputThread

variable (t : InputThread)

/-- `break` -/
def close (reason : InputEnd) : InputThread := { t with stage := .ended reason }

/-- The bytes of the `read_exact_or_eof` in progress. -/
def want : Nat :=
  match t.stage with
  | .header => msgHeaderSize
  | .payload _ length => length
  | .ended _ => 0

def again (a : Answers) : InputThread :=
  if a.exiting then t.close .exiting else { t with stage := .header }

def call (c : PtyCall) : InputThread := { t with calls := t.calls ++ [c] }

def handle (a : Answers) (msgType : UInt8) (payload : Bytes) : InputThread :=
  if msgType = msgTypeData then
    if !a.writeAll then (t.call (.writeAll payload)).close .ptyWrite
    else if !a.flush then (t.call (.writeAll payload)).close .ptyFlush
    else (t.call (.writeAll payload)).again a
  else if msgType = msgTypeResize then
    if payload.length ≥ 4 then
      (t.call (.resize (ofLeBytes (payload.take 2)) (ofLeBytes ((payload.drop 2).take 2)))).again a
    else t.again a
  else t.close .unknownType

def onHeader (a : Answers) (msgType : UInt8) (length : Nat) : InputThread :=
  if length > maxPayloadSize then t.close .payloadTooLarge
  else if length > 0 then { t with stage := .payload msgType length }
  else t.handle a msgType []

def take (a : Answers) (bytes : Bytes) : InputThread :=
  match t.stage with
  | .header => t.onHeader a (bytes.headD 0) (ofLeBytes ((bytes.drop 1).take 4))
  | .payload msgType _ => t.handle a msgType bytes
  | .ended _ => t

def reader (a : Answers) : PartialReads.Reader UInt8 InputThread where
  want := want
  take t bytes := t.take a bytes

def Open : Prop := ∀ reason, t.stage ≠ .ended reason

/-- A header has been taken for damaged. -/
def Rejected : Prop := t.stage = .ended .payloadTooLarge ∨ t.stage = .ended .unknownType

instance : Decidable t.Open :=
  match ht : t.stage with
  | .header => .isTrue fun _ hended => nomatch ht.symm.trans hended
  | .payload .. => .isTrue fun _ hended => nomatch ht.symm.trans hended
  | .ended reason => .isFalse fun hopen => hopen reason ht

end InputThread

/-! ### The session -/

/-- `sent` are the messages that were put into the channel. `gaveUp` is whether `read_outputs` has given up
a resize since the last one. -/
structure Session where
  rows : Nat
  cols : Nat
  sigwinch : Option SigwinchPhase := some .idle
  inputTx : Bool := true
  pending : List Bytes := []
  queue : List PtyCall := []
  pipe : PartialReads.Link UInt8 InputThread := { reader := { state := {} } }
  sent : List PtyCall := []
  gaveUp : Bool := false

inductive Event
  | handleData (data : Bytes)
  | send (i : Nat)
  | handleResize (rows cols : Nat)
  | resetStatus
  | reconnect
  | readOutputs
  | stop
  | recv
  | write (n : Nat)
  | writeFails
  | read (n : Nat) (a : Answers)
  | inputStops
  deriving DecidableEq, Repr

namespace Session

variable (s : Session)

/-- `handle_open_with_helper` -/
def opened (rows cols : Nat) : Session where
  rows := rows % 2 ^ 16
  cols := cols % 2 ^ 16

def full : Bool := s.queue.length ≥ channelBufferSize

/-- A message enters the channel, if the writer thread has not ended. -/
def put (c : PtyCall) : Session :=
  if s.pipe.broken then s else { s with queue := s.queue ++ [c], sent := s.sent ++ [c] }

def trySend (c : PtyCall) : Session × Bool :=
  if s.pipe.broken || s.full then (s, false) else (s.put c, true)

/-- `do_sigwinch_resize`, with `use_helper`. -/
def doSigwinchResize (action : SigwinchAction) : Session × Bool :=
  if s.rows = 0 ∨ s.cols = 0 then (s, false)
  else
    let targetRows := match action with
      | .tempResize => if s.rows > 2 then s.rows - 1 else s.rows + 1
      | .restore => s.rows
    if s.inputTx then s.trySend (.resize targetRows s.cols) else (s, false)

/-- What `read_outputs` does about the size. -/
def readOutputs : Session :=
  match s.sigwinch with
  | none => s
  | some phase =>
    match phase.attempt with
    | (sigwinch, none) => { s with sigwinch := some sigwinch, gaveUp := s.gaveUp || phase ≠ .idle }
    | (sigwinch, some action) =>
      match s.doSigwinchResize action with
      | (s, true) => { s with sigwinch := some action.next, gaveUp := false }
      | (s, false) => { s with sigwinch := some sigwinch }

def handleResize (rows cols : Nat) : Session :=
  let s := { s with rows := rows % 2 ^ 16, cols := cols % 2 ^ 16, gaveUp := false }
  if s.inputTx then s.put (.resize s.rows s.cols) else s

def stop : Session :=
  let s := { s with sigwinch := none }
  if s.inputTx then { s.put (.writeAll [13, 10]) with inputTx := false } else s

def step : Event → Session
  | .handleData data => if s.inputTx then { s with pending := s.pending ++ [data] } else s
  | .send i =>
    match s.pending[i]? with
    | some data => { s.put (.writeAll data) with pending := s.pending.eraseIdx i }
    | none => s
  | .handleResize rows cols => s.handleResize rows cols
  -- another connection takes the service over
  | .resetStatus => { s with sigwinch := none }
  | .reconnect => { s with sigwinch := some (.tempResize maxSigwinchPhaseAttempts) }
  | .readOutputs => s.readOutputs
  | .stop => s.stop
  | .recv =>
    match s.queue with
    | c :: queue => { s with queue, pipe := s.pipe.send [c.encode] }
    | [] => s
  | .write n => { s with pipe := s.pipe.write n }
  | .writeFails => { s with pipe := s.pipe.fail }
  | .read n a => { s with pipe := s.pipe.read (InputThread.reader a) n }
  | .inputStops => { s with pipe := { s.pipe with reader := { state := s.pipe.reader.state.close .stopped } } }

/-- A call that waits for room goes on when there is some, and the writer takes the next message when it has
written the one before. The client types at most 16 MiB at once. -/
def Possible : Event → Prop
  | .handleData data => data.length ≤ maxPayloadSize
  | .send _ => s.full = true → s.pipe.broken = true
  | .handleResize _ _ | .stop => s.inputTx = true → s.full = true → s.pipe.broken = true
  | .recv => s.pipe.broken = false ∧ s.pipe.out = [] ∧ s.queue ≠ []
  | .write n => s.pipe.CanWrite n
  | .read n a => s.pipe.CanRead (InputThread.reader a) n
  | .inputStops => s.pipe.reader.state.Open
  | .resetStatus | .reconnect | .readOutputs | .writeFails => True

instance : ∀ e, Decidable (s.Possible e)
  | .handleData data => inferInstanceAs (Decidable (data.length ≤ maxPayloadSize))
  | .send _ => inferInstanceAs (Decidable (s.full = true → _))
  | .handleResize _ _ | .stop => inferInstanceAs (Decidable (s.inputTx = true → _))
  | .recv => inferInstanceAs (Decidable (_ ∧ _))
  | .write n => inferInstanceAs (Decidable (s.pipe.CanWrite n))
  | .read n a => inferInstanceAs (Decidable (s.pipe.CanRead (InputThread.reader a) n))
  | .inputStops => inferInstanceAs (Decidable s.pipe.reader.state.Open)
  | .resetStatus | .reconnect | .readOutputs | .writeFails => .isTrue trivial

/-- Nothing is on the way. -/
def Delivered : Prop := s.queue = [] ∧ s.pipe.Delivered

end Session

/-- The terminal gets what was sent, call by call, and nothing is taken for damaged. When nothing is on the
way, the terminal has got all of it, and has the size of the session if that is open to a client, unless its
two resizes after a reconnection are not done or were given up; otherwise one of the threads can go on. -/
structure InStep (opened : Nat × Nat) (s : Session) : Prop where
  accepted : ¬ s.pipe.reader.state.Rejected
  calls : s.pipe.reader.state.calls <+: s.sent
  delivered : s.pipe.reader.state.Open → s.Delivered → s.pipe.reader.state.calls = s.sent
  sized : s.pipe.reader.state.Open → s.Delivered → s.inputTx = true → s.sigwinch = some .idle →
    s.gaveUp = false → lastSize opened s.pipe.reader.state.calls = (s.rows, s.cols)
  progress : s.pipe.reader.state.Open → s.pipe.broken = false →
    s.Delivered ∨ s.Possible .recv ∨ s.Possible (.write 1) ∨ ∀ a, s.Possible (.read 1 a)

/-! ### The helper reads messages -/

namespace InputThread

variable {t : InputThread} {a : Answers}

theorem not_open_close (t : InputThread) (reason : InputEnd) : ¬ (t.close reason).Open := by
  intro hopen
  exact hopen reason rfl

theorem not_rejected_close (t : InputThread) {reason : InputEnd} (hlarge : reason ≠ .payloadTooLarge)
    (hunknown : reason ≠ .unknownType) : ¬ (t.close reason).Rejected := by
  rintro (hended | hended)
  · exact hlarge (InputStage.ended.inj hended)
  · exact hunknown (InputStage.ended.inj hended)

/-- The thread ends where it would have gone on, and has made the same calls. -/
def EndsOr (t ideal : InputThread) : Prop :=
  t = ideal ∨ ¬ t.Open ∧ ¬ t.Rejected ∧ t.calls = ideal.calls

theorem again_or (t : InputThread) (a : Answers) : EndsOr (t.again a) (t.again {}) := by
  by_cases hexiting : a.exiting = true
  · have hagain : t.again a = t.close .exiting := if_pos hexiting
    rw [hagain]
    exact Or.inr ⟨not_open_close t _, not_rejected_close t nofun nofun, rfl⟩
  · exact Or.inl (if_neg hexiting)

theorem handle_or (t : InputThread) (a : Answers) (msgType : UInt8) (payload : Bytes) :
    EndsOr (t.handle a msgType payload) (t.handle {} msgType payload) := by
  unfold handle
  by_cases hdata : msgType = msgTypeData
  · rw [if_pos hdata, if_pos hdata]
    change EndsOr _ ((t.call (.writeAll payload)).again {})
    split_ifs
    · exact Or.inr ⟨not_open_close _ _, not_rejected_close _ nofun nofun, rfl⟩
    · exact Or.inr ⟨not_open_close _ _, not_rejected_close _ nofun nofun, rfl⟩
    · exact again_or _ a
  · rw [if_neg hdata, if_neg hdata]
    split_ifs
    · exact again_or _ a
    · exact again_or t a
    · exact Or.inl rfl

theorem take_or (a : Answers) (t : InputThread) (bytes : Bytes) :
    EndsOr (t.take a bytes) (t.take {} bytes) := by
  unfold take
  split
  · unfold onHeader
    split_ifs
    · exact Or.inl rfl
    · exact Or.inl rfl
    · exact handle_or t a _ _
  · exact handle_or t a _ bytes
  · exact Or.inl rfl

theorem calls_handle (t : InputThread) (msgType : UInt8) (payload : Bytes) :
    t.calls <+: (t.handle {} msgType payload).calls := by
  unfold handle
  by_cases hdata : msgType = msgTypeData
  · rw [if_pos hdata]
    exact List.prefix_append _ _
  · rw [if_neg hdata]
    split_ifs
    · exact List.prefix_append _ _
    · exact List.prefix_refl _
    · exact List.prefix_refl _

theorem calls_take (t : InputThread) (bytes : Bytes) : t.calls <+: (t.take {} bytes).calls := by
  unfold take
  split
  · unfold onHeader
    split_ifs
    · exact List.prefix_refl _
    · exact List.prefix_refl _
    · exact calls_handle t _ _
  · exact calls_handle t _ _
  · exact List.prefix_refl _

theorem want_handle (t : InputThread) (msgType : UInt8) (payload : Bytes)
    (hopen : (t.handle {} msgType payload).Open) : 0 < (t.handle {} msgType payload).want := by
  unfold handle at hopen ⊢
  by_cases hdata : msgType = msgTypeData
  · rw [if_pos hdata]
    exact Nat.succ_pos 4
  · rw [if_neg hdata] at hopen ⊢
    split_ifs at hopen ⊢
    · exact Nat.succ_pos 4
    · exact Nat.succ_pos 4
    · exact absurd hopen (not_open_close _ _)

theorem want_take (t : InputThread) (bytes : Bytes) (hopen : (t.take {} bytes).Open) :
    0 < (t.take {} bytes).want := by
  unfold take at hopen ⊢
  split at hopen
  · unfold onHeader at hopen ⊢
    split_ifs at hopen ⊢ with hlarge hlength
    · exact absurd hopen (not_open_close _ _)
    · exact hlength
    · exact want_handle t _ _ hopen
  · exact want_handle t _ _ hopen
  · rename_i reason hended
    exact absurd hended (hopen reason)

theorem want_closed (ht : ¬ t.Open) : t.want = 0 := by
  unfold Open at ht
  push Not at ht
  obtain ⟨reason, hreason⟩ := ht
  simp only [want, hreason]

theorem take_ended {reason : InputEnd} (ht : t.stage = .ended reason) (a : Answers) (bytes : Bytes) :
    t.take a bytes = t := by
  simp only [take, ht]

/-- The input thread as a receiver of what it asks of the terminal. -/
def receiver : PartialReads.Receiver UInt8 InputThread Answers PtyCall where
  ideal := reader {}
  take a t bytes := t.take a bytes
  log := calls
  Idle t := t.stage = .header
  Open := Open
  Rejected := Rejected
  want_closed _ := want_closed
  want_take := want_take
  log_take := calls_take
  rejected_take t bytes ht := by
    have hkept : t.take {} bytes = t := by
      rcases ht with ht | ht
      · exact take_ended ht _ _
      · exact take_ended ht _ _
    change (t.take {} bytes).Rejected
    rw [hkept]
    exact ht
  accepted_idle t ht := by simp [Rejected, ht]
  take_or := take_or

theorem length_header (msgType : UInt8) (length : Nat) :
    (msgType :: toLeBytes 4 length).length = msgHeaderSize := by
  rw [List.length_cons, length_toLeBytes]
  rfl

/-- Whatever is sent with a length that is allowed comes to `handle` as it was sent. -/
theorem after_encode (ht : t.stage = .header) (msgType : UInt8) {payload : Bytes}
    (hmax : payload.length ≤ maxPayloadSize) :
    (reader {}).after { state := t } (encodeHelperMessage msgType payload) =
      { state := t.handle {} msgType payload } := by
  have hlt : payload.length < 256 ^ 4 := hmax.trans_lt (by decide)
  have hwant : (msgType :: toLeBytes 4 payload.length).length = (reader {}).want t := by
    rw [length_header]
    simp only [reader, want, ht]
  have hlength : ofLeBytes (((msgType :: toLeBytes 4 payload.length).drop 1).take 4) = payload.length := by
    have htake : (toLeBytes 4 payload.length).take 4 = toLeBytes 4 payload.length :=
      List.take_of_length_le (Nat.le_of_eq (length_toLeBytes 4 _))
    rw [List.drop_one, List.tail_cons, htake]
    exact ofLeBytes_toLeBytes hlt
  have hheader : (reader {}).take t (msgType :: toLeBytes 4 payload.length) =
      t.onHeader {} msgType payload.length := by
    change t.take {} _ = _
    unfold take
    rw [ht, hlength]
    rfl
  have hsmall : ¬ payload.length > maxPayloadSize := Nat.not_lt.mpr hmax
  by_cases hnone : payload = []
  · have hread : (reader {}).take t (msgType :: toLeBytes 4 payload.length) =
        t.handle {} msgType payload := by
      rw [hheader, onHeader, if_neg hsmall, hnone]
      rfl
    have hwhole : encodeHelperMessage msgType payload = (msgType :: toLeBytes 4 payload.length) ++ [] := by
      rw [encodeHelperMessage, hnone]
    rw [hwhole, PartialReads.Reader.after_whole (List.cons_ne_nil _ _) hwant hread, PartialReads.Reader.after_nil]
  · have hpos : payload.length > 0 := List.length_pos_iff.mpr hnone
    have hread : (reader {}).take t (msgType :: toLeBytes 4 payload.length) =
        { t with stage := .payload msgType payload.length } := by
      rw [hheader, onHeader, if_neg hsmall, if_pos hpos]
    have hwhole : encodeHelperMessage msgType payload =
        (msgType :: toLeBytes 4 payload.length) ++ (payload ++ []) := by
      rw [List.append_nil]
      rfl
    rw [hwhole, PartialReads.Reader.after_whole (List.cons_ne_nil _ _) hwant hread,
      PartialReads.Reader.after_whole hnone rfl rfl, PartialReads.Reader.after_nil]
    rfl

end InputThread

/-- A message that is short enough, with a size that fits two bytes each. -/
def PtyCall.Fits : PtyCall → Prop
  | .writeAll data => data.length ≤ maxPayloadSize
  | .resize rows cols => rows < 2 ^ 16 ∧ cols < 2 ^ 16

namespace InputThread

variable {t : InputThread}

theorem handle_data (ht : t.stage = .header) (data : Bytes) :
    t.handle {} msgTypeData data = t.call (.writeAll data) := by
  obtain ⟨stage, calls⟩ := t
  subst ht
  rfl

theorem handle_resize (ht : t.stage = .header) {rows cols : Nat} (hrows : rows < 2 ^ 16)
    (hcols : cols < 2 ^ 16) :
    t.handle {} msgTypeResize (toLeBytes 2 rows ++ toLeBytes 2 cols) = t.call (.resize rows cols) := by
  have hfour : (toLeBytes 2 rows ++ toLeBytes 2 cols).length ≥ 4 := by
    rw [List.length_append, length_toLeBytes, length_toLeBytes]
  have hfirst : (toLeBytes 2 rows ++ toLeBytes 2 cols).take 2 = toLeBytes 2 rows :=
    List.take_left' (length_toLeBytes 2 rows)
  have hsecond : ((toLeBytes 2 rows ++ toLeBytes 2 cols).drop 2).take 2 = toLeBytes 2 cols := by
    rw [List.drop_left' (length_toLeBytes 2 rows)]
    exact List.take_of_length_le (Nat.le_of_eq (length_toLeBytes 2 cols))
  have hother : msgTypeResize ≠ msgTypeData := by decide
  unfold handle
  rw [if_neg hother, if_pos rfl, if_pos hfour, hfirst, hsecond, ofLeBytes_toLeBytes hrows,
    ofLeBytes_toLeBytes hcols]
  obtain ⟨stage, calls⟩ := t
  subst ht
  rfl

theorem after_message (ht : t.stage = .header) {c : PtyCall} (hc : c.Fits) :
    (reader {}).after { state := t } c.encode = { state := t.call c } := by
  cases c with
  | writeAll data =>
    rw [PtyCall.encode, after_encode ht _ hc, handle_data ht]
  | resize rows cols =>
    have hshort : (toLeBytes 2 rows ++ toLeBytes 2 cols).length ≤ maxPayloadSize := by
      rw [List.length_append, length_toLeBytes, length_toLeBytes]
      decide
    rw [PtyCall.encode, encodeResizeMessage, after_encode ht _ hshort, handle_resize ht hc.1 hc.2]

end InputThread

/-! ### Runs -/

theorem lastSize_resize (opened : Nat × Nat) (calls : List PtyCall) (rows cols : Nat) :
    lastSize opened (calls ++ [.resize rows cols]) = (rows, cols) := by
  have hlast : [PtyCall.resize rows cols].filterMap PtyCall.size = [(rows, cols)] := rfl
  unfold lastSize
  rw [List.filterMap_append, hlast, List.getLast?_append, List.getLast?_singleton, Option.some_or,
    Option.getD_some]

theorem lastSize_writeAll (opened : Nat × Nat) (calls : List PtyCall) (data : Bytes) :
    lastSize opened (calls ++ [.writeAll data]) = lastSize opened calls := by
  have hnone : [PtyCall.writeAll data].filterMap PtyCall.size = [] := rfl
  unfold lastSize
  rw [List.filterMap_append, hnone, List.append_nil]

namespace Session

variable {opened : Nat × Nat} {s : Session}

/-- What is on the way, and what will be, reaches the helper. -/
structure Kept (s : Session) : Prop where
  synced : ∃ taken, s.sent = taken ++ s.queue ∧ InputThread.receiver.InSync s.pipe taken
  queued : ∀ c ∈ s.queue, c.Fits
  pending : ∀ data ∈ s.pending, data.length ≤ maxPayloadSize
  size : s.rows < 2 ^ 16 ∧ s.cols < 2 ^ 16

/-- The last size that was sent is that of the session, or there is another one to come. -/
def Sized (s : Session) (opened : Nat × Nat) : Prop :=
  s.pipe.broken = false → s.inputTx = true → s.sigwinch = some .idle → s.gaveUp = false →
    lastSize opened s.sent = (s.rows, s.cols)

theorem Kept.inStep (h : s.Kept) (hsized : s.Sized opened) : InStep opened s := by
  obtain ⟨taken, hsent, hsynced⟩ := h.synced
  have hall : s.Delivered → taken = s.sent := by
    intro hdelivered
    rw [hsent, hdelivered.1, List.append_nil]
  have hcalls : s.pipe.reader.state.Open → s.Delivered → s.pipe.reader.state.calls = s.sent :=
    fun hopen hdelivered => (hsynced.log_eq hopen hdelivered.2).trans (hall hdelivered)
  refine ⟨hsynced.accepted, ?_, hcalls, fun hopen hdelivered hinput hidle hgave => ?_, fun hopen hbroken => ?_⟩
  · rw [hsent]
    exact hsynced.log_le.trans (List.prefix_append _ _)
  · rw [hcalls hopen hdelivered]
    exact hsized hdelivered.2.1 hinput hidle hgave
  · rcases hsynced.progress hopen hbroken {} with hdone | hwrite | hread
    · by_cases hqueue : s.queue = []
      · exact Or.inl ⟨hqueue, hdone⟩
      · exact Or.inr (Or.inl ⟨hbroken, hdone.2.1, hqueue⟩)
    · exact Or.inr (Or.inr (Or.inl hwrite))
    · exact Or.inr (Or.inr (Or.inr fun _ => hread))

theorem put_broken (h : s.pipe.broken = true) (c : PtyCall) : s.put c = s := if_pos h

theorem put_eq (h : s.pipe.broken = false) (c : PtyCall) :
    s.put c = { s with queue := s.queue ++ [c], sent := s.sent ++ [c] } := by
  unfold put
  rw [h]
  rfl

theorem Kept.put (h : s.Kept) {c : PtyCall} (hc : c.Fits) : (s.put c).Kept := by
  cases hbroken : s.pipe.broken with
  | true =>
    rw [put_broken hbroken]
    exact h
  | false =>
    rw [put_eq hbroken]
    obtain ⟨taken, hsent, hsynced⟩ := h.synced
    refine ⟨⟨taken, ?_, hsynced⟩, fun c' hc' => ?_, h.pending, h.size⟩
    · dsimp only
      rw [hsent, List.append_assoc]
    · rcases List.mem_append.mp hc' with hc' | hc'
      · exact h.queued c' hc'
      · rw [List.mem_singleton.mp hc']
        exact hc

theorem Sized.put (h : s.Sized opened) (data : Bytes) : (s.put (.writeAll data)).Sized opened := by
  cases hbroken : s.pipe.broken with
  | true =>
    rw [put_broken hbroken]
    exact h
  | false =>
    rw [put_eq hbroken]
    intro _ hinput hidle hgave
    exact (lastSize_writeAll opened s.sent data).trans (h hbroken hinput hidle hgave)

/-- The size of the session has been sent, if it could be. -/
theorem sized_put (opened : Nat × Nat) (s : Session) (sigwinch : Option SigwinchPhase) (gaveUp : Bool) :
    Sized { s.put (.resize s.rows s.cols) with sigwinch, gaveUp } opened := by
  cases hbroken : s.pipe.broken with
  | true =>
    rw [put_broken hbroken]
    exact fun hnot => absurd (hbroken.symm.trans hnot) nofun
  | false =>
    rw [put_eq hbroken]
    exact fun _ _ _ _ => lastSize_resize opened s.sent s.rows s.cols

/-- A resize is sent, or it fails and nothing changes. -/
theorem doSigwinchResize_or (hsize : s.rows < 2 ^ 16) (action : SigwinchAction) :
    s.doSigwinchResize action = (s, false) ∨
      ∃ rows < 2 ^ 16, (action = .restore → rows = s.rows) ∧
        s.doSigwinchResize action = (s.put (.resize rows s.cols), true) := by
  unfold doSigwinchResize
  by_cases hzero : s.rows = 0 ∨ s.cols = 0
  · exact Or.inl (if_pos hzero)
  · rw [if_neg hzero]
    cases hinput : s.inputTx with
    | false => exact Or.inl rfl
    | true =>
      rw [if_pos rfl]
      unfold trySend
      cases s.pipe.broken || s.full with
      | true => exact Or.inl rfl
      | false =>
        refine Or.inr ⟨_, ?_, ?_, rfl⟩
        · cases action with
          | tempResize =>
            dsimp only
            split_ifs <;> omega
          | restore => exact hsize
        · rintro rfl
          rfl

theorem Kept.with_phase (h : s.Kept) (sigwinch : Option SigwinchPhase) (gaveUp : Bool) :
    Kept { s with sigwinch, gaveUp } := ⟨h.synced, h.queued, h.pending, h.size⟩

theorem Kept.readOutputs (h : s.Kept) : s.readOutputs.Kept := by
  unfold Session.readOutputs
  split
  · exact h
  · split
    · exact h.with_phase _ _
    · rename_i action _
      rcases doSigwinchResize_or h.size.1 action with hfails | ⟨rows, hrows, -, hsent⟩
      · rw [hfails]
        exact h.with_phase _ _
      · rw [hsent]
        have hfits : (PtyCall.resize rows s.cols).Fits := ⟨hrows, h.size.2⟩
        exact (h.put hfits).with_phase _ _

theorem Sized.readOutputs (h : s.Sized opened) (hsize : s.rows < 2 ^ 16) : s.readOutputs.Sized opened := by
  cases hphase : s.sigwinch with
  | none =>
    unfold Session.readOutputs
    rw [hphase]
    exact h
  | some phase =>
    unfold Session.readOutputs
    rw [hphase]
    dsimp only
    cases phase with
    | idle =>
      -- nothing to do
      intro hbroken hinput _ hgave
      exact h hbroken hinput hphase (Bool.or_eq_false_iff.mp hgave).1
    | tempResize retries =>
      cases retries with
      | zero =>
        intro _ _ _ hgave
        exact absurd (Bool.or_eq_false_iff.mp hgave).2 (by decide)
      | succ retries =>
        rw [SigwinchPhase.attempt]
        dsimp only
        rcases doSigwinchResize_or hsize .tempResize with hfails | ⟨rows, -, -, hsent⟩
        · rw [hfails]
          intro _ _ hidle
          cases hidle
        · rw [hsent]
          intro _ _ hidle
          cases hidle
    | restore retries =>
      cases retries with
      | zero =>
        intro _ _ _ hgave
        exact absurd (Bool.or_eq_false_iff.mp hgave).2 (by decide)
      | succ retries =>
        rw [SigwinchPhase.attempt]
        dsimp only
        rcases doSigwinchResize_or hsize .restore with hfails | ⟨rows, -, hrows, hsent⟩
        · rw [hfails]
          intro _ _ hidle
          cases hidle
        · rw [hsent, hrows rfl]
          exact sized_put opened s _ _

theorem Kept.handleResize (h : s.Kept) (rows cols : Nat) : (s.handleResize rows cols).Kept := by
  have hlt : rows % 2 ^ 16 < 2 ^ 16 ∧ cols % 2 ^ 16 < 2 ^ 16 :=
    ⟨Nat.mod_lt _ (by decide), Nat.mod_lt _ (by decide)⟩
  have hset : Kept { s with rows := rows % 2 ^ 16, cols := cols % 2 ^ 16, gaveUp := false } :=
    ⟨h.synced, h.queued, h.pending, hlt⟩
  unfold Session.handleResize
  dsimp only
  split_ifs
  · exact hset.put hlt
  · exact hset

theorem sized_handleResize (opened : Nat × Nat) (s : Session) (rows cols : Nat) :
    (s.handleResize rows cols).Sized opened := by
  unfold Session.handleResize
  dsimp only
  split_ifs with hinput
  · exact sized_put opened { s with rows := rows % 2 ^ 16, cols := cols % 2 ^ 16, gaveUp := false } _ _
  · exact fun _ hyes => absurd hyes hinput

theorem Kept.stop (h : s.Kept) : s.stop.Kept := by
  unfold Session.stop
  dsimp only
  have hclosed : Kept { s with sigwinch := none } := h.with_phase none s.gaveUp
  split_ifs
  · have hshort : (PtyCall.writeAll [13, 10]).Fits := Nat.le_of_ble_eq_true rfl
    have hput := hclosed.put hshort
    exact ⟨hput.synced, hput.queued, hput.pending, hput.size⟩
  · exact hclosed

theorem sized_stop (opened : Nat × Nat) (s : Session) : s.stop.Sized opened := by
  unfold Session.stop
  dsimp only
  split_ifs with hinput
  · exact fun _ hyes => nomatch hyes
  · exact fun _ hyes => absurd hyes hinput

/-- The writer thread takes the next message. -/
theorem Kept.recv (h : s.Kept) (hbroken : s.pipe.broken = false) {c : PtyCall} {queue : List PtyCall}
    (hqueue : s.queue = c :: queue) : Kept { s with queue, pipe := s.pipe.send [c.encode] } := by
  obtain ⟨taken, hsent, hsynced⟩ := h.synced
  have hc : c.Fits := h.queued c (hqueue ▸ List.mem_cons_self)
  refine ⟨⟨taken ++ [c], ?_, hsynced.send hbroken fun goal hgoal => ?_⟩, fun c' hc' => ?_, h.pending, h.size⟩
  · dsimp only
    rw [hsent, hqueue, List.append_assoc]
    rfl
  · refine ⟨goal.call c, ?_, hgoal, rfl⟩
    rw [List.flatten_singleton]
    exact InputThread.after_message hgoal hc
  · exact h.queued c' (hqueue ▸ List.mem_cons_of_mem c hc')

theorem Kept.with_pipe (h : s.Kept) {pipe : PartialReads.Link UInt8 InputThread}
    (hpipe : ∀ taken, InputThread.receiver.InSync s.pipe taken → InputThread.receiver.InSync pipe taken) :
    Kept { s with pipe } := by
  obtain ⟨taken, hsent, hsynced⟩ := h.synced
  exact ⟨⟨taken, hsent, hpipe taken hsynced⟩, h.queued, h.pending, h.size⟩

theorem Kept.step (h : s.Kept) {e : Event} (he : s.Possible e) : (s.step e).Kept := by
  cases e with
  | handleData data =>
    dsimp only [Session.step]
    split_ifs
    · refine ⟨h.synced, h.queued, fun data' hdata' => ?_, h.size⟩
      rcases List.mem_append.mp hdata' with hdata' | hdata'
      · exact h.pending data' hdata'
      · rw [List.mem_singleton.mp hdata']
        exact he
    · exact h
  | send i =>
    dsimp only [Session.step]
    cases hdata : s.pending[i]? with
    | none => exact h
    | some data =>
      have hput := h.put (c := .writeAll data) (h.pending data (List.mem_of_getElem? hdata))
      exact ⟨hput.synced, hput.queued, fun data' hdata' => h.pending data' (List.mem_of_mem_eraseIdx hdata'),
        hput.size⟩
  | handleResize rows cols => exact h.handleResize rows cols
  | resetStatus => exact h.with_phase _ s.gaveUp
  | reconnect => exact h.with_phase _ s.gaveUp
  | readOutputs => exact h.readOutputs
  | stop => exact h.stop
  | recv =>
    obtain ⟨hbroken, -, hqueue⟩ := he
    dsimp only [Session.step]
    split
    · rename_i c queue hcons
      exact h.recv hbroken hcons
    · exact h
  | write n => exact h.with_pipe fun _ hsynced => hsynced.write n
  | writeFails => exact h.with_pipe fun _ hsynced => hsynced.fail
  | read n a => exact h.with_pipe fun _ hsynced => hsynced.read a he
  | inputStops =>
    refine h.with_pipe fun _ hsynced => hsynced.stop ?_ ?_ rfl
    · exact InputThread.not_open_close _ _
    · exact InputThread.not_rejected_close _ nofun nofun

theorem Sized.with_pipe (h : s.Sized opened) {pipe : PartialReads.Link UInt8 InputThread} {queue : List PtyCall}
    (hbroken : pipe.broken = false → s.pipe.broken = false) :
    Sized { s with queue, pipe } opened := fun hpipe => h (hbroken hpipe)

theorem Sized.step (h : s.Sized opened) (hsize : s.rows < 2 ^ 16) (e : Event) : (s.step e).Sized opened := by
  cases e with
  | handleData data =>
    dsimp only [Session.step]
    split_ifs
    · exact h
    · exact h
  | send i =>
    dsimp only [Session.step]
    cases s.pending[i]? with
    | none => exact h
    | some data => exact h.put data
  | handleResize rows cols => exact sized_handleResize opened s rows cols
  | resetStatus =>
    intro _ _ hidle
    cases hidle
  | reconnect =>
    intro _ _ hidle
    cases hidle
  | readOutputs => exact h.readOutputs hsize
  | stop => exact sized_stop opened s
  | recv =>
    dsimp only [Session.step]
    split
    · refine h.with_pipe fun hpipe => ?_
      unfold PartialReads.Link.send at hpipe
      split_ifs at hpipe with hbroken
      · exact hpipe
      · exact hpipe
    · exact h
  | write n =>
    refine h.with_pipe fun hpipe => ?_
    unfold PartialReads.Link.write at hpipe
    split at hpipe
    · exact hpipe
    · exact hpipe
  | writeFails => exact fun hpipe => nomatch hpipe
  | read n a => exact h.with_pipe id
  | inputStops => exact h.with_pipe id

theorem kept_opened (rows cols : Nat) : (Session.opened rows cols).Kept where
  synced := by
    have hidle : InputThread.receiver.Idle {} := rfl
    refine ⟨[], rfl, PartialReads.Receiver.InSync.of_leads nofun (fun _ => Nat.succ_pos 4) ?_ hidle rfl⟩
    exact ⟨[], fun _ => rfl, rfl⟩
  queued := nofun
  pending := nofun
  size := ⟨Nat.mod_lt _ (by decide), Nat.mod_lt _ (by decide)⟩

end Session

/-- What is typed and the sizes reach the terminal, in every order of the steps of all threads. -/
theorem terminal_helper_in_step (rows cols : Nat) {es : List Event}
    (h : Guarded Session.step Session.Possible (.opened rows cols) es) :
    Throughout Session.step (InStep (rows % 2 ^ 16, cols % 2 ^ 16)) (.opened rows cols) es := by
  have hstep : ∀ (s : Session) (e : Event),
      s.Kept ∧ s.Sized (rows % 2 ^ 16, cols % 2 ^ 16) → s.Possible e →
        (s.step e).Kept ∧ (s.step e).Sized (rows % 2 ^ 16, cols % 2 ^ 16) :=
    fun _ e hs he => ⟨hs.1.step he, hs.2.step hs.1.size.1 e⟩
  have hstart : (Session.opened rows cols).Sized (rows % 2 ^ 16, cols % 2 ^ 16) := fun _ _ _ _ => rfl
  exact History.throughout_imp (fun _ hs => hs.1.inStep hs.2)
    (History.throughout_of_guarded hstep ⟨Session.kept_opened rows cols, hstart⟩ h)

/-- A line is typed and the window grows, and the client connects again; the calls on the pipe take other
parts than the messages have. -/
def lineAndSizes : List Event :=
  [.handleData [108, 115], .send 0, .handleResize 30 100, .recv, .write 3, .read 2 {}, .write 4, .reconnect,
   .recv, .readOutputs, .read 3 {}, .read 2 {}, .write 9, .recv, .write 9, .readOutputs, .read 5 {}, .recv,
   .read 4 {}, .write 9, .read 5 {}, .read 4 {}, .read 5 {}, .read 3 {}, .read 1 {}]

theorem terminal_helper_in_step_lineAndSizes :
    (run Session.step (.opened 24 80) lineAndSizes).pipe.reader.state.calls =
        [.writeAll [108, 115], .resize 30 100, .resize 29 100, .resize 30 100]
      ∧ Throughout Session.step (InStep (24 % 2 ^ 16, 80 % 2 ^ 16)) (.opened 24 80) lineAndSizes :=
  ⟨by decide +kernel, terminal_helper_in_step 24 80 (by decide +kernel)⟩

end RustDesk.TerminalHelper
