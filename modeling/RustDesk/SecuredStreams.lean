import RustDesk.FramedStream
import RustDesk.History

/-!
# What a secured stream hands over

A session runs over TCP frames or over WebSocket messages. The two streams have a `next` of
their own, and both decrypt with `Encrypt::dec`, which leaves a payload of one byte as it
is. A text message of a WebSocket is returned without it.

The adversary decides what arrives. `reads` are the payloads that `next` and `next_timeout`
returned, each with the frame or the message it was read from.
-/

namespace RustDesk

/-- `tungstenite::Message`; a text is its bytes. -/
inductive WsMessage
  | text (text : Bytes)
  | binary (data : Bytes)
  | ping (data : Bytes)
  | pong (data : Bytes)
  | close
  | frame (data : Bytes)
  deriving DecidableEq, Repr

/-- What a WebSocket yields. -/
inductive WsItem
  | message (m : WsMessage)
  | error (e : String)
  | eof
  deriving DecidableEq, Repr

/-- What a call of `next` comes to. -/
inductive Polled
  | pending
  | closed
  | error (e : String)
  | ok (payload : Bytes)
  deriving DecidableEq, Repr

structure WsFramedStream (B : SecretBox) where
  incoming : List WsItem := []
  encrypt : Option (Encrypt B) := none

variable {B : SecretBox}

namespace WsFramedStream

def setKey (key : B.Key) (s : WsFramedStream B) : WsFramedStream B :=
  { s with encrypt := some { key := key } }

/-- `send_raw`, with the data of the binary message. -/
def sendRaw (msg : Bytes) (s : WsFramedStream B) : WsFramedStream B × Bytes :=
  match s.encrypt with
  | some e => ({ s with encrypt := some (e.enc msg).1 }, (e.enc msg).2)
  | none => (s, msg)

def receive (item : WsItem) (s : WsFramedStream B) : WsFramedStream B :=
  { s with incoming := s.incoming ++ [item] }

/-- The loop of `next`, which passes over what is neither data nor the end. -/
def nextLoop (encrypt : Option (Encrypt B)) : List WsItem → WsFramedStream B × Polled
  | [] => (⟨[], encrypt⟩, .pending)
  | .eof :: rest => (⟨rest, encrypt⟩, .closed)
  | .error e :: rest => (⟨rest, encrypt⟩, .error ("WebSocket protocol error: " ++ e))
  | .message (.binary data) :: rest =>
    match encrypt with
    | none => (⟨rest, none⟩, .ok data)
    | some e =>
      match e.dec data with
      | (e, some plain) => (⟨rest, some e⟩, .ok plain)
      | (e, none) => (⟨rest, some e⟩, .error "decryption error")
  | .message (.text text) :: rest => (⟨rest, encrypt⟩, .ok text)
  | .message .close :: rest => (⟨rest, encrypt⟩, .closed)
  | .message (.ping _) :: rest => nextLoop encrypt rest
  | .message (.pong _) :: rest => nextLoop encrypt rest
  | .message (.frame _) :: rest => nextLoop encrypt rest

def next (s : WsFramedStream B) : WsFramedStream B × Polled := nextLoop s.encrypt s.incoming

/-- What `next` passes over. -/
def passedOver : WsItem → Bool
  | .message (.ping _) => true
  | .message (.pong _) => true
  | .message (.frame _) => true
  | _ => false

/-- What `next` comes to, if it has arrived. -/
def inHand (s : WsFramedStream B) : Option WsItem := (s.incoming.dropWhile passedOver).head?

end WsFramedStream

namespace StreamError

def text : StreamError → String
  | .codec .tooBigPacket => "Too big packet"
  | .codec .overflow => "Overflow"
  | .decryption => "decryption error"

end StreamError

inductive Stream (B : SecretBox)
  | tcp (s : FramedStream B)
  | webSocket (s : WsFramedStream B)

namespace Stream

def setKey (key : B.Key) : Stream B → Stream B
  | .tcp s => .tcp (s.setKey key)
  | .webSocket s => .webSocket (s.setKey key)

def sendRaw (msg : Bytes) : Stream B → Stream B
  | .tcp s => .tcp (s.sendRaw msg).1
  | .webSocket s => .webSocket (s.sendRaw msg).1

def next : Stream B → Stream B × Polled
  | .tcp s =>
    match s.next with
    | (s, none) => (.tcp s, .pending)
    | (s, some (.ok bytes)) => (.tcp s, .ok bytes)
    | (s, some (.error e)) => (.tcp s, .error e.text)
  | .webSocket s => (.webSocket s.next.1, s.next.2)

/-- `next_timeout`: the time is over while `next` is still waiting. -/
def nextTimeout (s : Stream B) : Stream B × Polled :=
  match s.next with
  | (s, .pending) => (s, .closed)
  | r => r

def encrypt : Stream B → Option (Encrypt B)
  | .tcp s => s.encrypt
  | .webSocket s => s.encrypt

/-- The frame or the message that `next` returns the payload of. -/
def received : Stream B → Option Bytes
  | .tcp s =>
    match s.codec.decode s.buffer with
    | (_, _, .ok frame) => frame
    | (_, _, .error _) => none
  | .webSocket s =>
    match s.inHand with
    | some (.message (.binary data)) => some data
    | some (.message (.text text)) => some text
    | _ => none

/-- The next payload is that of a text message with more than one byte. -/
def longText : Stream B → Bool
  | .tcp _ => false
  | .webSocket s =>
    match s.inHand with
    | some (.message (.text text)) => 1 < text.length
    | _ => false

end Stream

structure Read where
  frame : Bytes
  payload : Bytes
  deriving DecidableEq, Repr

structure Reader (B : SecretBox) where
  stream : Stream B
  reads : List Read := []

inductive ReaderEvent
  | arrive (bytes : Bytes)
  | receive (item : WsItem)
  | next
  | nextTimeout
  | send (msg : Bytes)
  deriving DecidableEq, Repr

namespace Reader

def start (key : B.Key) (s : Stream B) : Reader B := { stream := s.setKey key }

/-- A payload that was returned is noted. -/
def note (s : Reader B) : Stream B × Polled → Reader B
  | (stream, .ok payload) => ⟨stream, ⟨s.stream.received.getD [], payload⟩ :: s.reads⟩
  | (stream, _) => ⟨stream, s.reads⟩

def step (s : Reader B) : ReaderEvent → Reader B
  | .arrive bytes =>
    match s.stream with
    | .tcp t => { s with stream := .tcp (t.arrive bytes) }
    | .webSocket _ => s
  | .receive item =>
    match s.stream with
    | .tcp _ => s
    | .webSocket t => { s with stream := .webSocket (t.receive item) }
  | .next => s.note s.stream.next
  | .nextTimeout => s.note s.stream.nextTimeout
  | .send msg => { s with stream := s.stream.sendRaw msg }

/-- A payload of more than one byte is what a frame holds that opens under the key. -/
def Authentic (key : B.Key) (r : Read) : Prop :=
  1 < r.payload.length → ∃ seqnum, B.openBox r.frame (getNonce seqnum) key = some r.payload

def Authenticated (key : B.Key) (s : Reader B) : Prop := ∀ r ∈ s.reads, Authentic key r

/-- A long text message is not the next to be returned. -/
def NoLongText (s : Reader B) (ev : ReaderEvent) : Prop :=
  ev = .next ∨ ev = .nextTimeout → s.stream.longText = false

instance decidableNoLongText (s : Reader B) (ev : ReaderEvent) : Decidable (NoLongText s ev) :=
  inferInstanceAs (Decidable (ev = .next ∨ ev = .nextTimeout → s.stream.longText = false))

/-! ### One call of `next` -/

def SecuredBy (key : B.Key) (e : Option (Encrypt B)) : Prop := ∃ c, e = some c ∧ c.key = key

theorem dec_spec (e : Encrypt B) (bytes : Bytes) :
    (e.dec bytes).1.key = e.key ∧ ∀ plain, (e.dec bytes).2 = some plain →
      Authentic e.key ⟨bytes, plain⟩ := by
  unfold Encrypt.dec
  split
  · rename_i hle
    refine ⟨rfl, fun plain hplain hlong => ?_⟩
    cases hplain
    dsimp only at hlong
    omega
  · exact ⟨rfl, fun plain hplain _ => ⟨e.received + 1, hplain⟩⟩

/-- What a call of `next` on a secured stream comes to: the stream stays secured, and the
payload is authentic or that of a text message. -/
structure NextSpec (key : B.Key) (s s' : Stream B) (r : Polled) : Prop where
  secured : SecuredBy key s'.encrypt
  authentic : ∀ payload, r = .ok payload →
    s.longText = false → Authentic key ⟨s.received.getD [], payload⟩
  text : s.longText = true → ∃ text, 1 < text.length ∧ s.received = some text ∧ r = .ok text

theorem nextSpec_tcp {key : B.Key} {s : FramedStream B} (h : SecuredBy key s.encrypt) :
    NextSpec key (.tcp s) (Stream.next (.tcp s)).1 (Stream.next (.tcp s)).2 := by
  obtain ⟨e, he, rfl⟩ := h
  rcases hd : s.codec.decode s.buffer with ⟨codec, buffer, err | _ | frame⟩
  · have hnext : Stream.next (.tcp s) =
        (.tcp { s with codec, buffer }, .error (StreamError.codec err).text) := by
      simp [Stream.next, FramedStream.next, hd]
    rw [hnext]
    exact ⟨⟨e, he, rfl⟩, fun _ hr => (nomatch hr), fun ht => (nomatch ht)⟩
  · have hnext : Stream.next (.tcp s) = (.tcp { s with codec, buffer }, .pending) := by
      simp [Stream.next, FramedStream.next, hd]
    rw [hnext]
    exact ⟨⟨e, he, rfl⟩, fun _ hr => (nomatch hr), fun ht => (nomatch ht)⟩
  · obtain ⟨hkey, hauthentic⟩ := dec_spec e frame
    have hreceived : (Stream.tcp s).received = some frame := by simp [Stream.received, hd]
    rcases hdec : e.dec frame with ⟨e', _ | plain⟩
    · have hnext : Stream.next (.tcp s) =
          (.tcp { s with codec, buffer, encrypt := some e' }, .error StreamError.decryption.text) := by
        simp [Stream.next, FramedStream.next, hd, he, hdec]
      rw [hdec] at hkey
      rw [hnext]
      exact ⟨⟨e', rfl, hkey⟩, fun _ hr => (nomatch hr), fun ht => (nomatch ht)⟩
    · have hnext : Stream.next (.tcp s) =
          (.tcp { s with codec, buffer, encrypt := some e' }, .ok plain) := by
        simp [Stream.next, FramedStream.next, hd, he, hdec]
      rw [hdec] at hkey hauthentic
      rw [hnext]
      refine ⟨⟨e', rfl, hkey⟩, fun payload hr _ => ?_, fun ht => (nomatch ht)⟩
      cases hr
      rw [hreceived]
      exact hauthentic plain rfl

/-- The loop passes over what `inHand` does not see. -/
theorem nextSpec_loop {key : B.Key} {encrypt : Option (Encrypt B)} (h : SecuredBy key encrypt)
    (incoming : List WsItem) :
    NextSpec key (.webSocket ⟨incoming, encrypt⟩)
      (.webSocket (WsFramedStream.nextLoop encrypt incoming).1)
      (WsFramedStream.nextLoop encrypt incoming).2 := by
  induction incoming with
  | nil => exact ⟨h, fun _ hr => (nomatch hr), fun ht => (nomatch ht)⟩
  | cons item rest ih =>
    cases item with
    | eof => exact ⟨h, fun _ hr => (nomatch hr), fun ht => (nomatch ht)⟩
    | error e => exact ⟨h, fun _ hr => (nomatch hr), fun ht => (nomatch ht)⟩
    | message m =>
      cases m with
      | text text =>
        refine ⟨h, fun payload hr ht hlong => ?_, fun ht => ⟨text, of_decide_eq_true ht, rfl, rfl⟩⟩
        cases hr
        exact absurd hlong (of_decide_eq_false ht)
      | close => exact ⟨h, fun _ hr => (nomatch hr), fun ht => (nomatch ht)⟩
      | ping data => exact ⟨ih.secured, ih.authentic, ih.text⟩
      | pong data => exact ⟨ih.secured, ih.authentic, ih.text⟩
      | frame data => exact ⟨ih.secured, ih.authentic, ih.text⟩
      | binary data =>
        obtain ⟨e, rfl, rfl⟩ := h
        obtain ⟨hkey, hauthentic⟩ := dec_spec e data
        rcases hdec : e.dec data with ⟨e', _ | plain⟩
        · simp only [WsFramedStream.nextLoop, hdec]
          rw [hdec] at hkey
          exact ⟨⟨e', rfl, hkey⟩, fun _ hr => (nomatch hr), fun ht => (nomatch ht)⟩
        · simp only [WsFramedStream.nextLoop, hdec]
          rw [hdec] at hkey hauthentic
          refine ⟨⟨e', rfl, hkey⟩, fun payload hr _ => ?_, fun ht => (nomatch ht)⟩
          cases hr
          exact hauthentic plain rfl

theorem nextSpec_next {key : B.Key} {s : Stream B} (h : SecuredBy key s.encrypt) :
    NextSpec key s s.next.1 s.next.2 := by
  cases s with
  | tcp s => exact nextSpec_tcp h
  | webSocket s => exact nextSpec_loop h s.incoming

theorem nextSpec_nextTimeout {key : B.Key} {s : Stream B} (h : SecuredBy key s.encrypt) :
    NextSpec key s s.nextTimeout.1 s.nextTimeout.2 := by
  have hnext := nextSpec_next h
  unfold Stream.nextTimeout
  rcases hp : s.next with ⟨s', r⟩
  rw [hp] at hnext
  cases r with
  | pending =>
    refine ⟨hnext.secured, fun _ hr => (nomatch hr), fun ht => ?_⟩
    obtain ⟨text, -, -, hr⟩ := hnext.text ht
    cases hr
  | closed => exact hnext
  | error e => exact hnext
  | ok payload => exact hnext

/-! ### Runs -/

/-- The stream is secured, and everything it has returned is authentic. -/
structure Inv (key : B.Key) (s : Reader B) : Prop where
  secured : SecuredBy key s.stream.encrypt
  authenticated : Authenticated key s

theorem inv_note {key : B.Key} {s : Reader B} (h : Inv key s) {s' : Stream B} {r : Polled}
    (hspec : NextSpec key s.stream s' r) (htext : s.stream.longText = false) :
    Inv key (s.note (s', r)) := by
  cases r with
  | pending => exact ⟨hspec.secured, h.authenticated⟩
  | closed => exact ⟨hspec.secured, h.authenticated⟩
  | error e => exact ⟨hspec.secured, h.authenticated⟩
  | ok payload =>
    refine ⟨hspec.secured, fun x hx => ?_⟩
    rcases List.mem_cons.mp hx with rfl | hx
    · exact hspec.authentic payload rfl htext
    · exact h.authenticated x hx

theorem securedBy_sendRaw {key : B.Key} {s : Stream B} (h : SecuredBy key s.encrypt)
    (msg : Bytes) : SecuredBy key (s.sendRaw msg).encrypt := by
  obtain ⟨e, he, rfl⟩ := h
  refine ⟨(e.enc msg).1, ?_, rfl⟩
  cases s with
  | tcp s =>
    change s.encrypt = some e at he
    simp [Stream.sendRaw, FramedStream.sendRaw, Stream.encrypt, he]
  | webSocket s =>
    change s.encrypt = some e at he
    simp [Stream.sendRaw, WsFramedStream.sendRaw, Stream.encrypt, he]

theorem inv_step {key : B.Key} {s : Reader B} {ev : ReaderEvent} (h : Inv key s)
    (hok : NoLongText s ev) : Inv key (s.step ev) := by
  cases ev with
  | arrive bytes =>
    obtain ⟨stream, reads⟩ := s
    cases stream with
    | tcp t => exact ⟨h.secured, h.authenticated⟩
    | webSocket t => exact h
  | receive item =>
    obtain ⟨stream, reads⟩ := s
    cases stream with
    | tcp t => exact h
    | webSocket t => exact ⟨h.secured, h.authenticated⟩
  | next => exact inv_note h (nextSpec_next h.secured) (hok (.inl rfl))
  | nextTimeout => exact inv_note h (nextSpec_nextTimeout h.secured) (hok (.inr rfl))
  | send msg => exact ⟨securedBy_sendRaw h.secured msg, h.authenticated⟩

/-- A text message that is returned is not authentic, since a box is longer than what it
holds. -/
theorem not_authenticated_note
    (hopen : ∀ (c n : Bytes) (k : B.Key) m, B.openBox c n k = some m → c.length = m.length + 16)
    {key : B.Key} {s : Reader B} {s' : Stream B} {r : Polled}
    (hspec : NextSpec key s.stream s' r) (htext : s.stream.longText = true) :
    ¬ Authenticated key (s.note (s', r)) := by
  obtain ⟨text, hlong, hreceived, rfl⟩ := hspec.text htext
  intro h
  have hmem : (⟨text, text⟩ : Read) ∈ (s.note (s', .ok text)).reads := by
    simp [note, hreceived]
  obtain ⟨seqnum, hbox⟩ := h _ hmem hlong
  have := hopen _ _ _ _ hbox
  dsimp only at this
  omega

/-- On a stream with a session key, over TCP or WebSocket, in every run in which anything
may arrive: all payloads of more than one byte that were returned are what a received frame
holds under the key, in every state of the run, exactly when no text message of more than one
byte is the next to be returned. -/
theorem authenticated_throughout_iff
    (hopen : ∀ (c n : Bytes) (k : B.Key) m, B.openBox c n k = some m → c.length = m.length + 16)
    (key : B.Key) (s : Stream B) (evs : List ReaderEvent) :
    History.Throughout step (Authenticated key) (start key s) evs ↔
      History.Guarded step NoLongText (start key s) evs := by
  have hstart : Inv key (start key s) := by
    refine ⟨?_, fun r hr => (nomatch hr)⟩
    cases s with
    | tcp s => exact ⟨{ key }, rfl, rfl⟩
    | webSocket s => exact ⟨{ key }, rfl, rfl⟩
  have hgood : ∀ (s : Reader B) ev, Inv key s → NoLongText s ev → Inv key (s.step ev) :=
    fun s ev => inv_step
  refine History.throughout_iff_guarded hgood (fun s h => h.authenticated)
    (fun s ev h hno => ?_) hstart
  unfold NoLongText at hno
  rw [Classical.not_imp, Bool.not_eq_false] at hno
  obtain ⟨hev, htext⟩ := hno
  rcases hev with rfl | rfl
  · exact not_authenticated_note hopen (nextSpec_next h.secured) htext
  · exact not_authenticated_note hopen (nextSpec_nextTimeout h.secured) htext

theorem length_of_take_tag {c m k : Bytes}
    (h : (if c.take 16 = (k ++ List.replicate 16 0).take 16 then some (c.drop 16) else none) =
      some m) : c.length = m.length + 16 := by
  split at h
  · rename_i htake
    have hlen := congrArg List.length htake
    cases h
    simp only [List.length_take, List.length_append, List.length_replicate, List.length_drop] at hlen ⊢
    omega
  · cases h

theorem length_of_tagBox_open (c n : Bytes) (k : tagBox.Key) (m : Bytes)
    (h : tagBox.openBox c n k = some m) : c.length = m.length + 16 :=
  length_of_take_tag h

/-- A ping, a sealed message and a text of one byte. -/
def sealedRun : List ReaderEvent :=
  [.receive (.message (.ping [1, 2])), .receive (.message (.binary (7 :: List.replicate 15 0 ++ [4, 5]))),
    .nextTimeout, .receive (.message (.text [9])), .next]

theorem authenticated_sealedRun :
    (History.run step (start (bytesKey [7]) (.webSocket {})) sealedRun).reads =
        [⟨[9], [9]⟩, ⟨7 :: List.replicate 15 0 ++ [4, 5], [4, 5]⟩] ∧
      History.Throughout step (Authenticated (bytesKey [7])) (start (bytesKey [7]) (.webSocket {}))
        sealedRun :=
  ⟨by decide, (authenticated_throughout_iff length_of_tagBox_open (bytesKey [7]) (.webSocket {})
    sealedRun).mpr (by decide)⟩

/-- A text message is returned although nothing was opened. -/
theorem text_unauthenticated :
    ¬ ∀ (B : SecretBox) (key : B.Key) (s : Stream B) (evs : List ReaderEvent),
      (∀ (c n : Bytes) (k : B.Key) m, B.openBox c n k = some m → c.length = m.length + 16) →
      History.Throughout step (Authenticated key) (start key s) evs := by
  intro h
  have hlast := History.throughout_last (h tagBox (bytesKey [7]) (.webSocket {})
    [.receive (.message (.text [1, 2])), .next] length_of_tagBox_open)
  obtain ⟨seqnum, hbox⟩ := hlast ⟨[1, 2], [1, 2]⟩ (by decide) (by decide)
  have := length_of_tagBox_open _ _ _ _ hbox
  dsimp only at this
  omega

end Reader

end RustDesk
