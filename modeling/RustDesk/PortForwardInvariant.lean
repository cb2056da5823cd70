import RustDesk.PortForward
import RustDesk.History

/-!
# What lies between the two ends of a port forward

`Carries` is the state of one direction: the messages on their way as frames, the raw
bytes behind them, and how both relate to what was sent and written at one end and read
and delivered at the other. Each operation of an end has a lemma here.
-/

namespace RustDesk

variable {B : SecretBox} {w : Wire}

/-- From `a` to `b` the messages `ms` and then the bytes `raw` are on their way; `held` are
bytes of the application that `a` keeps back. -/
structure Carries (a b : Endpoint B) (held : Bytes) (ms : List Bytes) (raw : Bytes) : Prop where
  link : FramedStream.Link a.stream b.stream b.net ms raw
  sent : a.sent = b.received ++ ms
  bytes : a.wrote = b.delivered ++ (raw ++ (held ++ a.unread))

namespace Carries

open FramedStream

variable {a b : Endpoint B} {held raw : Bytes} {ms : List Bytes}

theorem arrive_reader (h : Carries a b held ms raw) (n : Nat) :
    Carries a (b.arrive n) held ms raw :=
  ⟨h.link.arrive n, h.sent, h.bytes⟩

theorem arrive_writer (h : Carries a b held ms raw) (n : Nat) :
    Carries (a.arrive n) b held ms raw :=
  ⟨h.link.congr (writing_arrive _ _) rfl, h.sent, h.bytes⟩

theorem write_writer (h : Carries a b held ms raw) (bytes : Bytes) :
    Carries (a.write bytes) b held ms raw := by
  refine ⟨h.link, h.sent, ?_⟩
  simp only [Endpoint.write, h.bytes, List.append_assoc]

theorem write_reader (h : Carries a b held ms raw) (bytes : Bytes) :
    Carries a (b.write bytes) held ms raw :=
  ⟨h.link, h.sent, h.bytes⟩

theorem send (h : Carries a b held ms raw) (ha : a.stream.codec.raw = false)
    (hb : b.stream.codec.raw = false) {msg : Bytes} (hmsg : Short msg) :
    Carries (a.send msg).1 { b with net := b.net ++ (a.send msg).2 } held (ms ++ [msg]) [] := by
  have hraw := h.link.unmixed ha
  refine ⟨(h.link.sendRaw ha hb hmsg).1, ?_, ?_⟩
  · simp only [Endpoint.send, h.sent, List.append_assoc]
  · have hbytes := h.bytes
    rw [hraw] at hbytes
    exact hbytes

theorem send_reader (h : Carries a b held ms raw) (msg : Bytes) (net : Bytes) :
    Carries { a with net := net } (b.send msg).1 held ms raw :=
  ⟨h.link.congr rfl (reading_sendRaw msg b.stream), h.sent, h.bytes⟩

theorem sendBytes (h : Carries a b held ms raw) (ha : a.stream.codec.raw = true) {out held' : Bytes}
    {unread : Bytes} (hout : out ++ (held' ++ unread) = held ++ a.unread) :
    Carries { a with unread := unread } { b with net := b.net ++ a.stream.sendBytes out } held' ms
      (raw ++ out) := by
  refine ⟨h.link.sendBytes ha out, h.sent, ?_⟩
  simp only [h.bytes, List.append_assoc, hout]

theorem net_writer (h : Carries a b held ms raw) (net unread : Bytes) (hu : unread = a.unread) :
    Carries { a with net := net, unread := unread } b held ms raw := by
  subst hu
  exact ⟨h.link, h.sent, h.bytes⟩

theorem unread_reader (h : Carries a b held ms raw) (unread : Bytes) :
    Carries a { b with unread := unread } held ms raw :=
  ⟨h.link, h.sent, h.bytes⟩

theorem hold (h : Carries a b held ms raw) (n : Nat) :
    Carries { a with unread := a.unread.drop n } b (held ++ a.unread.take n) ms raw := by
  refine ⟨h.link, h.sent, ?_⟩
  simp only [h.bytes, List.append_assoc, List.take_append_drop]

theorem setRaw_writer (h : Carries a b held ms raw) : Carries a.setRaw b held ms raw :=
  ⟨h.link.setRaw_writer, h.sent, h.bytes⟩

theorem setRaw_reader (h : Carries a b held [] raw) : Carries a b.setRaw held [] raw :=
  ⟨h.link.setRaw_reader, h.sent, h.bytes⟩

/-- What a framed end finds. -/
inductive Found (a b : Endpoint B) (held : Bytes) (ms : List Bytes) (raw : Bytes) :
    FramedStream B × Option (Except StreamError Bytes) → Prop
  | waits {stream : FramedStream B} : stream.codec.raw = false →
      Carries a { b with stream } held ms raw → Found a b held ms raw (stream, none)
  | message {stream : FramedStream B} {m : Bytes} {rest : List Bytes} : ms = m :: rest →
      stream.codec.raw = false →
      Carries a { b with stream, received := b.received ++ [m] } held rest raw →
      Found a b held ms raw (stream, some (.ok m))

theorem next (h : Carries a b held ms raw) (hb : b.stream.codec.raw = false)
    (hend : ms = [] → raw = []) : Found a b held ms raw b.stream.next := by
  have hread := h.link.next hb hend
  generalize b.stream.next = d at hread
  cases hread with
  | waits hraw hl => exact .waits (hraw.trans hb) ⟨hl, h.sent, h.bytes⟩
  | @message stream m rest hms hraw hl =>
    refine .message hms (hraw.trans hb) ⟨hl, ?_, h.bytes⟩
    rw [h.sent, hms]
    simp

theorem next_raw (h : Carries a b held ms raw) (hb : b.stream.codec.raw = true) :
    b.stream.next = (b.stream, none) ∨ ∃ stream bytes rest,
      b.stream.next = (stream, some (.ok bytes)) ∧ stream.codec.raw = true ∧
        Carries a { b with stream, delivered := b.delivered ++ bytes } held [] rest := by
  obtain ⟨hms, -, -⟩ := h.link.raw hb
  rcases h.link.next_raw hb with hn | ⟨rest, hn, hraw, hl⟩
  · exact .inl hn
  · refine .inr ⟨_, _, rest, hn, hb, hl, ?_, ?_⟩
    · rw [h.sent, hms]
    · rw [h.bytes, hraw]
      simp only [List.append_assoc]

theorem next_writer (h : Carries a b held ms raw) (received : List Bytes) (delivered : Bytes) :
    Carries { a with stream := a.stream.next.1, received, delivered } b held ms raw :=
  ⟨h.link.congr (writing_next a.stream) rfl, h.sent, h.bytes⟩

end Carries

namespace Tunnel

/-- The client answers this message with a `TestDelay` of its own. -/
def isTest (w : Wire) (bytes : Bytes) : Bool :=
  match w.parseClient bytes with
  | some (.testDelay t) => !t.fromClient
  | _ => false

/-- The server takes this message for the answer to its `TestDelay`. -/
def isAnswer (w : Wire) (bytes : Bytes) : Bool :=
  match w.parse bytes with
  | some m => Connection.isReply m
  | none => false

def isHash (w : Wire) (bytes : Bytes) : Bool := w.parseClient bytes == some .hash

def isPeerInfo (w : Wire) (bytes : Bytes) : Bool := w.parseClient bytes == some .loginPeerInfo

/-- A message the client does not act on. -/
def Inert (w : Wire) (bytes : Bytes) : Prop :=
  isTest w bytes = false ∧ isHash w bytes = false ∧ isPeerInfo w bytes = false

/-- A login request in the message, if any, asks for a port forward. -/
def AsksForward (w : Wire) (bytes : Bytes) : Prop :=
  ∀ m, w.parse bytes = some m → ∀ lr, Connection.loginOf m = some lr →
    ∃ pf, lr.union = some (.portForward pf)

/-- Where the two ends are in the protocol, with the messages `up` on their way to the
server and `down` on their way to the client: what does not depend on the answers that the
client owes. -/
structure Base (w : Wire) (t : Tunnel B) (up down : List Bytes) : Prop where
  serverRaw : t.server.stream.codec.raw = t.forwards
  loginFramed : t.phase = .login → t.client.stream.codec.raw = false
  forwardRaw : t.phase = .forward → t.client.stream.codec.raw = true
  emptied : t.phase = .forward → t.buffer = []
  closed : t.conn.ended = false → t.conn.closed = false
  unauthorized : t.conn.authorized = false → t.conn.portForwardSocket = none
  window : t.conn.ended = false → t.conn.authorized = true →
    t.conn.portForwardSocket.isSome = true ∧ t.conn.lastTestDelay.isSome = true
  asked : t.conn.ended = false → t.conn.authorized = false → t.server.received ≠ [] →
    ∃ pf, t.conn.lr.union = some (.portForward pf)
  logins : ∀ bytes ∈ up, AsksForward w bytes
  echoes : ∀ bytes ∈ down, ∀ td, w.parseClient bytes = some (.testDelay td) →
    td.fromClient = false → FramedStream.Short (w.write (.testDelay td))
  infoAhead : t.phase = .login → t.conn.authorized = true →
    ∃ ds d, down = ds ++ [d] ∧ isPeerInfo w d = true ∧ ∀ d ∈ ds, isPeerInfo w d = false
  noInfo : t.conn.authorized = false → ∀ d ∈ down, isPeerInfo w d = false
  clientRaw : t.client.stream.codec.raw = true → down = [] ∧ t.conn.authorized = true
  settled : t.forwards = true → up = [] ∧
    (t.phase = .login → ∀ d ∈ down, isTest w d = false ∧ isHash w d = false)

/-- The answers to the hash and to the `TestDelay` of the server. A `TestDelay` is on its
way to the client or its answer on the way back, as long as the server waits for it. -/
structure Protocol (w : Wire) (t : Tunnel B) (up down : List Bytes) : Prop
    extends Base w t up down where
  first : ∀ bytes ∈ t.client.sent.head?, ∃ lr, w.parse bytes = some (.loginRequest lr)
  hashAhead : t.client.received = [] → t.client.sent = [] ∧
    ∃ bytes rest, down = bytes :: rest ∧ isHash w bytes = true ∧ ∀ d ∈ rest, isHash w d = false
  hashRead : t.client.received ≠ [] → t.phase = .login →
    t.client.sent ≠ [] ∧ ∀ d ∈ down, isHash w d = false
  outstanding : t.conn.ended = false → (t.phase = .login ∨ t.client.stream.codec.raw = true) →
    up.countP (isAnswer w) + down.countP (isTest w) = if t.conn.lastTestDelay.isSome then 1 else 0

/-- Both directions and the protocol. -/
def Inv (w : Wire) (t : Tunnel B) : Prop :=
  ∃ up down upRaw downRaw, Carries t.client t.server t.buffer up upRaw ∧
    Carries t.server t.client [] down downRaw ∧ Protocol w t up down

/-- What the two applications and the two message loops get is what the other end gave. -/
structure Transparent (t : Tunnel B) : Prop where
  toTarget : t.server.delivered <+: t.client.wrote
  toLocal : t.client.delivered <+: t.server.wrote
  toServer : t.server.received <+: t.client.sent
  toClient : t.client.received <+: t.server.sent

theorem Inv.transparent {t : Tunnel B} (h : Inv w t) : t.Transparent := by
  obtain ⟨up, down, upRaw, downRaw, hup, hdown, -⟩ := h
  exact ⟨⟨_, hup.bytes.symm⟩, ⟨_, hdown.bytes.symm⟩, ⟨_, hup.sent.symm⟩, ⟨_, hdown.sent.symm⟩⟩

/-! ### The condition -/

/-- The messages of the client that the server has not read. -/
def unreadByServer (t : Tunnel B) : List Bytes := t.client.sent.drop t.server.received.length

/-- A turn of the message loop of the server, with the messages of the client that stay
unread after it. -/
structure TurnOk (w : Wire) (b : Build) (t : Tunnel B) (env : Env) (ev : Event)
    (unread : List Bytes) : Prop where
  short : ∀ m ∈ Connection.sentSince t.conn (t.conn.step b (env, ev)),
    FramedStream.Short (w.write m)
  relayed : ∀ m, Connection.relayed ev = some m → Inert w (w.write m)
  silent : t.conn.authorized = true → Connection.sentSince t.conn (t.conn.step b (env, ev)) = []
  click : ev = .cm .authorize → t.server.received ≠ []
  leaves : (t.conn.step b (env, ev)).ended = true →
    (t.conn.step b (env, ev)).portForwardSocket.isSome = true →
    unread = [] ∧ (ev = .cm .authorize → t.conn.lastTestDelay = none)

/-- The condition on one step. -/
def Orderly (w : Wire) (b : Build) (t : Tunnel B) : TunnelEvent w → Prop
  | .server env ev => t.conn.ended = false → fromStream ev = false →
    TurnOk w b t env ev t.unreadByServer
  | .serverNext env => t.conn.ended = false → ∀ bytes,
    t.server.stream.next.2 = some (.ok bytes) →
      TurnOk w b t env (peerEvent w bytes) t.unreadByServer.tail
  | .clientNext login _ => FramedStream.Short login.bytes
  | .uiLogin login => t.phase = .login →
    FramedStream.Short login.bytes ∧ t.forwards = false ∧ t.client.received ≠ []
  | .uiMessage msg => t.phase = .login → FramedStream.Short msg ∧ t.forwards = false ∧
    t.client.received ≠ [] ∧ isAnswer w msg = false ∧ AsksForward w msg
  | _ => True

end Tunnel

end RustDesk
