import RustDesk.ConnectionHandshake
import RustDesk.FramedStream

/-!
# A port forward at both ends

The client accepts a connection of a local application and logs in at the peer
(`connect_and_login`); what the application writes meanwhile is kept in `buffer`. On the
peer information it makes its stream raw, sends the buffer and copies both ways
(`run_forward`). The server runs the message loop of the connection until a forward takes
the stream over, makes its stream raw and copies as well (`try_port_forward_loop`).

The two ends are joined by two byte streams that keep the order and may be cut anywhere:
how much arrives, when a message is taken and which branch of a loop runs next is up to
the sequence of events.
-/

namespace RustDesk

/-- What a message is for a client that logs in. -/
inductive ForClient
  | hash
  | loginError
  | loginPeerInfo
  | testDelay (t : TestDelay)
  | other
  deriving DecidableEq, Repr

def Outgoing.forClient : Outgoing → ForClient
  | .hash => .hash
  | .loginError .. => .loginError
  | .loginPeerInfo => .loginPeerInfo
  | .testDelay t => .testDelay t
  | _ => .other

/-- Writing and parsing of protocol messages. A client answers a `TestDelay` with the
message it received, so both ends write it alike. -/
structure Wire where
  write : Outgoing → Bytes
  parse : Bytes → Option Message
  parseClient : Bytes → Option ForClient
  write_raw : ∀ bytes, write (.raw bytes) = bytes
  parseClient_write : ∀ m, (∀ bytes, m ≠ .raw bytes) → parseClient (write m) = some m.forClient
  parse_testDelay : ∀ t, parse (write (.testDelay t)) = some (.testDelay t)

/-- A login request of the client, as `create_login_msg` builds it for a port forward. -/
structure Login (w : Wire) where
  bytes : Bytes
  lr : LoginRequest
  target : PortForward
  parses : w.parse bytes = some (.loginRequest lr)
  asks : lr.union = some (.portForward target)

/-- One end: its stream, the bytes on their way to it, the messages it sent and read as
frames, and the bytes of its application: all that were written, those not taken yet, and
those delivered. -/
structure Endpoint (B : SecretBox) where
  stream : FramedStream B := {}
  net : Bytes := []
  sent : List Bytes := []
  received : List Bytes := []
  wrote : Bytes := []
  unread : Bytes := []
  delivered : Bytes := []

variable {B : SecretBox} {w : Wire}

namespace Endpoint

/-- Up to `n` bytes arrive. -/
def arrive (n : Nat) (e : Endpoint B) : Endpoint B :=
  { e with stream := e.stream.arrive (e.net.take n), net := e.net.drop n }

/-- The application of this end writes. -/
def write (bytes : Bytes) (e : Endpoint B) : Endpoint B :=
  { e with wrote := e.wrote ++ bytes, unread := e.unread ++ bytes }

/-- A message is sent as a frame: this end, and what its stream wrote. -/
def send (msg : Bytes) (e : Endpoint B) : Endpoint B × Bytes :=
  ({ e with stream := (e.stream.sendRaw msg).1, sent := e.sent ++ [msg] },
    (e.stream.sendRaw msg).2)

def setRaw (e : Endpoint B) : Endpoint B := { e with stream := e.stream.setRaw }

end Endpoint

inductive ClientPhase
  | login
  | forward
  | over
  deriving DecidableEq, Repr

structure Tunnel (B : SecretBox) where
  conn : Connection
  server : Endpoint B
  client : Endpoint B
  phase : ClientPhase := .login
  buffer : Bytes := []
  serverOver : Bool := false

inductive TunnelEvent (w : Wire)
  | serverArrive (n : Nat)
  | clientArrive (n : Nat)
  | serverNext (env : Env)
  | server (env : Env) (ev : Event)
  | serverForward (n : Nat)
  | targetWrite (bytes : Bytes)
  | clientNext (login : Login w) (retry : Bool)
  | uiLogin (login : Login w)
  | uiMessage (msg : Bytes)
  | localWrite (bytes : Bytes)
  | clientForward (n : Nat)
  | clientStop

namespace Tunnel

def clientSend (msg : Bytes) (t : Tunnel B) : Tunnel B :=
  { t with
    client := (t.client.send msg).1
    server := { t.server with net := t.server.net ++ (t.client.send msg).2 } }

def serverSend (msg : Bytes) (t : Tunnel B) : Tunnel B :=
  { t with
    server := (t.server.send msg).1
    client := { t.client with net := t.client.net ++ (t.server.send msg).2 } }

/-- The client writes bytes outside of frames. -/
def clientSendBytes (bytes : Bytes) (t : Tunnel B) : Tunnel B :=
  { t with server := { t.server with net := t.server.net ++ t.client.stream.sendBytes bytes } }

def serverSendBytes (bytes : Bytes) (t : Tunnel B) : Tunnel B :=
  { t with client := { t.client with net := t.client.net ++ t.server.stream.sendBytes bytes } }

/-- The message loop was left with the socket of the target at hand. -/
def forwards (t : Tunnel B) : Bool := t.conn.ended && t.conn.portForwardSocket.isSome

def serverSendAll (w : Wire) (ms : List Outgoing) (t : Tunnel B) : Tunnel B :=
  ms.foldl (fun t m => t.serverSend (w.write m)) t

/-- One turn of the message loop: what the handler sent goes out as frames, and
`try_port_forward_loop` makes the stream raw first of all. -/
def serverTurn (w : Wire) (b : Build) (env : Env) (ev : Event) (t : Tunnel B) : Tunnel B :=
  let conn := t.conn.step b (env, ev)
  let t' := { t with conn }.serverSendAll w (Connection.sentSince t.conn conn)
  if t'.forwards then { t' with server := t'.server.setRaw } else t'

/-- The event of a message of the peer. -/
def peerEvent (w : Wire) (bytes : Bytes) : Event :=
  match w.parse bytes with
  | some m => .message m
  | none => .unparsable

/-- The `stream.next()` branches of the two loops of the server. -/
def serverNext (w : Wire) (b : Build) (env : Env) (t : Tunnel B) : Tunnel B :=
  if t.conn.ended then
    if t.forwards && !t.serverOver then
      match t.server.stream.next with
      | (stream, none) => { t with server := { t.server with stream } }
      | (stream, some (.error _)) => { t with server := { t.server with stream }, serverOver := true }
      | (stream, some (.ok bytes)) =>
        { t with server := { t.server with stream, delivered := t.server.delivered ++ bytes } }
    else t
  else
    match t.server.stream.next with
    | (stream, none) => { t with server := { t.server with stream } }
    | (stream, some (.error _)) =>
      { t with server := { t.server with stream } }.serverTurn w b env .streamError
    | (stream, some (.ok bytes)) =>
      { t with server := { t.server with stream, received := t.server.received ++ [bytes] } }.serverTurn
        w b env (peerEvent w bytes)

/-- The events that end `try_port_forward_loop`. -/
def endsForward : Event → Bool
  | .cm .close => true
  | .cm (.cmErr _) => true
  | .webConsoleClose => true
  | .inactivity => true
  | .streamError => true
  | .streamEnd => true
  | _ => false

def fromStream : Event → Bool
  | .message _ => true
  | .unparsable => true
  | _ => false

/-- The other branches of the two loops of the server. -/
def serverEvent (w : Wire) (b : Build) (env : Env) (ev : Event) (t : Tunnel B) : Tunnel B :=
  if t.conn.ended then
    if t.forwards && endsForward ev then { t with serverOver := true } else t
  else if fromStream ev then t
  else t.serverTurn w b env ev

/-- `forward.next()` of the server: a part of what the target wrote. -/
def serverForward (n : Nat) (t : Tunnel B) : Tunnel B :=
  if t.forwards && !t.serverOver then
    { t with server := { t.server with unread := t.server.unread.drop n } }.serverSendBytes
      (t.server.unread.take n)
  else t

/-- The end of `connect_and_login`: the stream is made raw and the buffer goes out. -/
def enterForward (t : Tunnel B) : Tunnel B :=
  { { t with client := t.client.setRaw }.clientSendBytes t.buffer with
    phase := .forward
    buffer := [] }

/-- A message read by `connect_and_login`. The login error dialog decides on `retry`. -/
def clientMessage (w : Wire) (login : Login w) (retry : Bool) (bytes : Bytes) (t : Tunnel B) :
    Tunnel B :=
  match w.parseClient bytes with
  | none => { t with phase := .over }
  | some .hash => t.clientSend login.bytes
  | some .loginError => if retry then t else { t with phase := .over }
  | some .loginPeerInfo => t.enterForward
  | some (.testDelay td) => if td.fromClient then t else t.clientSend (w.write (.testDelay td))
  | some .other => t

/-- The `stream.next()` branches of `connect_and_login` and `run_forward`. -/
def clientNext (w : Wire) (login : Login w) (retry : Bool) (t : Tunnel B) : Tunnel B :=
  match t.phase with
  | .login =>
    match t.client.stream.next with
    | (stream, none) => { t with client := { t.client with stream } }
    | (stream, some (.error _)) => { t with client := { t.client with stream }, phase := .over }
    | (stream, some (.ok bytes)) =>
      { t with client := { t.client with stream, received := t.client.received ++ [bytes] } }.clientMessage
        w login retry bytes
  | .forward =>
    match t.client.stream.next with
    | (stream, none) => { t with client := { t.client with stream } }
    | (stream, some (.error _)) => { t with client := { t.client with stream }, phase := .over }
    | (stream, some (.ok bytes)) =>
      { t with client := { t.client with stream, delivered := t.client.delivered ++ bytes } }
  | .over => t

/-- `forward.next()` of the client: a part of what the local application wrote. -/
def clientForward (n : Nat) (t : Tunnel B) : Tunnel B :=
  match t.phase with
  | .login =>
    { t with
      client := { t.client with unread := t.client.unread.drop n }
      buffer := t.buffer ++ t.client.unread.take n }
  | .forward =>
    { t with client := { t.client with unread := t.client.unread.drop n } }.clientSendBytes
      (t.client.unread.take n)
  | .over => t

def step (w : Wire) (b : Build) (t : Tunnel B) : TunnelEvent w → Tunnel B
  | .serverArrive n => { t with server := t.server.arrive n }
  | .clientArrive n => { t with client := t.client.arrive n }
  | .serverNext env => t.serverNext w b env
  | .server env ev => t.serverEvent w b env ev
  | .serverForward n => t.serverForward n
  | .targetWrite bytes =>
    if t.conn.portForwardSocket.isSome then { t with server := t.server.write bytes } else t
  | .clientNext login retry => t.clientNext w login retry
  | .uiLogin login => if t.phase = .login then t.clientSend login.bytes else t
  | .uiMessage msg => if t.phase = .login then t.clientSend msg else t
  | .localWrite bytes => { t with client := t.client.write bytes }
  | .clientForward n => t.clientForward n
  | .clientStop => { t with phase := .over }

/-- What `start` sends before the loop: the hash, and the permissions that are missing. -/
def openingMessages (b : Build) (s : Connection) : List Outgoing :=
  .hash ::
    ((if b.os = .android then [.permissionInfo .keyboard s.perms.keyboard]
      else if s.perms.keyboard then [] else [.permissionInfo .keyboard false]) ++
    [(s.perms.clipboard, PermissionOption.clipboard), (s.perms.audio, .audio),
      (s.perms.file, .fileTransfer), (s.perms.restart, .remoteRestart),
      (s.perms.recording, .recordSession), (s.perms.blockInput, .blockInput),
      (s.perms.privacyMode, .privacyMode)].filterMap fun p =>
        if p.1 then none else some (.permissionInfo p.2 false))

/-- Both ends as the message loop of the server begins. The key exchange is over. -/
def start (w : Wire) (b : Build) (conn : Connection) (key : Option B.Key) : Tunnel B :=
  let stream : FramedStream B := { encrypt := key.map fun k => { key := k } }
  ({ conn, server := { stream }, client := { stream } } : Tunnel B).serverSendAll w
    (openingMessages b conn)

end Tunnel

end RustDesk
