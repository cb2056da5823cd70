import RustDesk.FramedStream
import RustDesk.ConnectionState
import RustDesk.Base64

/-!
# The handshake of a direct connection

The server signs a fresh box key together with its id, the client checks both against the
record that the rendezvous server has signed, and answers with a session key in a box.
Whoever cannot go on continues in clear text and tells the other side by an empty message
or by an empty public key.

`secure_connection` and `create_tcp_connection` are cut at the places where they wait. The
two queues lie between them; only an adversary replaces what is in a queue.
-/

namespace RustDesk.SecureConnection

/-- `sodiumoxide::crypto::sign`. A signed message is the signature with the message behind
it. Nothing verifies but what was signed with the key. -/
structure Signatures where
  publicKey : Vector UInt8 64 → Vector UInt8 32
  sign : Bytes → Vector UInt8 64 → Bytes
  verify : Bytes → Vector UInt8 32 → Option Bytes
  verify_sign : ∀ m sk, verify (sign m sk) (publicKey sk) = some m
  drop_sign : ∀ m sk, (sign m sk).drop 64 = m
  signed_of_verify : ∀ {s pk m}, verify s pk = some m → ∃ sk, publicKey sk = pk ∧ s = sign m sk

/-- `sodiumoxide::crypto::box_` -/
structure Boxes where
  publicKey : Vector UInt8 32 → Vector UInt8 32
  sealBox : Bytes → Vector UInt8 24 → Vector UInt8 32 → Vector UInt8 32 → Bytes
  openBox : Bytes → Vector UInt8 24 → Vector UInt8 32 → Vector UInt8 32 → Option Bytes
  openBox_sealBox : ∀ m nonce ours theirs,
    openBox (sealBox m nonce (publicKey theirs) ours) nonce (publicKey ours) theirs = some m

/-- The unions of a message that the handshake looks at. -/
inductive Union
  | signedId (id : Bytes)
  | publicKey (asymmetricValue symmetricValue : Bytes)
  | other
  deriving DecidableEq, Repr

/-- The generated code for `Message` and `IdPk`. -/
structure Protobuf where
  writeMessage : Option Union → Bytes
  parseMessage : Bytes → Option (Option Union)
  parse_writeMessage : ∀ u, u ≠ some .other → parseMessage (writeMessage u) = some u
  writeIdPk : String → Bytes → Bytes
  parseIdPk : Bytes → Except String (String × Bytes)
  parse_writeIdPk : ∀ id pk, parseIdPk (writeIdPk id pk) = .ok (id, pk)

/-- The bytes of a `secretbox::Key`. -/
structure KeyBytes (B : SecretBox) where
  toBytes : B.Key → Vector UInt8 32
  ofBytes : Vector UInt8 32 → B.Key
  ofBytes_toBytes : ∀ key, ofBytes (toBytes key) = key

structure Primitives (B : SecretBox) where
  sig : Signatures
  box : Boxes
  proto : Protobuf
  keys : KeyBytes B

/-- `copy_from_slice` into an array of the length that was checked. -/
def toArray (n : Nat) (bytes : Bytes) : Option (Vector UInt8 n) :=
  if h : bytes.length = n then some ⟨bytes.toArray, by simpa using h⟩ else none

theorem toArray_eq_some {n : Nat} {bytes : Bytes} {v : Vector UInt8 n} :
    toArray n bytes = some v ↔ bytes = v.toList := by
  unfold toArray
  constructor
  · intro h
    split at h
    · obtain rfl := Option.some.inj h
      rfl
    · cases h
  · rintro rfl
    rw [dif_pos v.length_toList]
    rfl

theorem toArray_toList {n : Nat} (v : Vector UInt8 n) : toArray n v.toList = some v :=
  toArray_eq_some.mpr rfl

def getPk (pk : Bytes) : Option (Vector UInt8 32) := toArray 32 pk

def rsPubKey : String := "OeVuKk5nlHiXp+APNn0Y3pC1Iwpwn44JGqrQCsWqmBw="

def getRsPk (strBase64 : String) : Option (Vector UInt8 32) :=
  match Base64.decode (strBytes strBase64) with
  | some pk => getPk pk
  | none => none

def zeroNonce : Vector UInt8 24 := Vector.replicate 24 0

variable {B : SecretBox} (e : Primitives B)

def decodeIdPk (signed : Bytes) (key : Vector UInt8 32) :
    Except String (String × Vector UInt8 32) :=
  match e.sig.verify signed key with
  | none => .error "Signature mismatch"
  | some m =>
    match e.proto.parseIdPk m with
    | .error err => .error err
    | .ok (id, pk) =>
      match getPk pk with
      | some pk => .ok (id, pk)
      | none => .error "Wrong their public length"

/-- The arguments of `secure_connection`, and the keys it generates. -/
structure Client (B : SecretBox) where
  peerId : String
  signedIdPk : Bytes
  key : String
  boxSk : Vector UInt8 32
  sessionKey : B.Key

/-- The configuration of the server, and the key it generates. -/
structure Server where
  secure : Bool
  id : String
  sk : Bytes
  pk : Bytes
  boxSk : Vector UInt8 32

/-! ### The client -/

namespace Client

/-- `rs_pk` -/
def rsPk (c : Client B) : Option (Vector UInt8 32) :=
  getRsPk (if c.key.isEmpty then rsPubKey else c.key)

/-- `sign_pk`, whose bytes are `option_pk`. -/
def signPk (c : Client B) : Option (Vector UInt8 32) :=
  if c.signedIdPk.isEmpty then none
  else
    match c.rsPk with
    | none => none
    | some rsPk =>
      match decodeIdPk e c.signedIdPk rsPk with
      | .error _ => none
      | .ok (id, pk) => if id = c.peerId then some pk else none

/-- `create_symmetric_key_msg` -/
def createSymmetricKeyMsg (c : Client B) (theirPk : Vector UInt8 32) : Bytes × Bytes × B.Key :=
  ((e.box.publicKey c.boxSk).toList,
    e.box.sealBox (e.keys.toBytes c.sessionKey).toList zeroNonce theirPk c.boxSk, c.sessionKey)

/-- The answer to the first message, and the key that is set once it is sent. -/
def answer (c : Client B) (signPk : Vector UInt8 32) (bytes : Bytes) :
    Option Union × Option B.Key :=
  match e.proto.parseMessage bytes with
  | some (some (.signedId id)) =>
    match decodeIdPk e id signPk with
    | .ok (id, theirPk) =>
      if id = c.peerId then
        let (asymmetricValue, symmetricValue, key) := c.createSymmetricKeyMsg e theirPk
        (some (.publicKey asymmetricValue symmetricValue), some key)
      else (none, none)
    | .error _ => (some (.publicKey [] []), none)
  | some _ => (none, none)
  | none => (none, none)

end Client

/-! ### The server -/

/-- `Encrypt::decode` -/
def decodeKey (symmetricData theirPk : Bytes) (ourSk : Vector UInt8 32) : Except String B.Key :=
  match toArray 32 theirPk with
  | none => .error ("Handshake failed: pk length " ++ toString theirPk.length)
  | some pk =>
    match e.box.openBox symmetricData zeroNonce pk ourSk with
    | none => .error "Handshake failed: box decryption failure"
    | some symmetricKey =>
      match toArray 32 symmetricKey with
      | none => .error "Handshake failed: invalid secret key length from peer"
      | some key => .ok (e.keys.ofBytes key)

namespace Server

/-- The secret key, if the handshake is made. -/
def signingKey (v : Server) : Option (Vector UInt8 64) :=
  if v.secure = true ∧ v.pk.length = 32 then toArray 64 v.sk else none

/-- `msg_out` -/
def greeting (v : Server) (sk : Vector UInt8 64) : Option Union :=
  some (.signedId
    (e.sig.sign (e.proto.writeIdPk v.id (e.box.publicKey v.boxSk).toList) sk))

/-- What the first message leads to: the key, and whether the public key is to be sent to the
rendezvous server again. -/
def receive (v : Server) (bytes : Bytes) : Except String (Option B.Key × Bool) :=
  match e.proto.parseMessage bytes with
  | some (some (.publicKey asymmetricValue symmetricValue)) =>
    if asymmetricValue.length = 32 then
      match decodeKey e symmetricValue asymmetricValue v.boxSk with
      | .ok key => .ok (some key, false)
      | .error err => .error err
    else if asymmetricValue.isEmpty then .ok (none, true)
    else .error "Handshake failed: invalid public sign key length from peer"
  | some _ => .ok (none, false)
  | none => .error "Handshake failed: invalid message format"

/-- `secure`, and a key pair of the right lengths. -/
structure Ready (v : Server) : Prop where
  secure : v.secure = true
  pk : v.pk.length = 32
  sk : v.sk.length = 64

end Server

/-! ### Both over a link -/

inductive ClientStage (B : SecretBox)
  | start
  | waiting (signPk : Vector UInt8 32)
  | done (encrypt : Option (Encrypt B)) (optionPk : Option Bytes)
  | failed (error : String)

inductive ServerStage (B : SecretBox)
  | start
  | waiting
  | done (encrypt : Option (Encrypt B))
  | failed (error : String)

def ClientStage.ended : ClientStage B → Bool
  | .start => false
  | .waiting _ => false
  | .done _ _ => true
  | .failed _ => true

def ServerStage.ended : ServerStage B → Bool
  | .start => false
  | .waiting => false
  | .done _ => true
  | .failed _ => true

/-- The parties with what lies between them, oldest first. `heard` and `said` are what the
client took from its stream and put into it. -/
structure State (B : SecretBox) where
  client : ClientStage B := .start
  server : ServerStage B := .start
  toClient : List Bytes := []
  toServer : List Bytes := []
  heard : List Bytes := []
  said : List Bytes := []
  keyConfirmed : Bool := true

/-- What `send` comes to; the message can have left although it failed. -/
inductive Sent
  | ok
  | failed (error : String) (left : Bool)
  deriving DecidableEq, Repr

def Sent.put (sent : Sent) (msg : Bytes) (queue : List Bytes) : List Bytes :=
  match sent with
  | .ok => queue ++ [msg]
  | .failed _ true => queue ++ [msg]
  | .failed _ false => queue

inductive Event
  | clientStart (sent : Sent)
  | clientNext (sent : Sent)
  | clientInterrupted (error : String)
  | serverStart (sent : Sent)
  | serverNext
  | serverInterrupted (error : String)
  | substitute (toClient toServer : List Bytes)
  deriving DecidableEq, Repr

/-- `set_key` on a stream that had none. -/
def setKey (key : Option B.Key) : Option (Encrypt B) := key.map fun key => { key := key }

namespace State

def clientSend (s : State B) (msg : Bytes) (sent : Sent) (stage : ClientStage B) : State B :=
  { s with
    toServer := sent.put msg s.toServer
    said := s.said ++ [msg]
    client := match sent with
      | .ok => stage
      | .failed error _ => .failed error }

def serverSend (s : State B) (msg : Bytes) (sent : Sent) : State B :=
  { s with
    toClient := sent.put msg s.toClient
    server := match sent with
      | .ok => .waiting
      | .failed error _ => .failed error }

end State

def step (c : Client B) (v : Server) (s : State B) : Event → Option (State B)
  | .clientStart sent =>
    match s.client with
    | .start =>
      match c.signPk e with
      | some signPk => some { s with client := .waiting signPk }
      | none => some (s.clientSend (e.proto.writeMessage none) sent (.done none none))
    | _ => none
  | .clientNext sent =>
    match s.client, s.toClient with
    | .waiting signPk, bytes :: rest =>
      let (msgOut, key) := c.answer e signPk bytes
      some ({ s with toClient := rest, heard := s.heard ++ [bytes] }.clientSend
        (e.proto.writeMessage msgOut) sent (.done (setKey key) (some signPk.toList)))
    | _, _ => none
  | .clientInterrupted error =>
    match s.client with
    | .waiting _ => some { s with client := .failed error }
    | _ => none
  | .serverStart sent =>
    match s.server with
    | .start =>
      match v.signingKey with
      | some sk => some (s.serverSend (e.proto.writeMessage (v.greeting e sk)) sent)
      | none => some { s with server := .done none }
    | _ => none
  | .serverNext =>
    match s.server, s.toServer with
    | .waiting, bytes :: rest =>
      match v.receive e bytes with
      | .ok (key, update) =>
        some { s with
          toServer := rest
          server := .done (setKey key)
          keyConfirmed := s.keyConfirmed && !update }
      | .error error => some { s with toServer := rest, server := .failed error }
    | _, _ => none
  | .serverInterrupted error =>
    match s.server with
    | .waiting => some { s with server := .failed error }
    | _ => none
  | .substitute toClient toServer => some { s with toClient, toServer }

def run (c : Client B) (v : Server) (s : State B) (events : List Event) : Option (State B) :=
  events.foldlM (step e c v) s

/-! ### What is read and answered -/

variable {e} {c : Client B} {v : Server} {s s' : State B} {i : Event}

/-- A record for `id` with the key `pk`, signed by the key of `signer`. -/
def IdRecord (e : Primitives B) (signed : Bytes) (signer : Vector UInt8 32) (id : String)
    (pk : Vector UInt8 32) : Prop :=
  ∃ sk m, e.sig.publicKey sk = signer ∧ signed = e.sig.sign m sk ∧
    e.proto.parseIdPk m = .ok (id, pk.toList)

theorem decodeIdPk_iff {signed : Bytes} {key pk : Vector UInt8 32} {id : String} :
    decodeIdPk e signed key = .ok (id, pk) ↔ IdRecord e signed key id pk := by
  unfold decodeIdPk
  constructor
  · intro h
    split at h
    · cases h
    · rename_i m hverify
      obtain ⟨sk, hsk, hsigned⟩ := e.sig.signed_of_verify hverify
      refine ⟨sk, m, hsk, hsigned, ?_⟩
      split at h
      · cases h
      · rename_i id' pk' hparse
        split at h
        · rename_i pk'' hpk
          obtain ⟨rfl, rfl⟩ := Prod.mk.inj (Except.ok.inj h)
          rw [hparse, toArray_eq_some.mp hpk]
        · cases h
  · rintro ⟨sk, m, rfl, rfl, hparse⟩
    have hpk : getPk pk.toList = some pk := toArray_toList pk
    simp only [e.sig.verify_sign, hparse, hpk]

/-- What was signed is determined by the signed message. -/
theorem IdRecord.signed {m : Bytes} {sk : Vector UInt8 64} {signer pk : Vector UInt8 32}
    {id : String} (h : IdRecord e (e.sig.sign m sk) signer id pk) :
    e.proto.parseIdPk m = .ok (id, pk.toList) := by
  obtain ⟨sk', m', -, hsign, hparse⟩ := h
  have hm := congrArg (List.drop 64) hsign
  rw [e.sig.drop_sign, e.sig.drop_sign] at hm
  rw [hm, hparse]

theorem Server.Ready.signingKey (hv : v.Ready) : ∃ sk, v.signingKey = some sk := by
  have hsk : toArray 64 v.sk = some ⟨v.sk.toArray, by simpa using hv.sk⟩ := dif_pos hv.sk
  exact ⟨_, by rw [Server.signingKey, if_pos ⟨hv.secure, hv.pk⟩, hsk]⟩

theorem Sent.mem_put {sent : Sent} {m msg : Bytes} {queue : List Bytes}
    (h : m ∈ sent.put msg queue) : m ∈ queue ∨ m = msg := by
  have happend : m ∈ queue ++ [msg] → m ∈ queue ∨ m = msg := by simp
  match sent, h with
  | .ok, h => exact happend h
  | .failed _ true, h => exact happend h
  | .failed _ false, h => exact .inl h

theorem signPk_eq_some {signPk : Vector UInt8 32} (h : c.signPk e = some signPk) :
    ∃ rsPk, c.rsPk = some rsPk ∧ IdRecord e c.signedIdPk rsPk c.peerId signPk := by
  unfold Client.signPk at h
  split at h
  · cases h
  · split at h
    · cases h
    · rename_i rsPk hrs
      split at h
      · cases h
      · rename_i id pk hdecode
        split at h
        · rename_i hid
          obtain rfl := Option.some.inj h
          exact ⟨rsPk, hrs, hid ▸ decodeIdPk_iff.mp hdecode⟩
        · cases h

theorem receive_none : v.receive e (e.proto.writeMessage none) = .ok (none, false) := by
  unfold Server.receive
  rw [e.proto.parse_writeMessage none (by simp)]

theorem receive_empty_key :
    v.receive e (e.proto.writeMessage (some (.publicKey [] []))) = .ok (none, true) := by
  unfold Server.receive
  rw [e.proto.parse_writeMessage _ (by simp)]
  rfl

theorem decodeKey_sealed (key : B.Key) (ours theirs : Vector UInt8 32) :
    decodeKey e (e.box.sealBox (e.keys.toBytes key).toList zeroNonce (e.box.publicKey theirs) ours)
      (e.box.publicKey ours).toList theirs = .ok key := by
  unfold decodeKey
  simp only [toArray_toList, e.box.openBox_sealBox, e.keys.ofBytes_toBytes]

theorem receive_key (key : B.Key) (ours : Vector UInt8 32) :
    v.receive e (e.proto.writeMessage (some (.publicKey (e.box.publicKey ours).toList
      (e.box.sealBox (e.keys.toBytes key).toList zeroNonce (e.box.publicKey v.boxSk) ours)))) =
      .ok (some key, false) := by
  unfold Server.receive
  rw [e.proto.parse_writeMessage _ (by simp)]
  simp only [Vector.length_toList, if_true, decodeKey_sealed]

/-- The server takes from the answer to its greeting the key that the client sets. -/
theorem receive_answer (c : Client B) (v : Server) (sk : Vector UInt8 64)
    (signPk : Vector UInt8 32) :
    let r := c.answer e signPk (e.proto.writeMessage (v.greeting e sk))
    ∃ update, v.receive e (e.proto.writeMessage r.1) = .ok (r.2, update) := by
  have hparse := e.proto.parse_writeMessage (v.greeting e sk) (by simp [Server.greeting])
  unfold Client.answer
  rw [hparse]
  simp only [Server.greeting]
  split
  · rename_i id theirPk hdecode
    have hsigned := (decodeIdPk_iff.mp hdecode).signed
    rw [e.proto.parse_writeIdPk] at hsigned
    have hpk : e.box.publicKey v.boxSk = theirPk :=
      Vector.toList_inj.mp (Prod.mk.inj (Except.ok.inj hsigned)).2
    split
    · simp only [Client.createSymmetricKeyMsg]
      rw [← hpk]
      exact ⟨false, receive_key _ _⟩
    · exact ⟨false, receive_none⟩
  · exact ⟨true, receive_empty_key⟩

/-! ### One step -/

/-- What a step can do. -/
inductive Step (e : Primitives B) (c : Client B) (v : Server) (s : State B) :
    Event → State B → Prop
  | clientWaits (sent : Sent) (signPk : Vector UInt8 32) (hc : s.client = .start)
      (hpk : c.signPk e = some signPk) :
      Step e c v s (.clientStart sent) { s with client := .waiting signPk }
  | clientGivesUp (sent : Sent) (hc : s.client = .start) :
      Step e c v s (.clientStart sent)
        (s.clientSend (e.proto.writeMessage none) sent (.done none none))
  | clientAnswers (sent : Sent) (signPk : Vector UInt8 32) (bytes : Bytes) (rest : List Bytes)
      (hc : s.client = .waiting signPk) (hq : s.toClient = bytes :: rest) :
      Step e c v s (.clientNext sent)
        ({ s with toClient := rest, heard := s.heard ++ [bytes] }.clientSend
          (e.proto.writeMessage (c.answer e signPk bytes).1) sent
          (.done (setKey (c.answer e signPk bytes).2) (some signPk.toList)))
  | clientInterrupted (error : String) (hc : s.client.ended = false) :
      Step e c v s (.clientInterrupted error) { s with client := .failed error }
  | serverGreets (sent : Sent) (sk : Vector UInt8 64) (hs : s.server = .start)
      (hk : v.signingKey = some sk) :
      Step e c v s (.serverStart sent)
        (s.serverSend (e.proto.writeMessage (v.greeting e sk)) sent)
  | serverSkips (sent : Sent) (hs : s.server = .start) (hk : v.signingKey = none) :
      Step e c v s (.serverStart sent) { s with server := .done none }
  | serverReceives (bytes : Bytes) (rest : List Bytes) (key : Option B.Key) (update : Bool)
      (hs : s.server = .waiting) (hq : s.toServer = bytes :: rest)
      (hr : v.receive e bytes = .ok (key, update)) :
      Step e c v s .serverNext { s with
        toServer := rest
        server := .done (setKey key)
        keyConfirmed := s.keyConfirmed && !update }
  | serverRefuses (bytes : Bytes) (rest : List Bytes) (error : String)
      (hs : s.server = .waiting) (hq : s.toServer = bytes :: rest) :
      Step e c v s .serverNext { s with toServer := rest, server := .failed error }
  | serverInterrupted (error : String) (hs : s.server = .waiting) :
      Step e c v s (.serverInterrupted error) { s with server := .failed error }
  | substitute (toClient toServer : List Bytes) :
      Step e c v s (.substitute toClient toServer) { s with toClient, toServer }

theorem step_cases (h : step e c v s i = some s') : Step e c v s i s' := by
  cases i with
  | clientStart sent =>
    simp only [step] at h
    split at h
    · rename_i hc
      split at h
      · rename_i signPk hpk
        exact Option.some.inj h ▸ .clientWaits sent signPk hc hpk
      · exact Option.some.inj h ▸ .clientGivesUp sent hc
    · cases h
  | clientNext sent =>
    simp only [step] at h
    split at h
    · rename_i signPk bytes rest hc hq
      exact Option.some.inj h ▸ .clientAnswers sent signPk bytes rest hc hq
    · cases h
  | clientInterrupted error =>
    simp only [step] at h
    split at h
    · rename_i signPk hc
      exact Option.some.inj h ▸ .clientInterrupted error (by rw [hc]; rfl)
    · cases h
  | serverStart sent =>
    simp only [step] at h
    split at h
    · rename_i hs
      split at h
      · rename_i sk hk
        exact Option.some.inj h ▸ .serverGreets sent sk hs hk
      · rename_i hk
        exact Option.some.inj h ▸ .serverSkips sent hs hk
    · cases h
  | serverNext =>
    simp only [step] at h
    split at h
    · rename_i bytes rest hs hq
      split at h
      · rename_i key update hr
        exact Option.some.inj h ▸ .serverReceives bytes rest key update hs hq hr
      · rename_i error hr
        exact Option.some.inj h ▸ .serverRefuses bytes rest error hs hq
    · cases h
  | serverInterrupted error =>
    simp only [step] at h
    split at h
    · rename_i hs
      exact Option.some.inj h ▸ .serverInterrupted error hs
    · cases h
  | substitute toClient toServer => exact Option.some.inj h ▸ .substitute toClient toServer

/-- What one step keeps holds after a run. -/
theorem run_keeps {P : State B → Prop} {ok : Event → Prop} {events : List Event}
    (hstep : ∀ s i s', ok i → Step e c v s i s' → P s → P s') (hok : ∀ i ∈ events, ok i)
    (hs : P s) (h : run e c v s events = some s') : P s' := by
  induction events generalizing s with
  | nil => exact Option.some.inj h ▸ hs
  | cons i events ih =>
    rw [run, List.foldlM_cons, Option.bind_eq_bind, Option.bind_eq_some_iff] at h
    obtain ⟨s₁, h₁, hrest⟩ := h
    refine ih (fun j hj => hok j (List.mem_cons_of_mem i hj)) ?_ hrest
    exact hstep s i s₁ (hok i List.mem_cons_self) (step_cases h₁) hs

/-! ### Over a reliable link -/

/-- The link does not change what it carries. -/
def Event.Reliable : Event → Prop
  | .substitute _ _ => False
  | _ => True

/-- Nothing fails. -/
def Event.Smooth : Event → Prop
  | .clientStart .ok | .clientNext .ok | .serverStart .ok | .serverNext => True
  | _ => False

namespace State

def Failed (s : State B) : Prop := (∃ err, s.client = .failed err) ∨ ∃ err, s.server = .failed err

def Ended (s : State B) : Prop := s.client.ended = true ∧ s.server.ended = true

/-- Both streams have the same fresh key. -/
def Keyed (s : State B) : Prop :=
  ∃ key pk, s.client = .done (some { key := key }) pk ∧ s.server = .done (some { key := key })

def Unkeyed (s : State B) : Prop := ∃ pk, s.client = .done none pk ∧ s.server = .done none

end State

/-- Where the one party can be, given the other and what lies between them. -/
structure Inv (e : Primitives B) (c : Client B) (v : Server) (s : State B) : Prop where
  greeting : ∀ m ∈ s.toClient, ∃ sk, m = e.proto.writeMessage (v.greeting e sk)
  unread : s.server = .waiting → s.client.ended = false → s.toClient ≠ []
  early : s.client.ended = false → s.toServer = [] ∧ ∀ enc, s.server ≠ .done enc
  answered : ∀ enc pk, s.client = .done enc pk → ∃ key, enc = setKey key ∧
    ((s.server.ended = false ∧ ∃ m update, s.toServer = [m] ∧
        v.receive e m = .ok (key, update)) ∨
      s.server = .done (setKey key) ∨ ∃ err, s.server = .failed err)

theorem Inv.init (confirmed : Bool) : Inv e c v { keyConfirmed := confirmed } where
  greeting m hm := absurd hm List.not_mem_nil
  unread h := by cases h
  early _ := ⟨rfl, fun enc h => by cases h⟩
  answered enc pk h := by cases h

/-- The client ends with a message that conveys the key it sets. -/
theorem Inv.clientSend {rest heard : List Bytes} {key : Option B.Key} {pk : Option Bytes}
    {m : Bytes} {update : Bool} (h : Inv e c v s) (hc : s.client.ended = false)
    (hrest : ∀ m ∈ rest, m ∈ s.toClient) (hm : v.receive e m = .ok (key, update)) (sent : Sent) :
    Inv e c v ({ s with toClient := rest, heard := heard }.clientSend m sent
      (.done (setKey key) pk)) := by
  obtain ⟨hq, hserver⟩ := h.early hc
  refine ⟨fun m hm => h.greeting m (hrest m hm), ?_, ?_, ?_⟩
  · intro _ hopen
    cases sent with
    | ok => cases hopen
    | failed err left => cases hopen
  · intro hopen
    cases sent with
    | ok => cases hopen
    | failed err left => cases hopen
  · intro enc pk' hdone
    cases sent with
    | failed err left => cases hdone
    | ok =>
      obtain ⟨rfl, rfl⟩ := ClientStage.done.inj hdone
      have htoServer : s.toServer ++ [m] = [m] := by rw [hq, List.nil_append]
      cases hs : s.server with
      | start => exact ⟨key, rfl, .inl ⟨rfl, m, update, htoServer, hm⟩⟩
      | waiting => exact ⟨key, rfl, .inl ⟨rfl, m, update, htoServer, hm⟩⟩
      | done enc => exact absurd hs (hserver enc)
      | failed err => exact ⟨key, rfl, .inr (.inr ⟨err, rfl⟩)⟩

/-- The server greets the client. -/
theorem Inv.serverSend (h : Inv e c v s) (hs : s.server = .start) (sk : Vector UInt8 64)
    (sent : Sent) :
    Inv e c v (s.serverSend (e.proto.writeMessage (v.greeting e sk)) sent) := by
  refine ⟨?_, ?_, ?_, ?_⟩
  · intro m hm
    rcases Sent.mem_put hm with hm | rfl
    · exact h.greeting m hm
    · exact ⟨sk, rfl⟩
  · intro hwaiting _
    cases sent with
    | ok => exact List.append_ne_nil_of_right_ne_nil _ (List.cons_ne_nil _ _)
    | failed err left => cases hwaiting
  · intro hopen
    refine ⟨(h.early hopen).1, fun enc hdone => ?_⟩
    cases sent with
    | ok => cases hdone
    | failed err left => cases hdone
  · intro enc pk hdone
    obtain ⟨key, henc, ⟨-, hm⟩ | hd | ⟨err, hf⟩⟩ := h.answered enc pk hdone
    · cases sent with
      | ok => exact ⟨key, henc, .inl ⟨rfl, hm⟩⟩
      | failed err left => exact ⟨key, henc, .inr (.inr ⟨err, rfl⟩)⟩
    · rw [hs] at hd
      cases hd
    · rw [hs] at hf
      cases hf

theorem Inv.serverFails {rest : List Bytes} (h : Inv e c v s)
    (hrest : s.client.ended = false → rest = []) (error : String) :
    Inv e c v { s with toServer := rest, server := .failed error } := by
  refine ⟨h.greeting, fun hw => (by cases hw),
    fun hopen => ⟨hrest hopen, fun enc hd => (by cases hd)⟩, ?_⟩
  intro enc pk hdone
  obtain ⟨key, henc, -⟩ := h.answered enc pk hdone
  exact ⟨key, henc, .inr (.inr ⟨error, rfl⟩)⟩

theorem inv_step (hv : v.Ready) (hi : i.Reliable) (hstep : Step e c v s i s')
    (h : Inv e c v s) : Inv e c v s' := by
  cases hstep with
  | clientWaits sent signPk hc hpk =>
    have hopen : s.client.ended = false := by rw [hc]; rfl
    exact ⟨h.greeting, fun hs _ => h.unread hs hopen, fun _ => h.early hopen,
      fun enc pk hdone => by cases hdone⟩
  | clientGivesUp sent hc =>
    have hopen : s.client.ended = false := by rw [hc]; rfl
    exact h.clientSend hopen (fun m hm => hm) receive_none sent
  | clientAnswers sent signPk bytes rest hc hq =>
    have hopen : s.client.ended = false := by rw [hc]; rfl
    obtain ⟨sk, rfl⟩ := h.greeting bytes (hq ▸ List.mem_cons_self)
    obtain ⟨update, hr⟩ := receive_answer (e := e) c v sk signPk
    exact h.clientSend hopen (fun m hm => hq ▸ List.mem_cons_of_mem _ hm) hr sent
  | clientInterrupted error hc =>
    exact ⟨h.greeting, fun _ hopen => (by cases hopen), fun hopen => (by cases hopen),
      fun enc pk hdone => (by cases hdone)⟩
  | serverGreets sent sk hs hk => exact h.serverSend hs sk sent
  | serverSkips sent hs hk =>
    obtain ⟨sk, hsk⟩ := hv.signingKey
    rw [hsk] at hk
    cases hk
  | serverReceives bytes rest key update hs hq hr =>
    refine ⟨h.greeting, fun hw => (by cases hw), ?_, ?_⟩
    · intro hopen
      rw [(h.early hopen).1] at hq
      cases hq
    · intro enc pk hdone
      obtain ⟨key', henc, ⟨-, m, update', hq', hr'⟩ | hd | ⟨err, hf⟩⟩ := h.answered enc pk hdone
      · rw [hq] at hq'
        obtain ⟨rfl, -⟩ := List.cons.inj hq'
        rw [hr] at hr'
        obtain ⟨rfl, -⟩ := Prod.mk.inj (Except.ok.inj hr')
        exact ⟨key, henc, .inr (.inl rfl)⟩
      · rw [hs] at hd
        cases hd
      · rw [hs] at hf
        cases hf
  | serverRefuses bytes rest error hs hq =>
    refine h.serverFails (fun hopen => ?_) error
    rw [(h.early hopen).1] at hq
    cases hq
  | serverInterrupted error hs => exact h.serverFails (fun hopen => (h.early hopen).1) error
  | substitute toClient toServer => exact hi.elim

theorem Inv.agreed (h : Inv e c v s) (hended : s.Ended) : s.Failed ∨ s.Keyed ∨ s.Unkeyed := by
  obtain ⟨hc, hs⟩ := hended
  cases hclient : s.client with
  | start => rw [hclient] at hc; cases hc
  | waiting pk => rw [hclient] at hc; cases hc
  | failed err => exact .inl (.inl ⟨err, hclient⟩)
  | done enc pk =>
    obtain ⟨key, rfl, ⟨hopen, -⟩ | hd | hf⟩ := h.answered enc pk hclient
    · rw [hopen] at hs
      cases hs
    · cases key with
      | none => exact .inr (.inr ⟨pk, hclient, hd⟩)
      | some key => exact .inr (.inl ⟨key, pk, hclient, hd⟩)
    · exact .inl (.inr hf)

/-- As long as not both have ended, one of them can go on, and has to fail only after the
other has. -/
theorem Inv.progress (h : Inv e c v s) (hended : ¬s.Ended) :
    ∃ i, i.Reliable ∧ (step e c v s i).isSome ∧ (¬s.Failed → i.Smooth) := by
  have hclientStart : s.client = .start → (step e c v s (.clientStart .ok)).isSome := by
    intro hc
    simp only [step, hc]
    split
    · rfl
    · rfl
  cases hs : s.server with
  | start =>
    refine ⟨.serverStart .ok, trivial, ?_, fun _ => trivial⟩
    simp only [step, hs]
    split
    · rfl
    · rfl
  | waiting =>
    cases hc : s.client with
    | start => exact ⟨.clientStart .ok, trivial, hclientStart hc, fun _ => trivial⟩
    | waiting signPk =>
      cases hq : s.toClient with
      | nil => exact absurd hq (h.unread hs (by rw [hc]; rfl))
      | cons bytes rest =>
        refine ⟨.clientNext .ok, trivial, ?_, fun _ => trivial⟩
        simp only [step, hc, hq, Option.isSome_some]
    | done enc pk =>
      obtain ⟨key, -, ⟨-, m, update, hq, hr⟩ | hd | ⟨err, hf⟩⟩ := h.answered enc pk hc
      · refine ⟨.serverNext, trivial, ?_, fun _ => trivial⟩
        simp only [step, hs, hq, hr, Option.isSome_some]
      · rw [hs] at hd
        cases hd
      · rw [hs] at hf
        cases hf
    | failed err =>
      refine ⟨.serverInterrupted "", trivial, ?_, fun hno => absurd (.inl ⟨err, hc⟩) hno⟩
      simp only [step, hs, Option.isSome_some]
  | done enc =>
    cases hc : s.client with
    | start => exact absurd hs ((h.early (by rw [hc]; rfl)).2 enc)
    | waiting signPk => exact absurd hs ((h.early (by rw [hc]; rfl)).2 enc)
    | done enc' pk => exact absurd ⟨by rw [hc]; rfl, by rw [hs]; rfl⟩ hended
    | failed err => exact absurd ⟨by rw [hc]; rfl, by rw [hs]; rfl⟩ hended
  | failed err =>
    have hfailed : s.Failed := .inr ⟨err, hs⟩
    cases hc : s.client with
    | start => exact ⟨.clientStart .ok, trivial, hclientStart hc, fun _ => trivial⟩
    | waiting signPk =>
      refine ⟨.clientInterrupted "", trivial, ?_, fun hno => absurd hfailed hno⟩
      simp only [step, hc, Option.isSome_some]
    | done enc' pk => exact absurd ⟨by rw [hc]; rfl, by rw [hs]; rfl⟩ hended
    | failed err' => exact absurd ⟨by rw [hc]; rfl, by rw [hs]; rfl⟩ hended

/-- The steps that a party still has before it. -/
def ClientStage.ahead : ClientStage B → Nat
  | .start => 2
  | .waiting _ => 1
  | .done _ _ => 0
  | .failed _ => 0

def ServerStage.ahead : ServerStage B → Nat
  | .start => 2
  | .waiting => 1
  | .done _ => 0
  | .failed _ => 0

theorem ahead_step (hi : i.Reliable) (hstep : Step e c v s i s') :
    s'.client.ahead + s'.server.ahead + 1 ≤ s.client.ahead + s.server.ahead := by
  cases hstep with
  | clientWaits sent signPk hc hpk => simp only [hc, ClientStage.ahead]; omega
  | clientGivesUp sent hc =>
    cases sent <;> simp only [hc, State.clientSend, ClientStage.ahead] <;> omega
  | clientAnswers sent signPk bytes rest hc hq =>
    cases sent <;> simp only [hc, State.clientSend, ClientStage.ahead] <;> omega
  | clientInterrupted error hc =>
    cases hclient : s.client with
    | start => simp only [ClientStage.ahead]; omega
    | waiting signPk => simp only [ClientStage.ahead]; omega
    | done enc pk => rw [hclient] at hc; cases hc
    | failed err => rw [hclient] at hc; cases hc
  | serverGreets sent sk hs hk =>
    cases sent <;> simp only [hs, State.serverSend, ServerStage.ahead] <;> omega
  | serverSkips sent hs hk => simp only [hs, ServerStage.ahead]; omega
  | serverReceives bytes rest key update hs hq hr => simp only [hs, ServerStage.ahead]; omega
  | serverRefuses bytes rest error hs hq => simp only [hs, ServerStage.ahead]; omega
  | serverInterrupted error hs => simp only [hs, ServerStage.ahead]; omega
  | substitute toClient toServer => exact hi.elim

theorem ahead_run {events : List Event} (hok : ∀ i ∈ events, i.Reliable)
    (h : run e c v s events = some s') :
    s'.client.ahead + s'.server.ahead + events.length ≤ s.client.ahead + s.server.ahead := by
  induction events generalizing s with
  | nil => exact Option.some.inj h ▸ Nat.le_refl _
  | cons i events ih =>
    rw [run, List.foldlM_cons, Option.bind_eq_bind, Option.bind_eq_some_iff] at h
    obtain ⟨s₁, h₁, hrest⟩ := h
    have hfirst := ahead_step (hok i List.mem_cons_self) (step_cases h₁)
    have hlater := ih (fun j hj => hok j (List.mem_cons_of_mem i hj)) hrest
    rw [List.length_cons]
    omega

/-! ### Against an adversary -/

/-- The key is in a box for a public key that the record for the peer names, which the key
that the rendezvous server certified has signed. -/
def Boxed (e : Primitives B) (c : Client B) (s : State B) (key : B.Key) : Prop :=
  ∃ rsPk signPk theirPk bytes id, c.rsPk = some rsPk ∧
    IdRecord e c.signedIdPk rsPk c.peerId signPk ∧
    s.heard = [bytes] ∧ e.proto.parseMessage bytes = some (some (.signedId id)) ∧
    IdRecord e id signPk c.peerId theirPk ∧
    s.said = [e.proto.writeMessage (some (.publicKey (e.box.publicKey c.boxSk).toList
      (e.box.sealBox (e.keys.toBytes key).toList zeroNonce theirPk c.boxSk)))]

structure Secured (e : Primitives B) (c : Client B) (s : State B) : Prop where
  quiet : s.client.ended = false → s.heard = [] ∧ s.said = []
  certified : ∀ signPk, s.client = .waiting signPk → c.signPk e = some signPk
  boxed : ∀ enc pk, s.client = .done (some enc) pk → Boxed e c s enc.key

theorem Secured.init (confirmed : Bool) : Secured e c { keyConfirmed := confirmed } where
  quiet _ := ⟨rfl, rfl⟩
  certified signPk h := by cases h
  boxed enc pk h := by cases h

/-- The ways in which an answer sets a key. -/
theorem answer_some {signPk : Vector UInt8 32} {bytes : Bytes} {key : B.Key}
    (h : (c.answer e signPk bytes).2 = some key) :
    ∃ id theirPk, e.proto.parseMessage bytes = some (some (.signedId id)) ∧
      IdRecord e id signPk c.peerId theirPk ∧
      (c.answer e signPk bytes).1 = some (.publicKey (e.box.publicKey c.boxSk).toList
        (e.box.sealBox (e.keys.toBytes key).toList zeroNonce theirPk c.boxSk)) := by
  unfold Client.answer at h ⊢
  split at h
  · rename_i id hparse
    rw [hparse]
    simp only
    split at h
    · rename_i id' theirPk hdecode
      split at h
      · rename_i hid
        rw [if_pos hid]
        obtain rfl := Option.some.inj h
        exact ⟨id, theirPk, rfl, hid ▸ decodeIdPk_iff.mp hdecode, rfl⟩
      · cases h
    · cases h
  · cases h
  · cases h

theorem secured_step (hstep : Step e c v s i s') (h : Secured e c s) : Secured e c s' := by
  cases hstep with
  | clientWaits sent signPk hc hpk =>
    have hopen : s.client.ended = false := by rw [hc]; rfl
    refine ⟨fun _ => h.quiet hopen, fun signPk' hw => ?_, fun enc pk hd => by cases hd⟩
    obtain rfl := ClientStage.waiting.inj hw
    exact hpk
  | clientGivesUp sent hc =>
    cases sent with
    | ok =>
      exact ⟨fun hopen => (by cases hopen), fun _ hw => (by cases hw), fun _ _ hd => by cases hd⟩
    | failed err left =>
      exact ⟨fun hopen => (by cases hopen), fun _ hw => (by cases hw), fun _ _ hd => by cases hd⟩
  | clientAnswers sent signPk bytes rest hc hq =>
    have hopen : s.client.ended = false := by rw [hc]; rfl
    cases sent with
    | failed err left =>
      exact ⟨fun hopen => (by cases hopen), fun _ hw => (by cases hw), fun _ _ hd => by cases hd⟩
    | ok =>
      refine ⟨fun hopen => (by cases hopen), fun _ hw => (by cases hw), fun enc pk hd => ?_⟩
      obtain ⟨hset, -⟩ := ClientStage.done.inj hd
      obtain ⟨key, hkey, rfl⟩ := Option.map_eq_some_iff.mp hset
      obtain ⟨rsPk, hrs, hcert⟩ := signPk_eq_some (h.certified signPk hc)
      obtain ⟨id, theirPk, hparse, hrecord, hout⟩ := answer_some hkey
      obtain ⟨hheard, hsaid⟩ := h.quiet hopen
      refine ⟨rsPk, signPk, theirPk, bytes, id, hrs, hcert, ?_, hparse, hrecord, ?_⟩
      · exact congrArg (· ++ [bytes]) hheard
      · rw [← hout]
        exact congrArg (· ++ _) hsaid
  | clientInterrupted error hc =>
    exact ⟨fun hopen => (by cases hopen), fun _ hw => (by cases hw), fun _ _ hd => by cases hd⟩
  | serverGreets sent sk hs hk => exact ⟨h.quiet, h.certified, h.boxed⟩
  | serverSkips sent hs hk => exact ⟨h.quiet, h.certified, h.boxed⟩
  | serverReceives bytes rest key update hs hq hr => exact ⟨h.quiet, h.certified, h.boxed⟩
  | serverRefuses bytes rest error hs hq => exact ⟨h.quiet, h.certified, h.boxed⟩
  | serverInterrupted error hs => exact ⟨h.quiet, h.certified, h.boxed⟩
  | substitute toClient toServer => exact ⟨h.quiet, h.certified, h.boxed⟩

/-- Over a reliable link the handshake takes four steps at most and does not get stuck, and
the two sides end keyed alike unless one fails. Whatever is substituted, a keyed client has
boxed its key for the peer it asked for. -/
theorem secure_handshake (e : Primitives B) (c : Client B) (v : Server) (hv : v.Ready)
    (confirmed : Bool) :
    (∀ events s, (∀ i ∈ events, i.Reliable) →
      run e c v { keyConfirmed := confirmed } events = some s →
      events.length ≤ 4 ∧
      (s.Ended ∨ ∃ i, i.Reliable ∧ (step e c v s i).isSome ∧ (¬s.Failed → i.Smooth)) ∧
      (s.Ended → s.Failed ∨ s.Keyed ∨ s.Unkeyed)) ∧
    ∀ events s enc pk, run e c v { keyConfirmed := confirmed } events = some s →
      s.client = .done (some enc) pk → Boxed e c s enc.key := by
  constructor
  · intro events s hok hrun
    have hinv : Inv e c v s :=
      run_keeps (fun _ _ _ hi hstep h => inv_step hv hi hstep h) hok (Inv.init confirmed) hrun
    have hlength := ahead_run hok hrun
    refine ⟨?_, ?_, hinv.agreed⟩
    · simp only [ClientStage.ahead, ServerStage.ahead] at hlength
      omega
    · by_cases hended : s.Ended
      · exact .inl hended
      · exact .inr (hinv.progress hended)
  · intro events s enc pk hrun hdone
    have hsecured : Secured e c s :=
      run_keeps (fun _ _ _ _ hstep h => secured_step hstep h)
        (fun _ _ => trivial : ∀ i ∈ events, True) (Secured.init confirmed) hrun
    exact hsecured.boxed enc pk hdone

/-! ### Primitives that compute -/

namespace Plain

theorem open_secretBox (m _nonce : Bytes) (key : Vector UInt8 32) :
    (if (key.toList.take 16 ++ m).take 16 = key.toList.take 16 then some ((key.toList.take 16 ++ m).drop 16)
      else none) = some m := by
  simp

theorem length_secretBox (m _nonce : Bytes) (key : Vector UInt8 32) :
    (key.toList.take 16 ++ m).length = m.length + 16 := by
  simp
  omega

def secretBox : SecretBox where
  Key := Vector UInt8 32
  sealBox m _ key := key.toList.take 16 ++ m
  openBox c _ key := if c.take 16 = key.toList.take 16 then some (c.drop 16) else none
  openBox_sealBox := open_secretBox
  length_sealBox := length_secretBox

/-- Sixty-four bytes and the message behind them. -/
theorem take_drop_header {header : Bytes} (h : header.length = 64) (m : Bytes) :
    (header ++ m).take 64 = header ∧ (header ++ m).drop 64 = m :=
  ⟨List.take_left' h, List.drop_left' h⟩

def header (a b : Vector UInt8 32) : Bytes := a.toList ++ b.toList

theorem length_header (a b : Vector UInt8 32) : (header a b).length = 64 := by simp [header]

/-- The public key is the second half of the secret key. -/
def publicKey (sk : Vector UInt8 64) : Vector UInt8 32 := Vector.ofFn fun i => sk[i.val + 32]

theorem publicKey_append (pk : Vector UInt8 32) : publicKey (pk ++ pk) = pk := by
  apply Vector.ext
  intro i hi
  rw [publicKey, Vector.getElem_ofFn, Vector.getElem_append_right (by omega) (by omega)]
  rfl

def signatures : Signatures where
  publicKey := publicKey
  sign m sk := header (publicKey sk) (Vector.replicate 32 0) ++ m
  verify s pk :=
    if s.take 64 = header pk (Vector.replicate 32 0) then some (s.drop 64) else none
  verify_sign m sk := by
    obtain ⟨htake, hdrop⟩ :=
      take_drop_header (length_header (publicKey sk) (Vector.replicate 32 0)) m
    rw [htake, if_pos rfl, hdrop]
  drop_sign m sk := (take_drop_header (length_header _ _) m).2
  signed_of_verify {s pk m} h := by
    split at h
    · rename_i hs
      obtain rfl := Option.some.inj h
      exact ⟨pk ++ pk, publicKey_append pk, by rw [publicKey_append, ← hs, List.take_append_drop]⟩
    · cases h

def boxes : Boxes where
  publicKey sk := sk
  sealBox m _ theirs ours := header theirs ours ++ m
  openBox c _ theirs ours := if c.take 64 = header ours theirs then some (c.drop 64) else none
  openBox_sealBox m _ ours theirs := by
    obtain ⟨htake, hdrop⟩ := take_drop_header (length_header theirs ours) m
    rw [htake, if_pos rfl, hdrop]

def pack : Bytes → Bytes → Bytes
  | [], rest => 0 :: rest
  | b :: bs, rest => 1 :: b :: pack bs rest

def unpack : Bytes → Option (Bytes × Bytes)
  | 0 :: rest => some ([], rest)
  | 1 :: b :: rest => (unpack rest).map fun r => (b :: r.1, r.2)
  | _ => none

theorem unpack_pack (bs rest : Bytes) : unpack (pack bs rest) = some (bs, rest) := by
  induction bs with
  | nil => rfl
  | cons b bs ih => rw [pack, unpack, ih, Option.map_some]

def packText : List Char → Bytes → Bytes
  | [], rest => 0 :: rest
  | c :: cs, rest => 1 :: (toLeBytes 3 c.toNat ++ packText cs rest)

def unpackText : Bytes → Option (List Char × Bytes)
  | 0 :: rest => some ([], rest)
  | 1 :: x :: y :: z :: rest =>
    (unpackText rest).map fun r => (Char.ofNat (ofLeBytes [x, y, z]) :: r.1, r.2)
  | _ => none

theorem unpackText_packText (cs : List Char) (rest : Bytes) :
    unpackText (packText cs rest) = some (cs, rest) := by
  induction cs with
  | nil => rfl
  | cons c cs ih =>
    have hc : c.toNat < 256 ^ 3 := by
      have hrange := c.valid
      simp only [UInt32.isValidChar, Nat.isValidChar] at hrange
      have heq : c.val.toNat = c.toNat := rfl
      omega
    have hchar := ofLeBytes_toLeBytes hc
    simp only [toLeBytes] at hchar
    simp only [packText, toLeBytes, List.cons_append, List.nil_append, unpackText, ih, hchar,
      Option.map_some, Char.ofNat_toNat]

def protobuf : Protobuf where
  writeMessage
    | none => []
    | some (.signedId id) => 1 :: id
    | some (.publicKey asymmetricValue symmetricValue) => 2 :: pack asymmetricValue symmetricValue
    | some .other => [3]
  parseMessage
    | [] => some none
    | 1 :: id => some (some (.signedId id))
    | 2 :: rest => (unpack rest).map fun r => some (.publicKey r.1 r.2)
    | 3 :: _ => some (some .other)
    | _ => none
  parse_writeMessage u hu := by
    match u, hu with
    | none, _ => rfl
    | some (.signedId id), _ => rfl
    | some (.publicKey asymmetricValue symmetricValue), _ => simp [unpack_pack]
  writeIdPk id pk := packText id.toList pk
  parseIdPk m :=
    match unpackText m with
    | some (id, pk) => .ok (String.ofList id, pk)
    | none => .error "WireError"
  parse_writeIdPk id pk := by simp [unpackText_packText]

def primitives : Primitives secretBox where
  sig := signatures
  box := boxes
  proto := protobuf
  keys := ⟨id, id, fun _ => rfl⟩

/-- A key pair for signing, made of its number. -/
def signingKey (n : UInt8) : Vector UInt8 64 := Vector.replicate 64 n

def client : Client secretBox where
  peerId := "123"
  signedIdPk := signatures.sign (protobuf.writeIdPk "123" (List.replicate 32 2)) (signingKey 1)
  key := "AQEBAQEBAQEBAQEBAQEBAQEBAQEBAQEBAQEBAQEBAQE="
  boxSk := Vector.replicate 32 3
  sessionKey := Vector.replicate 32 4

def server : Server where
  secure := true
  id := "123"
  sk := List.replicate 64 2
  pk := List.replicate 32 2
  boxSk := Vector.replicate 32 5

end Plain

def Plain.events : List Event := [.serverStart .ok, .clientStart .ok, .clientNext .ok, .serverNext]

open Plain in
theorem secure_handshake_keyed : ∃ s : State secretBox,
    run primitives client server { keyConfirmed := true } events = some s ∧
    (s.Failed ∨ s.Keyed ∨ s.Unkeyed) ∧ s.Keyed ∧ Boxed primitives client s client.sessionKey := by
  have hready : server.Ready := ⟨rfl, by decide, by decide⟩
  have hok : ∀ i ∈ events, i.Reliable := by simp [events, Event.Reliable]
  obtain ⟨s, hrun, hclient, hserver⟩ : ∃ s : State secretBox,
      run primitives client server { keyConfirmed := true } events = some s ∧
      s.client = .done (some { key := client.sessionKey }) (some (List.replicate 32 2)) ∧
      s.server = .done (some { key := client.sessionKey }) := ⟨_, rfl, rfl, rfl⟩
  obtain ⟨hreliable, hsecured⟩ := secure_handshake primitives client server hready true
  obtain ⟨-, -, hagreed⟩ := hreliable events s hok hrun
  have hended : s.Ended := ⟨by rw [hclient]; rfl, by rw [hserver]; rfl⟩
  have hkeyed : s.Keyed := ⟨client.sessionKey, _, hclient, hserver⟩
  exact ⟨s, hrun, hagreed hended, hkeyed,
    hsecured events s { key := client.sessionKey } _ hrun hclient⟩

end RustDesk.SecureConnection
