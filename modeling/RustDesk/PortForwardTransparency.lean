import RustDesk.PortForwardRuns

/-!
# A port forward delivers what was written

The invariant holds when the message loop of the server begins, and every step that meets
`Orderly` keeps it. Outside of the condition the switch is not safe: a click of the
connection manager leaves the loop with a `TestDelay` unanswered, and the answer of the
client reaches the target.
-/

namespace RustDesk.Tunnel

open FramedStream

variable {B : SecretBox} {w : Wire} {b : Build} {t : Tunnel B}

theorem inv_step (h : Inv w t) (i : TunnelEvent w) (hok : Orderly w b t i) :
    Inv w (t.step w b i) := by
  cases i with
  | serverNext env => exact inv_serverNext h hok
  | server env ev => exact inv_serverEvent h hok
  | serverForward n => exact inv_serverForward h n
  | clientNext login retry => exact inv_clientNext h login retry hok
  | clientForward n => exact inv_clientForward h n
  | clientStop => exact h.over
  | serverArrive n =>
    obtain ⟨up, down, upRaw, downRaw, hup, hdown, hp⟩ := h
    exact ⟨up, down, upRaw, downRaw, hup.arrive_reader n, hdown.arrive_writer n,
      hp.congr rfl rfl rfl rfl rfl rfl rfl fun _ => rfl⟩
  | clientArrive n =>
    obtain ⟨up, down, upRaw, downRaw, hup, hdown, hp⟩ := h
    exact ⟨up, down, upRaw, downRaw, hup.arrive_writer n, hdown.arrive_reader n,
      hp.congr rfl rfl rfl rfl rfl rfl rfl fun _ => rfl⟩
  | targetWrite bytes =>
    obtain ⟨up, down, upRaw, downRaw, hup, hdown, hp⟩ := h
    dsimp only [step]
    split
    · exact ⟨up, down, upRaw, downRaw, hup.write_reader bytes, hdown.write_writer bytes,
        hp.congr rfl rfl rfl rfl rfl rfl rfl fun _ => rfl⟩
    · exact ⟨up, down, upRaw, downRaw, hup, hdown, hp⟩
  | localWrite bytes =>
    obtain ⟨up, down, upRaw, downRaw, hup, hdown, hp⟩ := h
    exact ⟨up, down, upRaw, downRaw, hup.write_writer bytes, hdown.write_reader bytes,
      hp.congr rfl rfl rfl rfl rfl rfl rfl fun _ => rfl⟩
  | uiLogin login =>
    obtain ⟨up, down, upRaw, downRaw, hup, hdown, hp⟩ := h
    dsimp only [step]
    split
    · rename_i hphase
      obtain ⟨hshort, hf, hrec⟩ := hok hphase
      have hanswer : isAnswer w login.bytes = false := by
        simp [isAnswer, login.parses, Connection.isReply]
      refine inv_uiSend hup hdown hp hphase hf hshort ?_ hrec hanswer
      intro m hm lr hlr
      rw [login.parses] at hm
      cases hm
      cases hlr
      exact ⟨_, login.asks⟩
    · exact ⟨up, down, upRaw, downRaw, hup, hdown, hp⟩
  | uiMessage msg =>
    obtain ⟨up, down, upRaw, downRaw, hup, hdown, hp⟩ := h
    dsimp only [step]
    split
    · rename_i hphase
      obtain ⟨hshort, hf, hrec, hanswer, hasks⟩ := hok hphase
      exact inv_uiSend hup hdown hp hphase hf hshort hasks hrec hanswer
    · exact ⟨up, down, upRaw, downRaw, hup, hdown, hp⟩

/-- The stream of an end as the loop begins. -/
def openingStream (key : Option B.Key) : FramedStream B :=
  { encrypt := key.map fun k => { key := k } }

theorem carries_opening (key : Option B.Key) :
    Carries ({ stream := openingStream key } : Endpoint B) { stream := openingStream key } [] []
      [] where
  link :=
    { room := (by decide : BytesCodec.maxPayload ≤ ({} : BytesCodec).maxPacketLength)
      short := by simp
      framed := fun _ => by cases key <;> rfl
      raw := fun h => by cases h
      unmixed := fun _ => rfl
      agree := fun _ _ => by
        cases key with
        | none => trivial
        | some k => exact ⟨rfl, rfl⟩ }
  sent := rfl
  bytes := rfl

theorem hash_write : isHash w (w.write .hash) = true ∧ isTest w (w.write .hash) = false ∧
    isPeerInfo w (w.write .hash) = false := by
  have hp := w.parseClient_write .hash fun bytes h => by cases h
  simp [isPeerInfo, isTest, isHash, hp, Outgoing.forClient]

theorem openingMessages_cons (b : Build) (s : Connection) :
    ∃ ms, openingMessages b s = .hash :: ms ∧ ∀ m ∈ ms, m.acts = false := by
  refine ⟨_, rfl, fun m hm => ?_⟩
  rcases List.mem_append.mp hm with hm | hm
  · split at hm
    · rw [List.mem_singleton.mp hm]
      rfl
    · split at hm
      · cases hm
      · rw [List.mem_singleton.mp hm]
        rfl
  · obtain ⟨p, -, hp⟩ := List.mem_filterMap.mp hm
    split at hp
    · cases hp
    · cases hp
      rfl

/-- A connection whose message loop begins. -/
structure Opening (s : Connection) : Prop where
  authorized : s.authorized = false
  socket : s.portForwardSocket = none
  lastTestDelay : s.lastTestDelay = none
  closed : s.closed = false
  ended : s.ended = false

theorem inv_start {conn : Connection} (hc : Opening conn) (key : Option B.Key)
    (hshort : ∀ m ∈ openingMessages b conn, Short (w.write m)) :
    Inv w (start w b conn key) := by
  obtain ⟨ms, hms, hplain⟩ := openingMessages_cons b conn
  have hnews := inert_news (w := w) hplain
  obtain ⟨hhash, htest, hinfo⟩ := hash_write (w := w)
  unfold start
  rw [hms] at hshort ⊢
  set t₀ : Tunnel B :=
    { conn, server := { stream := openingStream key }, client := { stream := openingStream key } }
  have hk := kept_serverSendAll w (.hash :: ms) t₀
  obtain ⟨hup, hdown⟩ := carries_serverSendAll (t := t₀) (carries_opening key) (carries_opening key)
    rfl rfl hshort
  change Inv w (t₀.serverSendAll w (.hash :: ms))
  generalize t₀.serverSendAll w (.hash :: ms) = t at hk hup hdown
  have hconn : t.conn = conn := hk.conn
  have hfwd : t.forwards = false := by simp [forwards, hconn, hc.ended]
  have hphase : t.phase = .login := hk.phase
  have hframed : t.client.stream.codec.raw = false := by rw [hk.clientStream]; rfl
  refine ⟨[], _, [], [], hup, hdown, ?_⟩
  rw [List.nil_append, List.map_cons]
  exact
    { serverRaw := by rw [hk.serverCodec, hfwd]; rfl
      loginFramed := fun _ => hframed
      forwardRaw := fun hp => by rw [hphase] at hp; cases hp
      emptied := fun hp => by rw [hphase] at hp; cases hp
      closed := fun _ => by rw [hconn, hc.closed]
      unauthorized := fun _ => by rw [hconn, hc.socket]
      window := fun _ ha => by simp [hconn, hc.authorized] at ha
      asked := fun _ _ hr => absurd hk.serverReceived hr
      logins := by simp
      echoes := fun d hd => by
        rcases List.mem_cons.mp hd with rfl | hd
        · exact echoes_of_not_test htest
        · exact echoes_of_not_test (hnews d hd).1
      infoAhead := fun _ ha => by simp [hconn, hc.authorized] at ha
      noInfo := fun _ d hd => by
        rcases List.mem_cons.mp hd with rfl | hd
        · exact hinfo
        · exact (hnews d hd).2.2
      clientRaw := fun hr => by rw [hframed] at hr; cases hr
      settled := fun hf => by rw [hfwd] at hf; cases hf
      first := fun bytes hb => by
        rw [hk.clientSent] at hb
        cases hb
      hashAhead := fun _ => ⟨hk.clientSent, _, _, rfl, hhash, fun d hd => (hnews d hd).2.1⟩
      hashRead := fun hr => absurd hk.clientReceived hr
      outstanding := fun _ _ => by
        have hz : (ms.map w.write).countP (isTest w) = 0 :=
          List.countP_eq_zero.mpr fun d hd => by simp [(hnews d hd).1]
        rw [hconn, hc.lastTestDelay, List.countP_cons_of_neg (by simp [htest]), hz]
        rfl }

/-- In every run whose steps all meet `Orderly`, the target gets what the local application
wrote, the local application gets what the target wrote, and the two message loops get the
messages that were sent to them. -/
theorem transparent_throughout (w : Wire) (b : Build) (env : Env) (id : Int) (hash : Hash)
    (get2fa : Option String) (controlPermissions : Option UInt64) (key : Option B.Key)
    (is : List (TunnelEvent w))
    (hshort : ∀ m ∈ openingMessages b (Connection.start b env id hash get2fa controlPermissions),
      Short (w.write m))
    (hg : History.Guarded (step w b) (Orderly w b)
      (start w b (Connection.start b env id hash get2fa controlPermissions) key) is) :
    History.Throughout (step w b) Transparent
      (start w b (Connection.start b env id hash get2fa controlPermissions) key) is := by
  have hstart := inv_start (w := w) ⟨rfl, rfl, rfl, rfl, rfl⟩ key hshort
  have hinv : History.Throughout (step w b) (Inv w) _ is :=
    History.throughout_of_guarded (fun _ i h hok => inv_step h i hok) hstart hg
  exact History.throughout_imp (fun _ h => Inv.transparent h) hinv

/-! ### The condition is decidable -/

instance decidableAsksForward (w : Wire) (bytes : Bytes) : Decidable (AsksForward w bytes) :=
  have : ∀ lr : LoginRequest, Decidable (∃ pf, lr.union = some (.portForward pf)) := fun lr =>
    match h : lr.union with
    | some (.portForward pf) => .isTrue ⟨pf, rfl⟩
    | some (.fileTransfer ..) | some .viewCamera | some (.terminal _) | none =>
      .isFalse fun ⟨_, hpf⟩ => by cases hpf
  inferInstanceAs (Decidable (∀ m ∈ w.parse bytes, ∀ lr ∈ Connection.loginOf m,
    ∃ pf, lr.union = some (.portForward pf)))

instance decidableInert (w : Wire) (bytes : Bytes) : Decidable (Inert w bytes) :=
  inferInstanceAs (Decidable (_ ∧ _ ∧ _))

instance decidableClick (ev : Event) : Decidable (ev = .cm .authorize) :=
  decidable_of_iff (Connection.isClick ev = true)
    ⟨fun h => by unfold Connection.isClick at h; split at h <;> simp_all, fun h => by rw [h]; rfl⟩

instance decidableTurnOk (w : Wire) (b : Build) (t : Tunnel B) (env : Env) (ev : Event)
    (unread : List Bytes) : Decidable (TurnOk w b t env ev unread) :=
  have : Decidable (∀ m, Connection.relayed ev = some m → Inert w (w.write m)) :=
    inferInstanceAs (Decidable (∀ m ∈ Connection.relayed ev, Inert w (w.write m)))
  decidable_of_iff (_ ∧ _ ∧ _ ∧ _ ∧ _)
    ⟨fun ⟨h₁, h₂, h₃, h₄, h₅⟩ => ⟨h₁, h₂, h₃, h₄, h₅⟩,
      fun ⟨h₁, h₂, h₃, h₄, h₅⟩ => ⟨h₁, h₂, h₃, h₄, h₅⟩⟩

instance decidableRead (r : Option (Except StreamError Bytes)) (P : Bytes → Prop)
    [∀ bytes, Decidable (P bytes)] : Decidable (∀ bytes, r = some (.ok bytes) → P bytes) :=
  match r with
  | some (.ok bytes) =>
    decidable_of_iff (P bytes) ⟨fun h _ hb => by cases hb; exact h, fun h => h bytes rfl⟩
  | some (.error _) | none => .isTrue fun _ h => by cases h

instance decidableOrderly (w : Wire) (b : Build) (t : Tunnel B) :
    ∀ i : TunnelEvent w, Decidable (Orderly w b t i)
  | .server env ev => inferInstanceAs (Decidable (t.conn.ended = false → fromStream ev = false →
      TurnOk w b t env ev t.unreadByServer))
  | .serverNext env => inferInstanceAs (Decidable (t.conn.ended = false → ∀ bytes,
      t.server.stream.next.2 = some (.ok bytes) →
        TurnOk w b t env (peerEvent w bytes) t.unreadByServer.tail))
  | .clientNext login _ => inferInstanceAs (Decidable (Short login.bytes))
  | .uiLogin login => inferInstanceAs (Decidable (t.phase = .login →
      Short login.bytes ∧ t.forwards = false ∧ t.client.received ≠ []))
  | .uiMessage msg => inferInstanceAs (Decidable (t.phase = .login → Short msg ∧
      t.forwards = false ∧ t.client.received ≠ [] ∧ isAnswer w msg = false ∧ AsksForward w msg))
  | .serverArrive _ | .clientArrive _ | .serverForward _ | .targetWrite _ | .localWrite _
  | .clientForward _ | .clientStop => .isTrue trivial

/-! ### Two runs -/

def natBytes (n : Nat) : Bytes := List.replicate n 1 ++ [0]

def readNat : Bytes → Option (Nat × Bytes)
  | [] => none
  | 0 :: rest => some (0, rest)
  | _ :: rest => (readNat rest).map fun p => (p.1 + 1, p.2)

theorem readNat_natBytes (n : Nat) (rest : Bytes) :
    readNat (natBytes n ++ rest) = some (n, rest) := by
  induction n with
  | zero => rfl
  | succ n ih =>
    have hcons : natBytes (n + 1) ++ rest = 1 :: (natBytes n ++ rest) := rfl
    rw [hcons, readNat, ih]
    · rfl
    · decide

def testDelayBytes (t : TestDelay) : Bytes :=
  natBytes t.time.toNat ++ (natBytes (-t.time).toNat ++ (natBytes t.fromClient.toNat ++
    (natBytes t.lastDelay ++ natBytes t.targetBitrate)))

def readTestDelay (bytes : Bytes) : Option TestDelay := do
  let (time, rest) ← readNat bytes
  let (negative, rest) ← readNat rest
  let (fromClient, rest) ← readNat rest
  let (lastDelay, rest) ← readNat rest
  let (targetBitrate, _) ← readNat rest
  pure {
    time := (time : Int) - negative
    fromClient := fromClient == 1
    lastDelay
    targetBitrate }

theorem readTestDelay_testDelayBytes (t : TestDelay) :
    readTestDelay (testDelayBytes t) = some t := by
  have hlast : readNat (natBytes t.targetBitrate) = some (t.targetBitrate, []) := by
    simpa using readNat_natBytes t.targetBitrate []
  have htime : max t.time 0 - max (-t.time) 0 = t.time := by omega
  have hflag : (t.fromClient.toNat == 1) = t.fromClient := by cases t.fromClient <;> rfl
  simp [testDelayBytes, readTestDelay, readNat_natBytes, hlast, htime, hflag]

/-- A login for port 22 of the host, with the password `a` or with none. -/
def loginWith (password : Bytes) : LoginRequest :=
  { password, union := some (.portForward { host := "", port := 22 }) }

/-- Messages told apart by their first byte. -/
def tagged : Wire where
  write
    | .hash => [1]
    | .loginError .. => [2]
    | .loginPeerInfo => [3]
    | .testDelay t => 4 :: testDelayBytes t
    | .raw bytes => bytes
    | _ => [0]
  parse
    | 4 :: bytes => (readTestDelay bytes).map .testDelay
    | 5 :: password => some (.loginRequest (loginWith password))
    | _ => none
  parseClient
    | [1] => some .hash
    | [2] => some .loginError
    | [3] => some .loginPeerInfo
    | 4 :: bytes => (readTestDelay bytes).map .testDelay
    | _ => some .other
  write_raw _ := rfl
  parseClient_write m hm := by
    cases m with
    | raw bytes => exact absurd rfl (hm bytes)
    | testDelay t => simp [Outgoing.forClient, readTestDelay_testDelayBytes]
    | _ => rfl
  parse_testDelay t := by simp [readTestDelay_testDelayBytes]

def taggedLogin (password : Bytes) : Login tagged := ⟨5 :: password, loginWith password, _, rfl, rfl⟩

/-- A box that adds 16 bytes and hides nothing. -/
def plainBox : SecretBox where
  Key := Unit
  sealBox m _ _ := m ++ List.replicate 16 0
  openBox c _ _ := some (c.take (c.length - 16))
  openBox_sealBox m _ _ := by simp
  length_sealBox m _ _ := by simp

def plainKey : plainBox.Key := ()

/-- A host with the temporary password `a`. -/
def sshEnv : Env := { temporaryPassword := "a" }

def sshStart (key : Option plainBox.Key) : Tunnel plainBox :=
  start tagged { os := .linux } (Connection.start { os := .linux } sshEnv 1 ⟨"", ""⟩ none none) key

/-- The login message authorizes while a `TestDelay` is unanswered: the server stays in the
message loop until it has read the answer. -/
def passwordRun : List (TunnelEvent tagged) :=
  [.clientArrive 100, .clientNext (taggedLogin [97]) false, .server sshEnv (.testDelayTimer false),
    .serverArrive 100, .serverNext sshEnv, .clientArrive 100,
    .clientNext (taggedLogin [97]) false, .clientNext (taggedLogin [97]) false,
    .localWrite [7, 8], .clientForward 2, .serverArrive 100, .serverNext sshEnv, .serverNext sshEnv]

theorem transparent_passwordRun :
    (History.run (step tagged { os := .linux }) (sshStart (some plainKey)) passwordRun).server.delivered =
        [7, 8] ∧
      History.Throughout (step tagged { os := .linux }) Transparent (sshStart (some plainKey))
        passwordRun :=
  ⟨by decide, transparent_throughout tagged { os := .linux } sshEnv 1 ⟨"", ""⟩ none none (some plainKey)
    passwordRun (by decide) (by decide)⟩

/-- The click comes while a `TestDelay` is unanswered. -/
def clickRun : List (TunnelEvent tagged) :=
  [.clientArrive 100, .clientNext (taggedLogin []) false, .serverArrive 100, .serverNext sshEnv,
    .server sshEnv (.testDelayTimer false), .server sshEnv (.cm .authorize), .clientArrive 100,
    .clientNext (taggedLogin []) false, .serverArrive 100, .serverNext sshEnv]

/-- The target gets the frame of the client's answer to a `TestDelay`. -/
theorem click_delivers_answer :
    ¬ ∀ (B : SecretBox) (w : Wire) (b : Build) (env : Env) (id : Int) (hash : Hash)
      (get2fa : Option String) (controlPermissions : Option UInt64) (key : Option B.Key)
      (is : List (TunnelEvent w)),
      (∀ m ∈ openingMessages b (Connection.start b env id hash get2fa controlPermissions),
        Short (w.write m)) →
      History.Throughout (step w b) Transparent
        (start w b (Connection.start b env id hash get2fa controlPermissions) key) is := by
  intro h
  have hlast := (History.throughout_last (h plainBox tagged { os := .linux } sshEnv 1 ⟨"", ""⟩ none
    none none clickRun (by decide))).toTarget
  revert hlast
  decide

end RustDesk.Tunnel
