import RustDesk.PortForwardInvariant

/-!
# The switch from messages to bytes

Each event keeps the invariant, under the condition `Orderly`: the server leaves its
message loop for the forward only when it has read every message of the client and, on a
click, with no `TestDelay` unanswered; it sends no message once the forward is authorized;
and the user interface of the client sends no message once the server has left the loop.
-/

namespace RustDesk.Tunnel

open FramedStream

variable {B : SecretBox} {w : Wire} {b : Build} {t : Tunnel B} {up down : List Bytes}
  {upRaw downRaw : Bytes}

/-- The protocol looks at the connection, the modes of the two streams and the messages. -/
theorem Protocol.congr {t' : Tunnel B} (h : Protocol w t up down) (hc : t'.conn = t.conn)
    (hp : t'.phase = t.phase)
    (hs : t'.server.stream.codec.raw = t.server.stream.codec.raw)
    (hr : t'.client.stream.codec.raw = t.client.stream.codec.raw)
    (hsr : t'.server.received = t.server.received) (hcs : t'.client.sent = t.client.sent)
    (hcr : t'.client.received = t.client.received)
    (hb : t.phase = .forward → t'.buffer = t.buffer) : Protocol w t' up down := by
  have hf : t'.forwards = t.forwards := by simp only [forwards, hc]
  constructor
  · constructor
    · rw [hs, hf]; exact h.serverRaw
    · rw [hp, hr]; exact h.loginFramed
    · rw [hp, hr]; exact h.forwardRaw
    · rw [hp]; exact fun hph => (hb hph).trans (h.emptied hph)
    · rw [hc]; exact h.closed
    · rw [hc]; exact h.unauthorized
    · rw [hc]; exact h.window
    · rw [hc, hsr]; exact h.asked
    · exact h.logins
    · exact h.echoes
    · rw [hp, hc]; exact h.infoAhead
    · rw [hc]; exact h.noInfo
    · rw [hr, hc]; exact h.clientRaw
    · rw [hf, hp]; exact h.settled
  · rw [hcs]; exact h.first
  · rw [hcr, hcs]; exact h.hashAhead
  · rw [hcr, hp, hcs]; exact h.hashRead
  · rw [hc, hp, hr]; exact h.outstanding

/-! ### The client -/

theorem Base.clientSend (h : Base w t up down) {msg : Bytes} (hf : t.forwards = false)
    (hl : AsksForward w msg) (hcodec : (t.clientSend msg).client.stream.codec = t.client.stream.codec) :
    Base w (t.clientSend msg) (up ++ [msg]) down where
  serverRaw := h.serverRaw
  loginFramed hp := by rw [hcodec]; exact h.loginFramed hp
  forwardRaw hp := by rw [hcodec]; exact h.forwardRaw hp
  emptied := h.emptied
  closed := h.closed
  unauthorized := h.unauthorized
  window := h.window
  asked := h.asked
  logins := by
    intro bytes hb
    rcases List.mem_append.mp hb with hb | hb
    · exact h.logins bytes hb
    · rwa [List.mem_singleton.mp hb]
  echoes := h.echoes
  infoAhead := h.infoAhead
  noInfo := h.noInfo
  clientRaw hr := h.clientRaw (by rwa [hcodec] at hr)
  settled hs := by
    have : t.forwards = true := hs
    rw [hf] at this
    cases this

theorem codec_sendRaw (msg : Bytes) (s : FramedStream B) : (s.sendRaw msg).1.codec = s.codec := by
  unfold sendRaw
  split <;> rfl

theorem inv_clientSend (hup : Carries t.client t.server t.buffer up upRaw)
    (hdown : Carries t.server t.client [] down downRaw) (h : Base w t up down)
    (hphase : t.phase = .login) (hf : t.forwards = false) {msg : Bytes} (hmsg : Short msg)
    (hl : AsksForward w msg) (hrec : t.client.received ≠ [])
    (hhash : ∀ d ∈ down, isHash w d = false)
    (hfirst : ∀ bytes ∈ (t.client.sent ++ [msg]).head?, ∃ lr, w.parse bytes = some (.loginRequest lr))
    (hcount : t.conn.ended = false → up.countP (isAnswer w) + down.countP (isTest w) +
      (if isAnswer w msg then 1 else 0) = if t.conn.lastTestDelay.isSome then 1 else 0) :
    Inv w (t.clientSend msg) := by
  have hcr := h.loginFramed hphase
  have hsr : t.server.stream.codec.raw = false := h.serverRaw.trans hf
  refine ⟨up ++ [msg], down, [], downRaw, hup.send hcr hsr hmsg, hdown.send_reader msg _,
    h.clientSend hf hl (codec_sendRaw msg _), hfirst, fun hr => absurd hr hrec, fun _ _ => ?_,
    fun he _ => ?_⟩
  · exact ⟨by simp [Tunnel.clientSend, Endpoint.send], hhash⟩
  · have := hcount he
    rw [List.countP_append, List.countP_singleton]
    change _ = if t.conn.lastTestDelay.isSome then 1 else 0
    omega

theorem authorized_of_forwards (h : Base w t up down) (hf : t.forwards = true) :
    t.conn.authorized = true := by
  by_contra hno
  have hsock := h.unauthorized (by simpa using hno)
  simp [forwards, hsock] at hf

/-- While the client logs in, raw bytes are behind the peer information only. -/
theorem down_framed (hdown : Carries t.server t.client [] down downRaw) (h : Base w t up down)
    (hphase : t.phase = .login) (hnil : down = []) : downRaw = [] := by
  apply hdown.link.unmixed
  rw [h.serverRaw]
  by_contra hf
  obtain ⟨ds, d, hd, -⟩ := h.infoAhead hphase (authorized_of_forwards h (by simpa using hf))
  simp [hnil] at hd

theorem Base.clientRead (h : Base w t up down) (hphase : t.phase = .login) {client : Endpoint B}
    (hraw : client.stream.codec.raw = false) {m : Bytes} {rest : List Bytes}
    (hms : down = m :: rest) (hm : isPeerInfo w m = false) :
    Base w { t with client := client } up rest where
  serverRaw := h.serverRaw
  loginFramed _ := hraw
  forwardRaw hp := by
    have : t.phase = .forward := hp
    rw [hphase] at this
    cases this
  emptied := h.emptied
  closed := h.closed
  unauthorized := h.unauthorized
  window := h.window
  asked := h.asked
  logins := h.logins
  echoes bytes hb := h.echoes bytes (by rw [hms]; exact List.mem_cons_of_mem m hb)
  infoAhead hp ha := by
    obtain ⟨ds, d, hd, hinfo, hds⟩ := h.infoAhead hp ha
    rw [hms] at hd
    cases ds with
    | nil =>
      simp only [List.nil_append, List.cons.injEq] at hd
      rw [hd.1, hinfo] at hm
      cases hm
    | cons m' ds =>
      simp only [List.cons_append, List.cons.injEq] at hd
      exact ⟨ds, d, hd.2, hinfo, fun x hx => hds x (List.mem_cons_of_mem m' hx)⟩
  noInfo ha d hd := h.noInfo ha d (by rw [hms]; exact List.mem_cons_of_mem m hd)
  clientRaw hr := by
    change client.stream.codec.raw = true at hr
    rw [hraw] at hr
    cases hr
  settled hf := by
    obtain ⟨hup, hd⟩ := h.settled hf
    exact ⟨hup, fun hp d hmem => hd hp d (by rw [hms]; exact List.mem_cons_of_mem m hmem)⟩

/-- The client leaves its message loop with the last message of the server. -/
theorem Base.enterForward (h : Base w t up down) (hphase : t.phase = .login) {m : Bytes}
    {rest : List Bytes} (hms : down = m :: rest) (hm : isPeerInfo w m = true) :
    rest = [] ∧ t.conn.authorized = true := by
  cases ha : t.conn.authorized with
  | false =>
    have := h.noInfo ha m (by rw [hms]; exact List.mem_cons_self)
    rw [hm] at this
    cases this
  | true =>
    obtain ⟨ds, d, hd, -, hds⟩ := h.infoAhead hphase ha
    rw [hms] at hd
    cases ds with
    | nil =>
      simp only [List.nil_append, List.cons.injEq] at hd
      exact ⟨hd.2, rfl⟩
    | cons m' ds =>
      simp only [List.cons_append, List.cons.injEq] at hd
      have := hds m (by rw [hd.1]; exact List.mem_cons_self)
      rw [hm] at this
      cases this

theorem Protocol.over (h : Protocol w t up down) :
    Protocol w { t with phase := .over } up down where
  serverRaw := h.serverRaw
  loginFramed hp := by cases hp
  forwardRaw hp := by cases hp
  emptied hp := by cases hp
  closed := h.closed
  unauthorized := h.unauthorized
  window := h.window
  asked := h.asked
  logins := h.logins
  echoes := h.echoes
  infoAhead hp := by cases hp
  noInfo := h.noInfo
  clientRaw := h.clientRaw
  settled hf := ⟨(h.settled hf).1, fun hp => by cases hp⟩
  first := h.first
  hashAhead := h.hashAhead
  hashRead _ hp := by cases hp
  outstanding he hp := h.outstanding he (hp.imp_left fun hp => by cases hp)

theorem Inv.over (h : Inv w t) : Inv w { t with phase := .over } := by
  obtain ⟨up, down, upRaw, downRaw, hup, hdown, hp⟩ := h
  exact ⟨up, down, upRaw, downRaw, hup, hdown, hp.over⟩

/-- A message that is neither a hash nor a `TestDelay` of the server changes nothing. -/
theorem Protocol.clientRead (h : Protocol w t up down) (hphase : t.phase = .login)
    {stream : FramedStream B} (hraw : stream.codec.raw = false) {m : Bytes} {rest : List Bytes}
    (hms : down = m :: rest) (hm : Inert w m) :
    Protocol w { t with client := { t.client with stream, received := t.client.received ++ [m] } }
      up rest where
  toBase := h.toBase.clientRead hphase hraw hms hm.2.2
  first := h.first
  hashAhead hr := by simp at hr
  hashRead _ _ := by
    by_cases hr : t.client.received = []
    · obtain ⟨-, bytes, rest', hd, hhash, -⟩ := h.hashAhead hr
      rw [hms, List.cons.injEq] at hd
      have := hm.2.1
      rw [hd.1, hhash] at this
      cases this
    · obtain ⟨hs, hd⟩ := h.hashRead hr hphase
      exact ⟨hs, fun d hmem => hd d (by rw [hms]; exact List.mem_cons_of_mem m hmem)⟩
  outstanding he _ := by
    have hc := h.outstanding he (.inl hphase)
    rw [hms, List.countP_cons_of_neg (by simp [hm.1])] at hc
    exact hc

/-- Only the first message of the server is a hash, and it is the first the client reads. -/
theorem Protocol.hash_first (h : Protocol w t up down) (hphase : t.phase = .login) {m : Bytes}
    {rest : List Bytes} (hms : down = m :: rest) :
    (isHash w m = true ∧ t.client.sent = [] ∨ isHash w m = false ∧ t.client.sent ≠ []) ∧
      ∀ d ∈ rest, isHash w d = false := by
  by_cases hr : t.client.received = []
  · obtain ⟨hs, bytes, rest', hd, hhash, hrest⟩ := h.hashAhead hr
    rw [hms, List.cons.injEq] at hd
    rw [hd.1, hd.2]
    exact ⟨.inl ⟨hhash, hs⟩, hrest⟩
  · obtain ⟨hs, hd⟩ := h.hashRead hr hphase
    rw [hms] at hd
    exact ⟨.inr ⟨hd m List.mem_cons_self, hs⟩, fun d hmem => hd d (List.mem_cons_of_mem m hmem)⟩

theorem head?_append_of_ne_nil {α : Type*} {l l' : List α} (h : l ≠ []) :
    (l ++ l').head? = l.head? := by
  cases l with
  | nil => exact absurd rfl h
  | cons a l => rfl

theorem inv_enterForward {t₀ : Tunnel B} (hup : Carries t.client t.server t.buffer up upRaw)
    {m : Bytes} (hdown : Carries t.server t.client [] [] downRaw)
    (h : Protocol w t₀ up [m]) (hphase : t₀.phase = .login) (hm : isPeerInfo w m = true)
    {stream : FramedStream B}
    (ht : t = { t₀ with client := { t₀.client with
      stream
      received := t₀.client.received ++ [m] } }) : Inv w t.enterForward := by
  obtain ⟨-, hauth⟩ := h.toBase.enterForward hphase rfl hm
  have hout : t.buffer ++ ([] ++ t.client.unread) = t.buffer ++ t.client.setRaw.unread := rfl
  refine ⟨up, [], upRaw ++ t.buffer, downRaw, hup.setRaw_writer.sendBytes rfl hout, ?_, ?_⟩
  · exact hdown.setRaw_reader.net_writer _ _ rfl
  · have htest : isTest w m = false := by
      have : w.parseClient m = some .loginPeerInfo := by simpa [isPeerInfo] using hm
      simp [isTest, this]
    subst ht
    exact
      { serverRaw := h.serverRaw
        loginFramed := fun hp => by cases hp
        forwardRaw := fun _ => rfl
        emptied := fun _ => rfl
        closed := h.closed
        unauthorized := h.unauthorized
        window := h.window
        asked := h.asked
        logins := h.logins
        echoes := fun _ hb => by cases hb
        infoAhead := fun hp => by cases hp
        noInfo := fun _ _ hd => by cases hd
        clientRaw := fun _ => ⟨rfl, hauth⟩
        settled := fun hf => ⟨(h.settled hf).1, fun hp => by cases hp⟩
        first := h.first
        hashAhead := fun hr => absurd hr (by simp [enterForward, clientSendBytes, Endpoint.setRaw])
        hashRead := fun _ hp => by cases hp
        outstanding := fun he _ => by
          have hc := h.outstanding he (.inl hphase)
          rw [List.countP_cons_of_neg (by simp [htest])] at hc
          exact hc }

/-- The user interface sends a message that is no answer to a `TestDelay`. -/
theorem inv_uiSend (hup : Carries t.client t.server t.buffer up upRaw)
    (hdown : Carries t.server t.client [] down downRaw) (h : Protocol w t up down)
    (hphase : t.phase = .login) (hf : t.forwards = false) {msg : Bytes} (hmsg : Short msg)
    (hl : AsksForward w msg) (hrec : t.client.received ≠ []) (hanswer : isAnswer w msg = false) :
    Inv w (t.clientSend msg) := by
  obtain ⟨hsent, hhash⟩ := h.hashRead hrec hphase
  refine inv_clientSend hup hdown h.toBase hphase hf hmsg hl hrec hhash ?_ fun he => ?_
  · rw [head?_append_of_ne_nil hsent]
    exact h.first
  · have hc := h.outstanding he (.inl hphase)
    rw [hanswer]
    exact hc

/-- The client handles the message `m` in the state `t` in which it was just read. -/
theorem inv_clientMessage {t₀ : Tunnel B} (hup : Carries t.client t.server t.buffer up upRaw)
    {rest : List Bytes} {m : Bytes} (hdown : Carries t.server t.client [] rest downRaw)
    (h : Protocol w t₀ up (m :: rest)) (hphase : t₀.phase = .login) {stream : FramedStream B}
    (hraw : stream.codec.raw = false)
    (ht : t = { t₀ with client := { t₀.client with
      stream
      received := t₀.client.received ++ [m] } }) (login : Login w) (retry : Bool)
    (hlogin : Short login.bytes) : Inv w (t.clientMessage w login retry m) := by
  have hrec : t.client.received ≠ [] := by simp [ht]
  have hphase' : t.phase = .login := by rw [ht]; exact hphase
  have hsent : t.client.sent = t₀.client.sent := by rw [ht]
  have hconn : t.conn = t₀.conn := by rw [ht]
  have hfwd : t.forwards = t₀.forwards := by rw [ht]; rfl
  obtain ⟨hhash, hrest⟩ := h.hash_first hphase rfl
  have hquiet : Inert w m → Inv w t := by
    intro hm
    subst ht
    exact ⟨up, rest, upRaw, downRaw, hup, hdown, h.clientRead hphase hraw rfl hm⟩
  have hbase : isPeerInfo w m = false → Base w t up rest := by
    intro hm
    subst ht
    exact h.toBase.clientRead hphase hraw rfl hm
  -- the server is not raw yet when an answer is due
  have hlate : isTest w m = true ∨ isHash w m = true → t.forwards = false := by
    intro hm
    rw [hfwd]
    by_contra hf
    obtain ⟨htest, hh⟩ := (h.settled (by simpa using hf)).2 hphase m List.mem_cons_self
    rcases hm with hm | hm
    · rw [htest] at hm
      cases hm
    · rw [hh] at hm
      cases hm
  unfold clientMessage
  split
  case h_1 hparse =>
    exact (hquiet (by simp [Inert, isTest, isHash, isPeerInfo, hparse])).over
  case h_2 hparse =>
    have hm : isHash w m = true := by simp [isHash, hparse]
    have hnil : t.client.sent = [] := by
      rcases hhash with ⟨-, hs⟩ | ⟨hno, -⟩
      · rw [hsent, hs]
      · rw [hm] at hno
        cases hno
    refine inv_clientSend hup hdown (hbase (by simp [isPeerInfo, hparse])) hphase'
      (hlate (.inr hm)) hlogin ?_ hrec hrest ?_ ?_
    · intro m' hm' lr hlr
      rw [login.parses] at hm'
      cases hm'
      cases hlr
      exact ⟨_, login.asks⟩
    · rw [hnil]
      intro bytes hb
      have : bytes = login.bytes := by simpa using hb.symm
      exact ⟨login.lr, by rw [this, login.parses]⟩
    · intro he
      have hc := h.outstanding (by rwa [← hconn]) (.inl hphase)
      have htest : isTest w m = false := by simp [isTest, hparse]
      have hanswer : isAnswer w login.bytes = false := by
        simp [isAnswer, login.parses, Connection.isReply]
      rw [List.countP_cons_of_neg (by simp [htest])] at hc
      simp only [hanswer, hconn, hc, Bool.false_eq_true, if_false, Nat.add_zero]
  case h_3 hparse =>
    have hinv := hquiet (by simp [Inert, isTest, isHash, isPeerInfo, hparse])
    split
    · exact hinv
    · exact hinv.over
  case h_4 hparse =>
    have hm : isPeerInfo w m = true := by simp [isPeerInfo, hparse]
    obtain ⟨rfl, -⟩ := h.toBase.enterForward hphase rfl hm
    exact inv_enterForward hup hdown h hphase hm ht
  case h_5 td hparse =>
    split
    · rename_i hfrom
      exact hquiet (by simp [Inert, isTest, isHash, isPeerInfo, hparse, hfrom])
    · rename_i hfrom
      have hfrom' : td.fromClient = false := by simpa using hfrom
      have hm : isTest w m = true := by simp [isTest, hparse, hfrom']
      have hne : t.client.sent ≠ [] := by
        rcases hhash with ⟨hyes, -⟩ | ⟨-, hs⟩
        · simp [isHash, hparse] at hyes
        · rwa [hsent]
      refine inv_clientSend hup hdown (hbase (by simp [isPeerInfo, hparse])) hphase'
        (hlate (.inl hm)) (h.echoes m List.mem_cons_self td hparse hfrom') ?_ hrec hrest ?_ ?_
      · intro m' hm' lr hlr
        rw [w.parse_testDelay] at hm'
        cases hm'
        cases hlr
      · rw [head?_append_of_ne_nil hne, hsent]
        exact h.first
      · intro he
        have hc := h.outstanding (by rwa [← hconn]) (.inl hphase)
        have hanswer : isAnswer w (w.write (.testDelay td)) = true := by
          simp [isAnswer, w.parse_testDelay, Connection.isReply, hfrom']
        rw [List.countP_cons_of_pos hm] at hc
        simp only [hanswer, hconn, if_true]
        omega
  case h_6 hparse =>
    exact hquiet (by simp [Inert, isTest, isHash, isPeerInfo, hparse])

theorem inv_clientNext (h : Inv w t) (login : Login w) (retry : Bool)
    (hlogin : Short login.bytes) : Inv w (t.clientNext w login retry) := by
  obtain ⟨up, down, upRaw, downRaw, hup, hdown, hp⟩ := h
  unfold clientNext
  split
  case h_1 hphase =>
    have hfound := hdown.next (hp.loginFramed hphase) (down_framed hdown hp.toBase hphase)
    have hwriter := fun received => hup.next_writer received t.client.delivered
    generalize t.client.stream.next = d at hfound hwriter
    cases hfound with
    | @waits stream hraw hc =>
      exact ⟨up, down, upRaw, downRaw, hwriter t.client.received, hc,
        hp.congr rfl rfl rfl (hraw.trans (hp.loginFramed hphase).symm) rfl rfl rfl fun _ => rfl⟩
    | @message stream m rest hms hraw hc =>
      subst hms
      exact inv_clientMessage (hwriter (t.client.received ++ [m])) hc hp hphase hraw rfl login retry
        hlogin
  case h_2 hphase =>
    have hcr := hp.forwardRaw hphase
    have hwriter := fun delivered => hup.next_writer t.client.received delivered
    rcases hdown.next_raw hcr with hn | ⟨stream, bytes, rest, hn, hraw, hc⟩
    · rw [hn]
      exact ⟨up, down, upRaw, downRaw, hup, hdown, hp⟩
    · obtain ⟨rfl, -⟩ := hp.clientRaw hcr
      rw [hn] at hwriter ⊢
      exact ⟨up, [], upRaw, rest, hwriter _, hc, 
        hp.congr rfl rfl rfl (hraw.trans hcr.symm) rfl rfl rfl fun _ => rfl⟩
  case h_3 hphase => exact ⟨up, down, upRaw, downRaw, hup, hdown, hp⟩

theorem inv_clientForward (h : Inv w t) (n : Nat) : Inv w (t.clientForward n) := by
  obtain ⟨up, down, upRaw, downRaw, hup, hdown, hp⟩ := h
  unfold clientForward
  split
  case h_1 hphase =>
    exact ⟨up, down, upRaw, downRaw, hup.hold n, hdown.unread_reader _,
      hp.congr rfl rfl rfl rfl rfl rfl rfl fun hf => by rw [hphase] at hf; cases hf⟩
  case h_2 hphase =>
    have hout : t.client.unread.take n ++ (t.buffer ++ t.client.unread.drop n) =
        t.buffer ++ t.client.unread := by
      rw [hp.emptied hphase]
      exact List.take_append_drop n _
    refine ⟨up, down, _, downRaw, hup.sendBytes (hp.forwardRaw hphase) hout, ?_,
      hp.congr rfl rfl rfl rfl rfl rfl rfl fun _ => rfl⟩
    exact (hdown.unread_reader _).net_writer _ _ rfl
  case h_3 => exact ⟨up, down, upRaw, downRaw, hup, hdown, hp⟩

/-! ### The server -/

/-- What sending leaves as it was. -/
structure Kept (t t' : Tunnel B) : Prop where
  conn : t'.conn = t.conn
  phase : t'.phase = t.phase
  buffer : t'.buffer = t.buffer
  serverCodec : t'.server.stream.codec = t.server.stream.codec
  serverReceived : t'.server.received = t.server.received
  clientStream : t'.client.stream = t.client.stream
  clientSent : t'.client.sent = t.client.sent
  clientReceived : t'.client.received = t.client.received

theorem kept_serverSendAll (w : Wire) (ms : List Outgoing) (t : Tunnel B) :
    Kept t (t.serverSendAll w ms) := by
  induction ms generalizing t with
  | nil => exact ⟨rfl, rfl, rfl, rfl, rfl, rfl, rfl, rfl⟩
  | cons m ms ih =>
    obtain ⟨h₁, h₂, h₃, h₄, h₅, h₆, h₇, h₈⟩ := ih (t.serverSend (w.write m))
    exact ⟨h₁, h₂, h₃, h₄.trans (codec_sendRaw _ _), h₅, h₆, h₇, h₈⟩

theorem carries_serverSendAll {ms : List Outgoing}
    (hup : Carries t.client t.server t.buffer up upRaw)
    (hdown : Carries t.server t.client [] down downRaw)
    (hs : t.server.stream.codec.raw = false) (hc : t.client.stream.codec.raw = false)
    (hshort : ∀ m ∈ ms, Short (w.write m)) :
    Carries (t.serverSendAll w ms).client (t.serverSendAll w ms).server
        (t.serverSendAll w ms).buffer up upRaw ∧
      Carries (t.serverSendAll w ms).server (t.serverSendAll w ms).client []
        (down ++ ms.map w.write) [] := by
  induction ms generalizing t down downRaw with
  | nil =>
    have hnil := hdown.link.unmixed hs
    subst hnil
    simpa [serverSendAll] using ⟨hup, hdown⟩
  | cons m ms ih =>
    have hdown' := hdown.send hs hc (hshort m List.mem_cons_self)
    have hup' := hup.send_reader (w.write m) (t.client.net ++ (t.server.send (w.write m)).2)
    have hs' : (t.serverSend (w.write m)).server.stream.codec.raw = false := by
      rw [show (t.serverSend (w.write m)).server.stream.codec = t.server.stream.codec from
        codec_sendRaw _ _]
      exact hs
    have := ih (t := t.serverSend (w.write m)) hup' hdown' hs' hc
      fun m' hm' => hshort m' (List.mem_cons_of_mem m hm')
    simpa [serverSendAll, List.append_assoc] using this

theorem inert_write {m : Outgoing} (h : m.acts = false) : Inert w (w.write m) := by
  have hraw : ∀ bytes, m ≠ .raw bytes := by
    rintro bytes rfl
    cases h
  have hp := w.parseClient_write m hraw
  have hkind : m.forClient = .loginError ∨ m.forClient = .other := by
    cases m <;> simp_all [Outgoing.acts, Outgoing.forClient]
  rcases hkind with hk | hk <;> simp [Inert, isTest, isHash, isPeerInfo, hp, hk]

theorem peerInfo_write : isPeerInfo w (w.write .loginPeerInfo) = true ∧
    isTest w (w.write .loginPeerInfo) = false ∧ isHash w (w.write .loginPeerInfo) = false := by
  have hp := w.parseClient_write .loginPeerInfo fun bytes h => by cases h
  simp [isPeerInfo, isTest, isHash, hp, Outgoing.forClient]

theorem test_write (td : TestDelay) : w.parseClient (w.write (.testDelay td)) = some (.testDelay td) :=
  w.parseClient_write (.testDelay td) fun bytes h => by cases h

/-- A message that is no `TestDelay` of the server needs no answer. -/
theorem echoes_of_not_test {d : Bytes} (h : isTest w d = false) (td : TestDelay)
    (hd : w.parseClient d = some (.testDelay td)) (hf : td.fromClient = false) :
    Short (w.write (.testDelay td)) := by
  simp [isTest, hd, hf] at h

/-- The facts about a turn of the server that the protocol needs: `conn'` is the connection
after it, `received` the messages read so far, `rest` is left of `up`, `news` was sent. -/
structure TurnFacts (w : Wire) (t : Tunnel B) (conn' : Connection)
    (up down received rest news : List Bytes) : Prop where
  left : ∀ x ∈ rest, x ∈ up
  noHash : ∀ d ∈ news, isHash w d = false
  echoes : ∀ d ∈ news, ∀ td, w.parseClient d = some (.testDelay td) → td.fromClient = false →
    Short (w.write (.testDelay td))
  closed : conn'.ended = false → conn'.closed = false
  unauthorized : conn'.authorized = false → conn'.portForwardSocket = none
  window : conn'.ended = false → conn'.authorized = true →
    conn'.portForwardSocket.isSome = true ∧ conn'.lastTestDelay.isSome = true
  asked : conn'.ended = false → conn'.authorized = false → received ≠ [] →
    ∃ pf, conn'.lr.union = some (.portForward pf)
  infoAhead : t.phase = .login → conn'.authorized = true →
    ∃ ds d, down ++ news = ds ++ [d] ∧ isPeerInfo w d = true ∧ ∀ d ∈ ds, isPeerInfo w d = false
  noInfo : conn'.authorized = false → ∀ d ∈ down ++ news, isPeerInfo w d = false
  clientRaw : t.client.stream.codec.raw = true → news = [] ∧ conn'.authorized = true
  settled : conn'.ended = true → conn'.portForwardSocket.isSome = true →
    t.client.sent ≠ [] ∧ rest = [] ∧ (t.phase = .login → ∀ d ∈ down ++ news, isTest w d = false)
  outstanding : conn'.ended = false → (t.phase = .login ∨ t.client.stream.codec.raw = true) →
    rest.countP (isAnswer w) + (down ++ news).countP (isTest w) =
      if conn'.lastTestDelay.isSome then 1 else 0

theorem Protocol.turned {t' : Tunnel B} {conn' : Connection} {rest news : List Bytes}
    (h : Protocol w t up down) (f : TurnFacts w t conn' up down t'.server.received rest news)
    (hc : t'.conn = conn') (hp : t'.phase = t.phase) (hb : t'.buffer = t.buffer)
    (hr : t'.client.stream.codec.raw = t.client.stream.codec.raw)
    (hcs : t'.client.sent = t.client.sent) (hcr : t'.client.received = t.client.received)
    (hs : t'.server.stream.codec.raw = t'.forwards) : Protocol w t' rest (down ++ news) where
  serverRaw := hs
  loginFramed := by rw [hp, hr]; exact h.loginFramed
  forwardRaw := by rw [hp, hr]; exact h.forwardRaw
  emptied := by rw [hp, hb]; exact h.emptied
  closed := by rw [hc]; exact f.closed
  unauthorized := by rw [hc]; exact f.unauthorized
  window := by rw [hc]; exact f.window
  asked := by rw [hc]; exact f.asked
  logins bytes hb := h.logins bytes (f.left bytes hb)
  echoes d hd := by
    rcases List.mem_append.mp hd with hd | hd
    · exact h.echoes d hd
    · exact f.echoes d hd
  infoAhead := by rw [hp, hc]; exact f.infoAhead
  noInfo := by rw [hc]; exact f.noInfo
  clientRaw hraw := by
    rw [hr] at hraw
    obtain ⟨hnews, ha⟩ := f.clientRaw hraw
    rw [hnews, (h.clientRaw hraw).1, hc]
    exact ⟨rfl, ha⟩
  settled hf := by
    simp only [forwards, hc, Bool.and_eq_true] at hf
    obtain ⟨hheard, hrest, htest⟩ := f.settled hf.1 hf.2
    refine ⟨hrest, fun hph d hd => ⟨htest (hp ▸ hph) d hd, ?_⟩⟩
    rcases List.mem_append.mp hd with hd | hd
    · have hrec : t.client.received ≠ [] := fun hnil => hheard (h.hashAhead hnil).1
      exact (h.hashRead hrec (hp ▸ hph)).2 d hd
    · exact f.noHash d hd
  first := by rw [hcs]; exact h.first
  hashAhead hnil := by
    rw [hcr] at hnil
    obtain ⟨hs, bytes, rest', hd, hhash, hrest⟩ := h.hashAhead hnil
    rw [hcs]
    refine ⟨hs, bytes, rest' ++ news, by rw [hd]; rfl, hhash, fun d hm => ?_⟩
    rcases List.mem_append.mp hm with hm | hm
    · exact hrest d hm
    · exact f.noHash d hm
  hashRead hne hph := by
    rw [hcr] at hne
    rw [hp] at hph
    obtain ⟨hs, hd⟩ := h.hashRead hne hph
    rw [hcs]
    refine ⟨hs, fun d hm => ?_⟩
    rcases List.mem_append.mp hm with hm | hm
    · exact hd d hm
    · exact f.noHash d hm
  outstanding he hph := by
    rw [hc] at he ⊢
    rw [hp, hr] at hph
    exact f.outstanding he hph

theorem Base.waiting (h : Base w t up down) (he : t.conn.ended = false) :
    Connection.Waiting t.conn :=
  ⟨he, h.closed he, h.unauthorized, h.window he⟩

theorem countP_append_zero {α : Type*} {p : α → Bool} {l l' : List α} (h : ∀ x ∈ l', p x = false) :
    (l ++ l').countP p = l.countP p := by
  have hz : l'.countP p = 0 := List.countP_eq_zero.mpr fun x hx => by simp [h x hx]
  rw [List.countP_append, hz, Nat.add_zero]

/-- The messages sent in one turn, for a turn that sends only messages the client does not
act on. -/
theorem inert_news {ms : List Outgoing} (h : ∀ m ∈ ms, m.acts = false) :
    ∀ d ∈ ms.map w.write, Inert w d := by
  intro d hd
  obtain ⟨m, hm, rfl⟩ := List.mem_map.mp hd
  exact inert_write (h m hm)

section Turn

variable {conn' : Connection} {received rest news : List Bytes}

/-- A turn that authorizes nothing, and after which nothing new is asked of the client. -/
theorem turnFacts_inert (h : Protocol w t up down) (hleft : ∀ x ∈ rest, x ∈ up)
    (hnews : ∀ d ∈ news, Inert w d) (hsilent : t.conn.authorized = true → news = [])
    (hauth : conn'.authorized = t.conn.authorized)
    (hclosed : conn'.ended = false → conn'.closed = false)
    (hsock : conn'.authorized = false → conn'.portForwardSocket = none)
    (hwindow : conn'.ended = false → conn'.authorized = true →
      conn'.portForwardSocket.isSome = true ∧ conn'.lastTestDelay.isSome = true)
    (hasked : conn'.ended = false → conn'.authorized = false → received ≠ [] →
      ∃ pf, conn'.lr.union = some (.portForward pf))
    (hsettled : conn'.ended = true → conn'.portForwardSocket.isSome = true →
      t.client.sent ≠ [] ∧ rest = [] ∧ (t.phase = .login → ∀ d ∈ down, isTest w d = false))
    (hout : conn'.ended = false → (t.phase = .login ∨ t.client.stream.codec.raw = true) →
      rest.countP (isAnswer w) + down.countP (isTest w) =
        if conn'.lastTestDelay.isSome then 1 else 0) :
    TurnFacts w t conn' up down received rest news where
  left := hleft
  noHash d hd := (hnews d hd).2.1
  echoes d hd := echoes_of_not_test (hnews d hd).1
  closed := hclosed
  unauthorized := hsock
  window := hwindow
  asked := hasked
  infoAhead hp ha := by
    rw [hauth] at ha
    rw [hsilent ha, List.append_nil]
    exact h.infoAhead hp ha
  noInfo ha d hd := by
    rw [hauth] at ha
    rcases List.mem_append.mp hd with hd | hd
    · exact h.noInfo ha d hd
    · exact (hnews d hd).2.2
  clientRaw hr := by
    have ha := (h.clientRaw hr).2
    rw [hauth]
    exact ⟨hsilent ha, ha⟩
  settled he hs := by
    obtain ⟨hheard, hrest, htest⟩ := hsettled he hs
    refine ⟨hheard, hrest, fun hp d hd => ?_⟩
    rcases List.mem_append.mp hd with hd | hd
    · exact htest hp d hd
    · exact (hnews d hd).1
  outstanding he hp := by
    rw [countP_append_zero fun d hd => (hnews d hd).1]
    exact hout he hp

/-- A turn of the loop that is left to describe, with what the two ends have read and sent. -/
structure Turning (w : Wire) (t : Tunnel B) (ev : Event) (conn' : Connection)
    (up down received rest : List Bytes) : Prop where
  protocol : Protocol w t up down
  running : t.conn.ended = false
  left : ∀ x ∈ rest, x ∈ up
  count : rest.countP (isAnswer w) + (if Connection.replies ev then 1 else 0) =
    up.countP (isAnswer w)
  read : received ≠ [] → (∃ m, ev = .message m) ∨ t.server.received ≠ []
  heard : (∃ m, ev = .message m) ∨ ev = .cm .authorize → t.client.sent ≠ []
  after : Connection.replies ev = true → t.server.received ≠ []
  short : ∀ m ∈ Connection.sentSince t.conn conn', Short (w.write m)
  relay : ∀ m, Connection.relayed ev = some m → Inert w (w.write m)
  silent : t.conn.authorized = true → Connection.sentSince t.conn conn' = []
  leaves : conn'.ended = true → conn'.portForwardSocket.isSome = true →
    rest = [] ∧ (ev = .cm .authorize → t.conn.lastTestDelay = none)

variable {env : Env} {ev : Event} {lr : LoginRequest} {acted : List Outgoing}

namespace Turning

theorem outstanding (h : Turning w t ev conn' up down received rest)
    (hp : t.phase = .login ∨ t.client.stream.codec.raw = true) :
    rest.countP (isAnswer w) + down.countP (isTest w) +
        (if Connection.replies ev then 1 else 0) =
      if t.conn.lastTestDelay.isSome then 1 else 0 := by
  have hout := h.protocol.outstanding h.running hp
  have hcount := h.count
  omega

/-- With an answer just read, or none expected, no question is on its way to the client. -/
theorem noTest (h : Turning w t ev conn' up down received rest) (hp : t.phase = .login)
    (hnone : t.conn.lastTestDelay = none ∨ Connection.replies ev = true) :
    ∀ d ∈ down, isTest w d = false := by
  have hc := h.outstanding (.inl hp)
  have hz : down.countP (isTest w) = 0 := by
    rcases hnone with hnone | hreply
    · rw [hnone] at hc
      simp only [Option.isSome_none, Bool.false_eq_true, if_false] at hc
      omega
    · rw [hreply, if_pos rfl] at hc
      split at hc <;> omega
  intro d hd
  simpa using List.countP_eq_zero.mp hz d hd

theorem silent_map (h : Turning w t ev conn' up down received rest)
    (ha : t.conn.authorized = true) : (Connection.sentSince t.conn conn').map w.write = [] := by
  rw [h.silent ha]
  rfl

theorem asked (h : Turning w t ev conn' up down received rest)
    (hlr : lr = t.conn.lr ∨ Connection.AsksPortForward lr)
    (hmsg : t.conn.authorized = false → (∃ m, ev = .message m) → Connection.AsksPortForward lr)
    (ha : t.conn.authorized = false) (hr : received ≠ []) : Connection.AsksPortForward lr := by
  rcases h.read hr with hm | hr
  · exact hmsg ha hm
  · rcases hlr with rfl | hlr
    · exact h.protocol.asked h.running ha hr
    · exact hlr

end Turning

/-- A turn that leaves the handshake alone, but for the login request. -/
theorem turnFacts_kept (h : Turning w t ev conn' up down received rest)
    (hreply : Connection.replies ev = true → t.conn.lastTestDelay = none)
    (hlr : lr = t.conn.lr ∨ Connection.AsksPortForward lr)
    (hmsg : t.conn.authorized = false → (∃ m, ev = .message m) → Connection.AsksPortForward lr)
    (hh : conn'.handshake = { t.conn.handshake with lr := lr, acted := acted })
    (hnews : ∀ d ∈ (Connection.sentSince t.conn conn').map w.write, Inert w d) :
    TurnFacts w t conn' up down received rest
      ((Connection.sentSince t.conn conn').map w.write) := by
  have hauth : conn'.authorized = t.conn.authorized := congrArg Handshake.authorized hh
  have hsock : conn'.portForwardSocket = t.conn.portForwardSocket := congrArg Handshake.socket hh
  have htd : conn'.lastTestDelay = t.conn.lastTestDelay := congrArg Handshake.lastTestDelay hh
  have hclosed : conn'.closed = t.conn.closed := congrArg Handshake.closed hh
  have hend : conn'.ended = false := (congrArg Handshake.ended hh).trans h.running
  have hlr' : conn'.lr = lr := congrArg Handshake.lr hh
  refine turnFacts_inert h.protocol h.left hnews h.silent_map hauth ?_ ?_ ?_ ?_ ?_ ?_
  · rw [hclosed]
    exact fun _ => h.protocol.closed h.running
  · rw [hauth, hsock]
    exact h.protocol.unauthorized
  · rw [hauth, hsock, htd]
    exact fun _ => h.protocol.window h.running
  · rw [hauth, hlr']
    exact fun _ => h.asked hlr hmsg
  · simp [hend]
  · intro _ hp
    have hc := h.outstanding hp
    rw [htd]
    cases hr : Connection.replies ev with
    | false => simpa [hr] using hc
    | true =>
      rw [hr, hreply hr] at hc
      simp at hc

theorem turnFacts_ended (h : Turning w t ev conn' up down received rest)
    (hauth : conn'.authorized = t.conn.authorized) (hsock : conn'.portForwardSocket = none)
    (hend : conn'.ended = true) (hplain : ∀ m ∈ Connection.sentSince t.conn conn', m.acts = false) :
    TurnFacts w t conn' up down received rest
      ((Connection.sentSince t.conn conn').map w.write) :=
  turnFacts_inert h.protocol h.left (inert_news hplain) h.silent_map hauth (by simp [hend])
    (fun _ => hsock) (by simp [hend]) (by simp [hend]) (by simp [hsock]) (by simp [hend])

/-- The timer asks the client for a `TestDelay`. -/
theorem turnFacts_asks (h : Turning w t ev conn' up down received rest)
    (hreply : Connection.replies ev = false) (htimer : ev = .testDelayTimer false)
    (hnone : t.conn.lastTestDelay = none)
    (hwin : (t.conn.portForwardSocket.isSome && t.conn.authorized) = false)
    (hh : conn'.handshake =
      { t.conn.handshake with lastTestDelay := some env.now, acted := acted })
    (hsent : Connection.sentSince t.conn conn' = [.testDelay { lastDelay := t.conn.networkDelay }]) :
    TurnFacts w t conn' up down received rest
      ((Connection.sentSince t.conn conn').map w.write) := by
  have hauth : conn'.authorized = t.conn.authorized := congrArg Handshake.authorized hh
  have hsock : conn'.portForwardSocket = t.conn.portForwardSocket := congrArg Handshake.socket hh
  have htd : conn'.lastTestDelay = some env.now := congrArg Handshake.lastTestDelay hh
  have hclosed : conn'.closed = t.conn.closed := congrArg Handshake.closed hh
  have hend : conn'.ended = false := (congrArg Handshake.ended hh).trans h.running
  have hlr : conn'.lr = t.conn.lr := congrArg Handshake.lr hh
  have hfalse : t.conn.authorized = false := by
    by_contra hno
    have ha : t.conn.authorized = true := by simpa using hno
    have hs := (h.protocol.window h.running ha).1
    simp [ha, hs] at hwin
  have hshort := h.short
  rw [hsent] at hshort ⊢
  rw [List.map_singleton]
  set td : TestDelay := { lastDelay := t.conn.networkDelay }
  have hparse := test_write (w := w) td
  have hshort' : Short (w.write (.testDelay td)) := hshort _ List.mem_cons_self
  exact
    { left := h.left
      noHash := fun d hd => by
        rw [List.mem_singleton.mp hd]
        simp [isHash, hparse]
      echoes := fun d hd td' hd' _ => by
        rw [List.mem_singleton.mp hd, hparse] at hd'
        cases hd'
        exact hshort'
      closed := fun _ => hclosed.trans (h.protocol.closed h.running)
      unauthorized := fun _ => hsock.trans (h.protocol.unauthorized hfalse)
      window := fun _ ha => by simp [hauth, hfalse] at ha
      asked := fun _ _ hr => by
        rw [hlr]
        refine h.asked (.inl rfl) (fun _ hm => ?_) hfalse hr
        obtain ⟨m, hm⟩ := hm
        rw [htimer] at hm
        cases hm
      infoAhead := fun _ ha => by simp [hauth, hfalse] at ha
      noInfo := fun _ d hd => by
        rcases List.mem_append.mp hd with hd | hd
        · exact h.protocol.noInfo hfalse d hd
        · rw [List.mem_singleton.mp hd]
          simp [isPeerInfo, hparse]
      clientRaw := fun hr => by
        have := (h.protocol.clientRaw hr).2
        rw [hfalse] at this
        cases this
      settled := fun he' => by simp [hend] at he'
      outstanding := fun _ hp => by
        have hc := h.outstanding hp
        have htest : isTest w (w.write (.testDelay td)) = true := by
          simp only [isTest, hparse]
          rfl
        rw [hreply, hnone] at hc
        rw [List.countP_append, List.countP_singleton, htd, htest]
        simp only [Option.isSome_none, Option.isSome_some, Bool.false_eq_true, if_false,
          if_true] at hc ⊢
        omega }

/-- The client has answered, which ends the loop if the forward is open. -/
theorem turnFacts_answers (h : Turning w t ev conn' up down received rest)
    (hreply : Connection.replies ev = true) (hsome : t.conn.lastTestDelay.isSome = true)
    (hh : conn'.handshake = { t.conn.handshake with
      lastTestDelay := none
      ended := t.conn.portForwardSocket.isSome && t.conn.authorized })
    (hsent : Connection.sentSince t.conn conn' = []) :
    TurnFacts w t conn' up down received rest
      ((Connection.sentSince t.conn conn').map w.write) := by
  have hauth : conn'.authorized = t.conn.authorized := congrArg Handshake.authorized hh
  have hsock : conn'.portForwardSocket = t.conn.portForwardSocket := congrArg Handshake.socket hh
  have htd : conn'.lastTestDelay = none := congrArg Handshake.lastTestDelay hh
  have hclosed : conn'.closed = t.conn.closed := congrArg Handshake.closed hh
  have hend : conn'.ended = (t.conn.portForwardSocket.isSome && t.conn.authorized) :=
    congrArg Handshake.ended hh
  have hlr : conn'.lr = t.conn.lr := congrArg Handshake.lr hh
  have hmsg : ∃ m, ev = .message m := by
    cases ev <;> first | exact ⟨_, rfl⟩ | cases hreply
  rw [hsent, List.map_nil]
  refine turnFacts_inert h.protocol h.left (by simp) (fun _ => rfl) hauth ?_ ?_ ?_ ?_ ?_ ?_
  · rw [hclosed]
    exact fun _ => h.protocol.closed h.running
  · rw [hauth, hsock]
    exact h.protocol.unauthorized
  · intro he' ha
    rw [hauth] at ha
    rw [hend, (h.protocol.window h.running ha).1, ha] at he'
    cases he'
  · intro _ ha hr
    rw [hauth] at ha
    rw [hlr]
    exact h.protocol.asked h.running ha (h.after hreply)
  · intro he' hs
    exact ⟨h.heard (.inl hmsg), (h.leaves he' hs).1, fun hp => h.noTest hp (.inr hreply)⟩
  · intro _ hp
    have hc := h.outstanding hp
    rw [hreply, hsome, if_pos rfl] at hc
    rw [htd]
    simp only [Option.isSome_none, Bool.false_eq_true, if_false]
    omega

/-- The forward is opened, and the client is told behind everything else. -/
theorem turnFacts_opens {addr : String} {ms : List Outgoing}
    (h : Turning w t ev conn' up down received rest) (hreply : Connection.replies ev = false)
    (hev : (∃ m, ev = .message m) ∨ ev = .cm .authorize)
    (hh : conn'.handshake = { t.conn.handshake with
      lr := lr
      authorized := true
      socket := some addr
      ended := t.conn.lastTestDelay.isNone || Connection.isClick ev
      acted := acted })
    (hsent : Connection.sentSince t.conn conn' = ms ++ [Outgoing.loginPeerInfo])
    (hplain : ∀ m ∈ ms, m.acts = false) :
    TurnFacts w t conn' up down received rest
      ((Connection.sentSince t.conn conn').map w.write) := by
  have hfalse : t.conn.authorized = false := by
    by_contra hno
    have := h.silent (by simpa using hno)
    simp [hsent] at this
  have hauth : conn'.authorized = true := congrArg Handshake.authorized hh
  have hsock : conn'.portForwardSocket = some addr := congrArg Handshake.socket hh
  have htd : conn'.lastTestDelay = t.conn.lastTestDelay := congrArg Handshake.lastTestDelay hh
  have hclosed : conn'.closed = t.conn.closed := congrArg Handshake.closed hh
  have hend : conn'.ended = (t.conn.lastTestDelay.isNone || Connection.isClick ev) :=
    congrArg Handshake.ended hh
  obtain ⟨hinfo, hntest, hnhash⟩ := peerInfo_write (w := w)
  have hms := inert_news (w := w) hplain
  have hnotest : ∀ d ∈ ms.map w.write ++ [w.write .loginPeerInfo], isTest w d = false := by
    intro d hd
    rcases List.mem_append.mp hd with hd | hd
    · exact (hms d hd).1
    · rw [List.mem_singleton.mp hd]
      exact hntest
  rw [hsent, List.map_append, List.map_singleton]
  exact
    { left := h.left
      noHash := fun d hd => by
        rcases List.mem_append.mp hd with hd | hd
        · exact (hms d hd).2.1
        · rw [List.mem_singleton.mp hd]
          exact hnhash
      echoes := fun d hd => echoes_of_not_test (hnotest d hd)
      closed := fun _ => hclosed.trans (h.protocol.closed h.running)
      unauthorized := fun ha => by simp [hauth] at ha
      window := fun he' _ => by
        refine ⟨by simp [hsock], ?_⟩
        rw [hend] at he'
        rw [htd]
        cases hl : t.conn.lastTestDelay <;> simp_all
      asked := fun _ ha => by simp [hauth] at ha
      infoAhead := fun _ _ => by
        refine ⟨down ++ ms.map w.write, w.write .loginPeerInfo, by simp, hinfo, fun d hd => ?_⟩
        rcases List.mem_append.mp hd with hd | hd
        · exact h.protocol.noInfo hfalse d hd
        · exact (hms d hd).2.2
      noInfo := fun ha => by simp [hauth] at ha
      clientRaw := fun hr => by
        have := (h.protocol.clientRaw hr).2
        rw [hfalse] at this
        cases this
      settled := fun he' hs => by
        obtain ⟨hrest, hclick⟩ := h.leaves he' hs
        have hnone : t.conn.lastTestDelay = none := by
          rcases hev with ⟨m, rfl⟩ | hev
          · rw [hend] at he'
            simpa [Connection.isClick] using he'
          · exact hclick hev
        refine ⟨h.heard hev, hrest, fun hp d hd => ?_⟩
        rcases List.mem_append.mp hd with hd | hd
        · exact h.noTest hp (.inl hnone) d hd
        · exact hnotest d hd
      outstanding := fun _ hp => by
        have hc := h.outstanding hp
        rw [countP_append_zero hnotest, htd]
        simpa [hreply] using hc }

theorem turnFacts (h : Turning w t ev conn' up down received rest)
    (hturn : Connection.Turned t.conn env ev (Connection.replies ev) conn') :
    TurnFacts w t conn' up down received rest
      ((Connection.sentSince t.conn conn').map w.write) := by
  cases hturn with
  | stays lr hreply hlr hmsg hh hplain =>
    exact turnFacts_kept h hreply hlr hmsg hh (inert_news hplain)
  | refuses lr ha hh hplain =>
    have hsock : conn'.portForwardSocket = t.conn.portForwardSocket := congrArg Handshake.socket hh
    exact turnFacts_ended h (congrArg Handshake.authorized hh)
      (hsock.trans (h.protocol.unauthorized ha)) (congrArg Handshake.ended hh) hplain
  | closes hh hplain =>
    exact turnFacts_ended h (congrArg Handshake.authorized hh) (congrArg Handshake.socket hh)
      (congrArg Handshake.ended hh) hplain
  | @relays m acted hreply hrel hh hsent =>
    have hnomsg : ¬ ∃ m, ev = .message m := by
      rintro ⟨m, rfl⟩
      simp [Connection.relayed] at hrel
    refine turnFacts_kept h (by simp [hreply]) (.inl rfl) (fun _ hm => (hnomsg hm).elim) hh ?_
    intro d hd
    rw [hsent, List.map_singleton, List.mem_singleton] at hd
    rw [hd]
    exact h.relay m hrel
  | asks hreply htimer hnone hwin hh hsent =>
    exact turnFacts_asks h hreply htimer hnone hwin hh hsent
  | answers hreply hsome hh hsent => exact turnFacts_answers h hreply hsome hh hsent
  | opens lr addr hreply hev hh hsent hplain =>
    exact turnFacts_opens h hreply hev hh hsent hplain

end Turn

/-- What a turn sends goes out as frames, and nothing goes out when the client may be raw. -/
theorem carries_turn (t₁ : Tunnel B) {rest : List Bytes} {ms : List Outgoing}
    (hup : Carries t₁.client t₁.server t₁.buffer rest upRaw)
    (hdown : Carries t₁.server t₁.client [] down downRaw)
    (hs : t₁.server.stream.codec.raw = false)
    (hc : t₁.client.stream.codec.raw = true → ms = [])
    (hshort : ∀ m ∈ ms, Short (w.write m)) :
    ∃ downRaw', Carries (t₁.serverSendAll w ms).client (t₁.serverSendAll w ms).server
        (t₁.serverSendAll w ms).buffer rest upRaw ∧
      Carries (t₁.serverSendAll w ms).server (t₁.serverSendAll w ms).client []
        (down ++ ms.map w.write) downRaw' := by
  cases hraw : t₁.client.stream.codec.raw with
  | false => exact ⟨[], carries_serverSendAll hup hdown hs hraw hshort⟩
  | true =>
    obtain rfl := hc hraw
    refine ⟨downRaw, hup, ?_⟩
    rw [List.map_nil, List.append_nil]
    exact hdown

theorem inv_serverTurn (t₁ : Tunnel B) {rest : List Bytes} {env : Env} {ev : Event}
    (h : Protocol w t up down) (hconn : t₁.conn = t.conn) (hclient : t₁.client = t.client)
    (hphase : t₁.phase = t.phase) (hbuf : t₁.buffer = t.buffer)
    (hup : Carries t₁.client t₁.server t₁.buffer rest upRaw)
    (hdown : Carries t₁.server t₁.client [] down downRaw)
    (hs : t₁.server.stream.codec.raw = false)
    (f : TurnFacts w t (t.conn.step b (env, ev)) up down t₁.server.received rest
      ((Connection.sentSince t.conn (t.conn.step b (env, ev))).map w.write))
    (hshort : ∀ m ∈ Connection.sentSince t.conn (t.conn.step b (env, ev)), Short (w.write m)) :
    Inv w (t₁.serverTurn w b env ev) := by
  unfold serverTurn
  rw [hconn]
  dsimp only
  generalize hconn' : t.conn.step b (env, ev) = conn' at f hshort ⊢
  generalize Connection.sentSince t.conn conn' = ms at f hshort ⊢
  have hquiet : t₁.client.stream.codec.raw = true → ms = [] := by
    intro hr
    rw [hclient] at hr
    simpa using (f.clientRaw hr).1
  have hk := kept_serverSendAll w ms { t₁ with conn := conn' }
  obtain ⟨downRaw', hup', hdown'⟩ := carries_turn { t₁ with conn := conn' } hup hdown hs
    hquiet hshort
  generalize ({ t₁ with conn := conn' } : Tunnel B).serverSendAll w ms = t' at hk hup' hdown' ⊢
  have hc : t'.conn = conn' := hk.conn
  have hf : TurnFacts w t conn' up down t'.server.received rest (ms.map w.write) := by
    rw [hk.serverReceived]
    exact f
  have hp := hk.phase.trans hphase
  have hb := hk.buffer.trans hbuf
  have hr : t'.client.stream.codec.raw = t.client.stream.codec.raw := by
    rw [hk.clientStream, ← hclient]
  have hcs : t'.client.sent = t.client.sent := by rw [hk.clientSent, ← hclient]
  have hcr : t'.client.received = t.client.received := by rw [hk.clientReceived, ← hclient]
  have hsr : t'.server.stream.codec.raw = false := by rw [hk.serverCodec]; exact hs
  split
  case isTrue hfwd =>
    have hfwd' : conn'.ended = true ∧ conn'.portForwardSocket.isSome = true := by
      simpa [forwards, hc] using hfwd
    obtain ⟨-, rfl, -⟩ := f.settled hfwd'.1 hfwd'.2
    refine ⟨[], down ++ ms.map w.write, upRaw, downRaw', hup'.setRaw_reader,
      hdown'.setRaw_writer, h.turned hf hc hp hb hr hcs hcr ?_⟩
    exact hfwd.symm
  case isFalse hfwd =>
    refine ⟨rest, down ++ ms.map w.write, upRaw, downRaw', hup', hdown',
      h.turned hf hc hp hb hr hcs hcr ?_⟩
    rw [hsr]
    exact (by simpa using hfwd : t'.forwards = false).symm

theorem unreadByServer_eq (hup : Carries t.client t.server t.buffer up upRaw) :
    t.unreadByServer = up := by
  unfold unreadByServer
  rw [hup.sent, List.drop_left]

/-- A branch of the message loop other than `stream.next()`. -/
theorem turnFacts_event {env : Env} {ev : Event}
    (hup : Carries t.client t.server t.buffer up upRaw) (h : Protocol w t up down)
    (he : t.conn.ended = false) (hev : fromStream ev = false)
    (hok : TurnOk w b t env ev t.unreadByServer) :
    TurnFacts w t (t.conn.step b (env, ev)) up down t.server.received up
      ((Connection.sentSince t.conn (t.conn.step b (env, ev))).map w.write) := by
  rw [unreadByServer_eq hup] at hok
  have hnomsg : ¬ ∃ m, ev = .message m := by
    rintro ⟨m, rfl⟩
    cases hev
  have hreply : Connection.replies ev = false := by
    cases ev <;> first | rfl | cases hev
  have hclick : ev = .cm .authorize →
      t.conn.authorized = false ∧ Connection.AsksPortForward t.conn.lr := by
    rintro rfl
    have ha : t.conn.authorized = false := by
      by_contra hno
      have ha : t.conn.authorized = true := by simpa using hno
      obtain ⟨hsock, htd⟩ := h.window he ha
      have hend : (t.conn.step b (env, .cm .authorize)).ended = true ∧ _ :=
        Connection.step_click_authorized he ha hsock
      obtain ⟨he', hs'⟩ := hend
      rw [(hok.leaves he' hs').2 rfl] at htd
      cases htd
    exact ⟨ha, h.asked he ha (hok.click rfl)⟩
  have hturn : Connection.Turned t.conn env ev _ (t.conn.step b (env, ev)) :=
    Connection.step_turned (h.toBase.waiting he) (fun m hm => (hnomsg ⟨m, hm⟩).elim)
      (fun _ hm => (hnomsg hm).elim) hclick
  refine turnFacts ⟨h, he, fun _ hx => hx, by simp [hreply], .inr, ?_, by simp [hreply],
    hok.short, hok.relayed, hok.silent, hok.leaves⟩ hturn
  rintro (hm | hm)
  · exact (hnomsg hm).elim
  · rw [hup.sent]
    simp [hok.click hm]

theorem Protocol.first_read (h : Protocol w t up down) {m : Bytes} {rest : List Bytes}
    (hsent : t.client.sent = t.server.received ++ m :: rest) (hnil : t.server.received = []) :
    ∃ lr, peerEvent w m = .message (.loginRequest lr) := by
  obtain ⟨lr, hlr⟩ := h.first m (by rw [hsent, hnil]; rfl)
  exact ⟨lr, by simp [peerEvent, hlr]⟩

theorem turnFacts_message {env : Env} {m : Bytes} {rest : List Bytes}
    (hsent : t.client.sent = t.server.received ++ m :: rest) (h : Protocol w t (m :: rest) down)
    (he : t.conn.ended = false)
    (hok : TurnOk w b t env (peerEvent w m) rest) :
    TurnFacts w t (t.conn.step b (env, peerEvent w m)) (m :: rest) down
      (t.server.received ++ [m]) rest
      ((Connection.sentSince t.conn (t.conn.step b (env, peerEvent w m))).map w.write) := by
  have hparse : ∀ m', peerEvent w m = .message m' → w.parse m = some m' := by
    intro m' hm'
    unfold peerEvent at hm'
    split at hm'
    · rename_i hp
      rw [hp, Event.message.inj hm']
    · cases hm'
  have hnoclick : peerEvent w m ≠ .cm .authorize := by
    unfold peerEvent
    split <;> simp
  have hreply : Connection.replies (peerEvent w m) = isAnswer w m := by
    unfold peerEvent isAnswer
    cases w.parse m <;> rfl
  have hturn : Connection.Turned t.conn env (peerEvent w m) (Connection.replies (peerEvent w m))
      (t.conn.step b (env, peerEvent w m)) := by
    refine Connection.step_turned (h.toBase.waiting he) (fun m' hm' lr hlr => ?_) (fun ha _ => ?_)
      fun hc => (hnoclick hc).elim
    · exact h.logins m List.mem_cons_self m' (hparse m' hm') lr hlr
    · by_cases hnil : t.server.received = []
      · exact .inr (h.first_read hsent hnil)
      · exact .inl (h.asked he ha hnil)
  refine turnFacts ⟨h, he, fun x hx => List.mem_cons_of_mem m hx, ?_, fun _ => ?_, fun _ => ?_,
    fun hr hnil => ?_, hok.short, hok.relayed, hok.silent, hok.leaves⟩ hturn
  · rw [hreply, List.countP_cons]
  · by_cases hnil : t.server.received = []
    · obtain ⟨lr, hlr⟩ := h.first_read hsent hnil
      exact .inl ⟨_, hlr⟩
    · exact .inr hnil
  · rw [hsent]
    simp
  · obtain ⟨lr, hlr⟩ := h.first_read hsent hnil
    rw [hlr] at hr
    cases hr

theorem inv_serverEvent (h : Inv w t) {env : Env} {ev : Event}
    (hok : t.conn.ended = false → fromStream ev = false → TurnOk w b t env ev t.unreadByServer) :
    Inv w (t.serverEvent w b env ev) := by
  obtain ⟨up, down, upRaw, downRaw, hup, hdown, hp⟩ := h
  unfold serverEvent
  split
  · split
    · exact ⟨up, down, upRaw, downRaw, hup, hdown,
        hp.congr rfl rfl rfl rfl rfl rfl rfl fun _ => rfl⟩
    · exact ⟨up, down, upRaw, downRaw, hup, hdown, hp⟩
  · rename_i hend
    have he : t.conn.ended = false := by simpa using hend
    split
    · exact ⟨up, down, upRaw, downRaw, hup, hdown, hp⟩
    · rename_i hev
      have hev' : fromStream ev = false := by simpa using hev
      have hraw : t.server.stream.codec.raw = false := by
        rw [hp.serverRaw]
        simp [forwards, he]
      exact inv_serverTurn t hp rfl rfl rfl rfl hup hdown hraw
        (turnFacts_event hup hp he hev' (hok he hev')) (hok he hev').short

/-- While the server is framed, raw bytes are behind an answer only. -/
theorem up_framed (hup : Carries t.client t.server t.buffer up upRaw) (h : Protocol w t up down)
    (he : t.conn.ended = false) (hnil : up = []) : upRaw = [] := by
  cases hraw : t.client.stream.codec.raw with
  | false => exact hup.link.unmixed hraw
  | true =>
    obtain ⟨hdown, ha⟩ := h.clientRaw hraw
    have hc := h.outstanding he (.inr hraw)
    rw [(h.window he ha).2, hnil, hdown] at hc
    simp at hc

theorem inv_serverNext (h : Inv w t) {env : Env}
    (hok : t.conn.ended = false → ∀ bytes, t.server.stream.next.2 = some (.ok bytes) →
      TurnOk w b t env (peerEvent w bytes) t.unreadByServer.tail) :
    Inv w (t.serverNext w b env) := by
  obtain ⟨up, down, upRaw, downRaw, hup, hdown, hp⟩ := h
  unfold serverNext
  split
  · split
    · rename_i hfwd
      have hraw : t.server.stream.codec.raw = true := by
        rw [hp.serverRaw]
        simp only [Bool.and_eq_true] at hfwd
        exact hfwd.1
      have hwriter := fun delivered => hdown.next_writer t.server.received delivered
      rcases hup.next_raw hraw with hn | ⟨stream, bytes, rest, hn, hraw', hc⟩
      · rw [hn]
        exact ⟨up, down, upRaw, downRaw, hup, hdown, hp⟩
      · obtain ⟨rfl, -, -⟩ := hup.link.raw hraw
        rw [hn] at hwriter ⊢
        exact ⟨[], down, rest, downRaw, hc, hwriter _,
          hp.congr rfl rfl (hraw'.trans hraw.symm) rfl rfl rfl rfl fun _ => rfl⟩
    · exact ⟨up, down, upRaw, downRaw, hup, hdown, hp⟩
  · rename_i hend
    have he : t.conn.ended = false := by simpa using hend
    have hraw : t.server.stream.codec.raw = false := by
      rw [hp.serverRaw]
      simp [forwards, he]
    have hfound := hup.next hraw (up_framed hup hp he)
    have hwriter := fun received => hdown.next_writer received t.server.delivered
    have hunread := unreadByServer_eq hup
    have hok' := hok he
    generalize t.server.stream.next = d at hfound hwriter hok'
    cases hfound with
    | @waits stream hraw' hc =>
      exact ⟨up, down, upRaw, downRaw, hc, hwriter t.server.received,
        hp.congr rfl rfl (hraw'.trans hraw.symm) rfl rfl rfl rfl fun _ => rfl⟩
    | @message stream m rest hms hraw' hc =>
      subst hms
      have hturn := hok' m rfl
      rw [hunread, List.tail_cons] at hturn
      exact inv_serverTurn
        { t with server := { t.server with stream, received := t.server.received ++ [m] } }
        hp rfl rfl rfl rfl hc (hwriter _) hraw'
        (turnFacts_message hup.sent hp he hturn) hturn.short

theorem inv_serverForward (h : Inv w t) (n : Nat) : Inv w (t.serverForward n) := by
  obtain ⟨up, down, upRaw, downRaw, hup, hdown, hp⟩ := h
  unfold serverForward
  split
  · rename_i hfwd
    have hraw : t.server.stream.codec.raw = true := by
      rw [hp.serverRaw]
      simp only [Bool.and_eq_true] at hfwd
      exact hfwd.1
    have hout : t.server.unread.take n ++ ([] ++ t.server.unread.drop n) =
        [] ++ t.server.unread := List.take_append_drop n _
    refine ⟨up, down, upRaw, _, ?_, hdown.sendBytes hraw hout,
      hp.congr rfl rfl rfl rfl rfl rfl rfl fun _ => rfl⟩
    exact (hup.unread_reader _).net_writer _ _ rfl
  · exact ⟨up, down, upRaw, downRaw, hup, hdown, hp⟩

end RustDesk.Tunnel
