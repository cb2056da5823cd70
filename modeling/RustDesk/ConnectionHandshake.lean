import RustDesk.ConnectionTurns

/-!
# What a connection tells its peer before the session is open

A client that logs in acts on three messages: it answers the hash with a login request
and a `TestDelay` with the same message, and it leaves its message loop on the peer
information of the login response. `Handshake` collects what decides when these are sent,
and which of them were sent. Nearly every handler leaves it alone; a login attempt for a
port forward either does, or opens the forward and sends the peer information last.
-/

namespace RustDesk

/-- The messages a client may act on while it logs in. The bytes of the connection
manager may be any message. -/
def Outgoing.acts : Outgoing → Bool
  | .hash => true
  | .loginPeerInfo => true
  | .testDelay _ => true
  | .raw _ => true
  | _ => false

def Effect.outgoing : Effect → Option Outgoing
  | .send m => some m
  | _ => none

/-- The messages sent, newest first. -/
def outgoing (log : List Effect) : List Outgoing := log.filterMap Effect.outgoing

structure Handshake where
  lastTestDelay : Option Nat
  lr : LoginRequest
  authorized : Bool
  socket : Option String
  closed : Bool
  ended : Bool
  acted : List Outgoing
  deriving DecidableEq

/-- The handshake of a connection that was closed. -/
def Handshake.close (h : Handshake) : Handshake := { h with closed := true, socket := none }

namespace Connection

def handshake (s : Connection) : Handshake :=
  { lastTestDelay := s.lastTestDelay
    lr := s.lr
    authorized := s.authorized
    socket := s.portForwardSocket
    closed := s.closed
    ended := s.ended
    acted := (outgoing s.log).filter Outgoing.acts }

variable {b : Build} {env : Env} {s s' : Connection} {r : Connection × Bool}

theorem handshake_emit {e : Effect} (h : e.outgoing = none) :
    (s.emit e).handshake = s.handshake := by
  simp only [handshake, emit, outgoing, List.filterMap_cons_none h]

theorem handshake_send {m : Outgoing} (h : m.acts = false) :
    (s.send m).handshake = s.handshake := by
  have ho : outgoing (.send m :: s.log) = m :: outgoing s.log := rfl
  simp only [handshake, send, emit, ho, List.filter_cons, h, Bool.false_eq_true, if_false]

/-! ### Login -/

theorem handshake_onlyIf {c : Bool} {f : Connection → Connection}
    (h : (f s).handshake = s.handshake) : (s.onlyIf c f).handshake = s.handshake := by
  unfold onlyIf
  split
  · exact h
  · rfl

theorem handshake_sendLoginError (err : String) :
    (s.sendLoginError env err).handshake = s.handshake := handshake_send rfl

theorem handshake_checkFailure (env : Env) (i : Nat) (scope : FailureScope) :
    (s.checkFailure env i scope).1.handshake = s.handshake := by
  unfold checkFailure
  extract_lets decision
  split
  · rfl
  · dsimp only
    split <;> rfl

theorem handshake_checkFailure_if (env : Env) (c : Bool) (i : Nat) (scope : FailureScope) :
    (if c = true then s.checkFailure env i scope else (s, true)).1.handshake = s.handshake := by
  split
  · exact handshake_checkFailure env i scope
  · rfl

theorem handshake_isRecentSession (env : Env) (tfa : Bool) :
    (s.isRecentSession env tfa).1.handshake = s.handshake := by
  unfold isRecentSession
  extract_lets s₁ s₂
  split
  · split
    · unfold s₂
      split <;> rfl
    · rfl
  · rfl

theorem handshake_validatePassword (env : Env) (allow : Bool) :
    (s.validatePassword env allow).1.handshake = s.handshake := by
  unfold validatePassword
  split
  · rfl
  · split <;> rfl

theorem handshake_tryStartCmIpc : s.tryStartCmIpc.handshake = s.handshake := by
  unfold tryStartCmIpc
  split <;> rfl

theorem handshake_tryStartCm (peerId name : String) (authorized : Bool) :
    (s.tryStartCm peerId name authorized).handshake = s.handshake := rfl

theorem handshake_handleLoginRequestWithoutValidation (env : Env) (lr : LoginRequest) :
    (s.handleLoginRequestWithoutValidation env lr).handshake = { s.handshake with lr := lr } := by
  unfold handleLoginRequestWithoutValidation
  extract_lets s₁
  split
  · split
    · split <;> rfl
    · rfl
  · rfl

theorem handshake_fillTerminalUserToken (env : Env) (username password : String) :
    (s.fillTerminalUserToken b env username password).1.handshake = s.handshake := by
  rcases fillTerminalUserToken_cases (rfl : s.fillTerminalUserToken b env username password = _)
    with ⟨-, t, hs⟩ | ⟨msg, t, -, hs⟩
  · rw [hs]
    rfl
  · rw [hs]
    rfl

theorem handshake_updateTerminalFailure (osLogin remove : Bool) :
    (s.updateTerminalFailure osLogin remove).handshake = s.handshake :=
  handshake_onlyIf rfl

theorem handshake_checkTerminalServiceUser (osLogin : Bool) :
    (s.checkTerminalServiceUser env osLogin).1.handshake = s.handshake := by
  unfold checkTerminalServiceUser
  split
  · exact (handshake_onlyIf handshake_tryStartCmIpc).trans rfl
  · rfl

theorem handshake_prepareTerminalToken (username : String) (osLogin : Bool) :
    (s.prepareTerminalToken b env username osLogin).1.handshake = s.handshake := by
  unfold prepareTerminalToken
  have hfill := handshake_fillTerminalUserToken (b := b) (s := s) env username
    s.lr.osLogin.password
  generalize s.fillTerminalUserToken b env username s.lr.osLogin.password = f at hfill
  obtain ⟨s₁, err⟩ := f
  cases err with
  | some msg => exact (handshake_updateTerminalFailure osLogin false).trans hfill
  | none =>
    exact (handshake_checkTerminalServiceUser osLogin).trans
      ((handshake_updateTerminalFailure osLogin true).trans hfill)

theorem handshake_prepareTerminalLogin (env : Env) :
    (s.prepareTerminalLoginForAuthorization b env).1.handshake = s.handshake := by
  unfold prepareTerminalLoginForAuthorization
  split
  · rfl
  · extract_lets username osLogin
    have hc := handshake_checkFailure_if (s := s) env osLogin 0 .terminalOsLogin
    generalize (if osLogin = true then s.checkFailure env 0 .terminalOsLogin else (s, true)) = c
      at hc
    obtain ⟨s₁, ok⟩ := c
    cases ok with
    | false => exact hc
    | true =>
      dsimp only
      split
      · exact hc
      · exact (handshake_prepareTerminalToken username osLogin).trans hc

/-- The forward is open and the client is told last. -/
def Opens (s s' : Connection) : Prop :=
  (∃ addr, s'.handshake = { s.handshake with
    authorized := true
    socket := some addr
    acted := .loginPeerInfo :: s.handshake.acted }) ∧
  (outgoing s'.log).head? = some .loginPeerInfo

/-- What a login attempt comes to. -/
def Attempt (s : Connection) (r : Connection × Bool) : Prop :=
  r.1.handshake = s.handshake ∨ (r.2 = true ∧ Opens s r.1)

/-- Nothing was authorized yet, and the peer asks for a port forward. -/
structure Asks (h : Handshake) : Prop where
  authorized : h.authorized = false
  socket : h.socket = none
  portForward : ∃ pf, h.lr.union = some (.portForward pf)

theorem Attempt.of_eq (h : s'.handshake = s.handshake) (hr : Attempt s' r) : Attempt s r := by
  unfold Attempt Opens at hr ⊢
  rwa [h] at hr

theorem Attempt.after {r' : Connection × Bool} (h : Attempt s r) (hk : r'.2 = r.2)
    (hh : r'.1.handshake = r.1.handshake) (ho : outgoing r'.1.log = outgoing r.1.log) :
    Attempt s r' := by
  rcases h with h | ⟨hkeep, ⟨addr, h⟩, hlast⟩
  · exact .inl (hh.trans h)
  · refine .inr ⟨hk.trans hkeep, ⟨addr, hh.trans h⟩, ?_⟩
    rw [ho]
    exact hlast

theorem outgoing_tryStartCmIpc : outgoing s.tryStartCmIpc.log = outgoing s.log := by
  unfold tryStartCmIpc
  split <;> rfl

theorem authorize_portForward (env : Env) {addr : String} (hs : s.portForwardSocket = some addr) :
    (s.authorize b env).handshake = { s.handshake with
      authorized := true
      acted := .loginPeerInfo :: s.handshake.acted } ∧
    (outgoing (s.authorize b env).log).head? = some .loginPeerInfo := by
  unfold authorize
  extract_lets s₁
  have hsock : s₁.portForwardSocket = s.portForwardSocket := by
    unfold s₁ normalizeConnAuditAuthFields
    split <;> rfl
  have hhand : s₁.handshake = { s.handshake with authorized := true } := by
    unfold s₁ normalizeConnAuditAuthFields
    split <;> rfl
  rw [if_pos (by rw [hsock, hs]; rfl)]
  constructor
  · have hsend : (s₁.send .loginPeerInfo).handshake =
        { s₁.handshake with acted := .loginPeerInfo :: s₁.handshake.acted } := rfl
    rw [hsend, hhand]
  · rfl

theorem handshake_setSocket (addr : String) :
    { s with portForwardSocket := some addr }.handshake =
      { s.handshake with socket := some addr } := rfl

/-- The connection to the target is made and changes only the socket, or it fails. -/
theorem connectPortForward_asked (h : Asks s.handshake) :
    (∃ s₁ addr, s.connectPortForwardIfNeeded env = (s₁, true) ∧
        s₁.handshake = { s.handshake with socket := some addr } ∧
        s₁.portForwardSocket = some addr) ∨
      ∃ s₁, s.connectPortForwardIfNeeded env = (s₁, false) ∧ s₁.handshake = s.handshake := by
  obtain ⟨pf, hpf⟩ := h.portForward
  have hsock : s.portForwardSocket = none := h.socket
  have hlr : s.lr.union = some (.portForward pf) := hpf
  unfold connectPortForwardIfNeeded
  rw [if_neg (by simp [hsock]), hlr]
  dsimp only
  by_cases hc : env.tcpConnect (normalizePortForwardTarget pf).1 = true
  · rw [if_pos hc]
    refine .inl ⟨_, _, rfl, ?_, rfl⟩
    rw [handshake_setSocket, handshake_emit rfl]
    rfl
  · rw [if_neg hc]
    refine .inr ⟨_, rfl, ?_⟩
    rw [handshake_sendLoginError, handshake_emit rfl]
    rfl

theorem attempt_connectAndAuthorize (h : Asks s.handshake) :
    Attempt s (s.connectAndAuthorize b env) := by
  unfold connectAndAuthorize
  rcases @connectPortForward_asked env s h with
    ⟨s₁, addr, hconn, hhand, hsock⟩ | ⟨s₁, hconn, hhand⟩
  · right
    rw [hconn]
    obtain ⟨hauth, hlast⟩ := authorize_portForward (b := b) env hsock
    rw [hhand] at hauth
    exact ⟨rfl, ⟨addr, hauth⟩, hlast⟩
  · left
    rw [hconn]
    exact hhand

theorem sendLogonResponseAndKeepAlive_authorized (h : s.authorized = true) :
    s.sendLogonResponseAndKeepAlive b env = (s, true) := by
  unfold sendLogonResponseAndKeepAlive
  rw [if_pos h]

/-- The connection is authorized already, or the attempt is one for a port forward. -/
def Ready (h : Handshake) : Prop := h.authorized = true ∨ Asks h

theorem attempt_sendLogonResponseAndKeepAlive (env : Env) (h : Ready s.handshake) :
    Attempt s (s.sendLogonResponseAndKeepAlive b env) := by
  rcases h with hauth | h
  · rw [sendLogonResponseAndKeepAlive_authorized hauth]
    exact .inl rfl
  have hauth : s.authorized = false := h.authorized
  unfold sendLogonResponseAndKeepAlive
  rw [if_neg (by simp [hauth])]
  have hc : (if s.require2fa.isSome = true then s.isRecentSession env true
      else (s, true)).1.handshake = s.handshake := by
    split
    · exact handshake_isRecentSession env true
    · rfl
  generalize (if s.require2fa.isSome = true then s.isRecentSession env true else (s, true)) = c
    at hc
  obtain ⟨s₁, passed⟩ := c
  dsimp only
  split
  · exact .inl hc
  · have hp := (handshake_prepareTerminalLogin (b := b) (s := s₁) env).trans hc
    generalize s₁.prepareTerminalLoginForAuthorization b env = p at hp
    obtain ⟨s₂, keep⟩ := p
    cases keep with
    | some keepAlive => exact .inl hp
    | none =>
      refine .of_eq hp (attempt_connectAndAuthorize ?_)
      have hp' : s₂.handshake = s.handshake := hp
      rwa [hp']

theorem attempt_waitForClick (lr : LoginRequest) (noPassword : Bool) :
    Attempt s (s.waitForClick b env lr noPassword) := by
  unfold waitForClick
  extract_lets c
  have hc : c.1.handshake = s.handshake := by
    unfold c
    split
    · exact handshake_prepareTerminalLogin env
    · rfl
  clear_value c
  obtain ⟨s₁, keep⟩ := c
  left
  cases keep with
  | some keepAlive => exact hc
  | none =>
    dsimp only
    split
    · exact hc
    · exact hc

theorem attempt_loginPassed (h : Asks s.handshake) (lr : LoginRequest) (errMsg : String) :
    Attempt s (s.loginPassed b env lr errMsg) := by
  unfold loginPassed
  split
  · have hl := attempt_sendLogonResponseAndKeepAlive (b := b) env (.inr h)
    generalize s.sendLogonResponseAndKeepAlive b env = c at hl
    obtain ⟨s₁, keep⟩ := c
    cases keep with
    | false => exact hl
    | true => exact hl.after rfl rfl rfl
  · exact .inl rfl

theorem attempt_loginWithPassword (h : Asks s.handshake) (lr : LoginRequest) (errMsg : String) :
    Attempt s (s.loginWithPassword b env lr errMsg) := by
  unfold loginWithPassword
  have hc := handshake_checkFailure (s := s) env 0 .default
  generalize s.checkFailure env 0 .default = c at hc
  obtain ⟨s₁, ok⟩ := c
  cases ok with
  | false => exact .inl hc
  | true =>
    dsimp only at hc ⊢
    have hv := (handshake_validatePassword (s := s₁) env
      (allowLogonScreenPassword b env)).trans hc
    generalize s₁.validatePassword env (allowLogonScreenPassword b env) = v at hv
    obtain ⟨s₂, valid⟩ := v
    cases valid with
    | false =>
      left
      have he : ((s₂.emit (.updateFailure false 0 .default)).emit
          (.temporaryPassword false)).handshake = s.handshake :=
        (handshake_emit rfl).trans ((handshake_emit rfl).trans hv)
      dsimp only
      split
      · exact (handshake_tryStartCm _ _ _).trans ((handshake_sendLoginError _).trans he)
      · exact (handshake_sendLoginError _).trans he
    | true =>
      have he : (s₂.emit (.updateFailure true 0 .default)).handshake = s.handshake :=
        (handshake_emit rfl).trans hv
      exact .of_eq he (attempt_loginPassed (by rwa [he]) lr errMsg)

theorem attempt_loginValidate (h : Asks s.handshake) (lr : LoginRequest) (errMsg : String) :
    Attempt s (s.loginValidate b env lr errMsg) := by
  unfold loginValidate
  split
  · exact attempt_waitForClick lr true
  · have hc := handshake_isRecentSession (s := s) env false
    generalize s.isRecentSession env false = c at hc
    obtain ⟨s₁, recent⟩ := c
    have h₁ : Asks s₁.handshake := by
      rw [show s₁.handshake = s.handshake from hc]
      exact h
    refine .of_eq hc ?_
    cases recent with
    | true => exact attempt_loginPassed h₁ lr errMsg
    | false =>
      dsimp only
      split
      · split
        · exact attempt_waitForClick lr false
        · exact .inl rfl
      · exact attempt_loginWithPassword h₁ lr errMsg

theorem attempt_loginDesktop (h : Asks s.handshake) (lr : LoginRequest) :
    Attempt s (s.loginDesktop b env lr) := by
  unfold loginDesktop
  split
  · exact attempt_loginValidate h lr ""
  · extract_lets headless errMsg
    have hc := handshake_checkFailure_if (s := s) env
      (headless && env.linuxDesktopUsernameEmpty) 0 .default
    generalize (if (headless && env.linuxDesktopUsernameEmpty) = true then
      s.checkFailure env 0 .default else (s, true)) = c at hc
    obtain ⟨s₁, ok⟩ := c
    have h₁ : Asks s₁.handshake := by
      rw [show s₁.handshake = s.handshake from hc]
      exact h
    refine .of_eq hc ?_
    cases ok with
    | false => exact .inl rfl
    | true =>
      dsimp only
      split
      · exact attempt_loginValidate h₁ lr errMsg
      · have hc₁ := handshake_checkFailure_if (s := s₁) env
          (headless && errMsg == "Wrong Password") 0 .default
        generalize (if (headless && errMsg == "Wrong Password") = true then
          s₁.checkFailure env 0 .default else (s₁, true)) = c₁ at hc₁
        obtain ⟨s₂, ok₂⟩ := c₁
        cases ok₂ with
        | false => exact .inl hc₁
        | true =>
          left
          dsimp only
          split
          · exact hc₁
          · exact hc₁

theorem attempt_loginPermitted (h : Asks s.handshake) (lr : LoginRequest) :
    Attempt s (s.loginPermitted b env lr) := by
  unfold loginPermitted
  split
  · exact .inl rfl
  · split
    · exact .inl rfl
    · have hc : (s.onlyIf (!b.mobile &&
          !shouldUseTerminalOsLoginScope b s.terminal lr.osLogin.username)
          tryStartCmIpc).handshake = s.handshake := handshake_onlyIf handshake_tryStartCmIpc
      exact .of_eq hc (attempt_loginDesktop (by rwa [hc]) lr)

theorem handshake_loginScope (lr : LoginRequest) :
    (s.loginScope b env lr).1.handshake = s.handshake := by
  unfold loginScope checkPermission
  split
  · cases permission b env .fileTransfer s.controlPermissions <;> rfl
  · cases permission b env .camera s.controlPermissions <;> rfl
  · cases permission b env .terminal s.controlPermissions with
    | false => rfl
    | true =>
      dsimp only
      split <;> rfl
  · cases permission b env .tunnel s.controlPermissions <;> rfl
  · split <;> rfl

theorem attempt_onLoginRequest {lr : LoginRequest}
    (h : Asks { s.handshake with lr := lr }) :
    Attempt (s.handleLoginRequestWithoutValidation env lr) (s.onLoginRequest b env lr) := by
  have hi := handshake_handleLoginRequestWithoutValidation (s := s) env lr
  unfold onLoginRequest
  generalize s.handleLoginRequestWithoutValidation env lr = s₁ at hi
  have h₁ : Asks s₁.handshake := by rwa [hi]
  have hauth : s₁.authorized = false := h₁.authorized
  dsimp only
  rw [if_neg (by simp [hauth])]
  have hc : (s₁.resetSessionScopeForLogin.loginScope b env lr).1.handshake = s₁.handshake :=
    handshake_loginScope lr
  generalize s₁.resetSessionScopeForLogin.loginScope b env lr = c at hc
  obtain ⟨s₂, ok⟩ := c
  cases ok with
  | false => exact .inl hc
  | true =>
    refine .of_eq hc (attempt_loginPermitted ?_ lr)
    rw [show s₂.handshake = s₁.handshake from hc]
    exact h₁

theorem attempt_onAuth2fa (h : Ready s.handshake) (code : String) (hwid : Bytes) :
    Attempt s (s.onAuth2fa b env code hwid) := by
  unfold onAuth2fa
  have hc := handshake_checkFailure (s := s) env 1 .default
  generalize s.checkFailure env 1 .default = c at hc
  obtain ⟨s₁, ok⟩ := c
  refine .of_eq hc ?_
  have h₁ : Ready s₁.handshake := by
    rw [show s₁.handshake = s.handshake from hc]
    exact h
  cases ok with
  | false => exact .inl rfl
  | true =>
    dsimp only
    split
    · exact .inl rfl
    · left
      dsimp only
      rw [handshake_sendLoginError, handshake_emit rfl, handshake_emit rfl]
    · have ha : (s₁.codeAccepted env).handshake = s₁.handshake := rfl
      refine .of_eq ha ?_
      unfold auth2faPassed
      have hl := attempt_sendLogonResponseAndKeepAlive (b := b) env
        (s := s₁.codeAccepted env) (by rwa [ha])
      generalize (s₁.codeAccepted env).sendLogonResponseAndKeepAlive b env = c at hl
      obtain ⟨s₂, keep⟩ := c
      cases keep with
      | false => exact hl
      | true =>
        refine hl.after rfl (handshake_onlyIf rfl) ?_
        dsimp only [onlyIf]
        split <;> rfl

/-- A switch of sides installs the login request it carries, and may go on from there. -/
theorem attempt_onSwitchSidesResponse (env : Env) (uuid : Bytes) {lr : Option LoginRequest}
    (h : ∀ lr', lr = some lr' → Ready { s.handshake with lr := lr' }) :
    s.onSwitchSidesResponse b env uuid lr = (s, true) ∨
      ∃ lr' s₁, lr = some lr' ∧ s₁.handshake = { s.handshake with lr := lr' } ∧
        Attempt s₁ (s.onSwitchSidesResponse b env uuid lr) := by
  unfold onSwitchSidesResponse
  split
  · exact .inl rfl
  · rename_i lr' hsome
    have hlr : lr = some lr' := by
      split at hsome
      · exact hsome
      · cases hsome
    extract_lets s₁ uuids uuidOld s₂ s₃
    have h₁ : s₁.handshake = { s.handshake with lr := lr' } :=
      handshake_handleLoginRequestWithoutValidation env lr'
    refine .inr ⟨lr', s₁, hlr, h₁, ?_⟩
    clear_value uuidOld
    split
    · split
      · have h₃ : s₃.handshake = s₁.handshake := rfl
        have hl := attempt_sendLogonResponseAndKeepAlive (b := b) (s := s₃) env
          (by rw [h₃, h₁]; exact h lr' hlr)
        refine .of_eq h₃ ?_
        generalize s₃.sendLogonResponseAndKeepAlive b env = c at hl
        obtain ⟨s₄, keep⟩ := c
        cases keep with
        | false => exact hl
        | true => exact hl.after rfl handshake_tryStartCmIpc outgoing_tryStartCmIpc
      · exact .inl rfl
    · exact .inl rfl

theorem attempt_onAuthorize (env : Env) (h : Ready s.handshake) :
    ∃ keep, Attempt s ((s.onAuthorize b env).1, keep) ∧
      (s.onAuthorize b env).2 = (keep && (s.onAuthorize b env).1.portForwardSocket.isNone) := by
  unfold onAuthorize
  extract_lets s₁
  have h₁ : s₁.handshake = s.handshake := rfl
  have hl := attempt_sendLogonResponseAndKeepAlive (b := b) (s := s₁) env (by rwa [h₁])
  generalize s₁.sendLogonResponseAndKeepAlive b env = c at hl
  obtain ⟨s₂, keep⟩ := c
  cases keep with
  | false => exact ⟨false, .of_eq h₁ hl, rfl⟩
  | true => exact ⟨true, .of_eq h₁ hl, rfl⟩

/-! ### The connection manager -/

theorem handshake_subscribe (svc : Service) (sub : Bool) :
    (s.subscribe env svc sub).handshake = s.handshake := by
  unfold subscribe
  split
  · split <;> rfl
  · rfl

theorem handshake_subscribeKeyboard (cursor : Bool) :
    (s.subscribeKeyboard b env cursor).handshake = s.handshake :=
  (handshake_subscribe _ _).trans
    ((handshake_onlyIf (handshake_subscribe _ _)).trans (handshake_subscribe _ _))

theorem handshake_subscribeAudio : (s.subscribeAudio env).handshake = s.handshake := by
  unfold subscribeAudio
  split
  · split
    · exact handshake_subscribe _ _
    · rfl
  · exact handshake_subscribe _ _

theorem handshake_switchPrivacyMode (enabled : Bool) :
    (s.switchPrivacyMode env enabled).handshake = s.handshake := by
  unfold switchPrivacyMode
  split
  · split
    · extract_lets s₁
      have h₁ : s₁.handshake = s.handshake := (handshake_send rfl).trans (handshake_emit rfl)
      clear_value s₁
      rw [← h₁]
      exact (handshake_send rfl).trans rfl
    · exact (handshake_emit rfl).trans (handshake_send rfl)
  · exact (handshake_send rfl).trans rfl

theorem handshake_switchPermission (name : String) (enabled : Bool) :
    (s.switchPermission b env name enabled).handshake = s.handshake := by
  apply switchPermission_elim (P := fun s' => s'.handshake = s.handshake)
  · intro _
    exact (handshake_subscribeKeyboard _).trans rfl
  · intro _
    exact (handshake_subscribe _ _).trans rfl
  · intro _
    exact (handshake_onlyIf handshake_subscribeAudio).trans rfl
  · intro _
    exact (handshake_onlyIf (handshake_subscribe _ _)).trans rfl
  · intro _ p kind
    rfl
  · intro _
    exact handshake_switchPrivacyMode enabled
  · intro _
    rfl

theorem handshake_handleVoiceCall (accepted : Bool) :
    (s.handleVoiceCall env accepted).handshake = s.handshake := by
  unfold handleVoiceCall
  split
  · extract_lets s₁ s₂ s₃
    have h₂ : s₂.handshake = s.handshake := (handshake_emit rfl).trans rfl
    clear_value s₂
    have h₃ : s₃.handshake = s₂.handshake := (handshake_send (s := s₂) rfl).trans rfl
    clear_value s₃
    rw [← h₂, ← h₃]
    split
    · exact handshake_subscribe _ _
    · rfl
  · rfl

theorem handshake_closeVoiceCall : (s.closeVoiceCall env).handshake = s.handshake := by
  unfold closeVoiceCall
  extract_lets s₁
  split
  · exact (handshake_subscribe _ _).trans rfl
  · rfl

theorem handshake_handleReadJobInitResult (id : Int)
    (result : Except String (Option (String × List FileEntry))) :
    (s.handleReadJobInitResult id result).handshake = s.handshake := by
  unfold handleReadJobInitResult
  split
  · rfl
  · split <;> rfl

theorem handshake_finishCmReadJob (id : Int) (fr : FileResponse) :
    (s.finishCmReadJob id fr).handshake = s.handshake := by
  unfold finishCmReadJob
  split <;> rfl

theorem handshake_forwardFromCm (id : Int) (fr : FileResponse) :
    (s.forwardFromCm id fr).handshake = s.handshake := by
  unfold forwardFromCm
  split <;> rfl

theorem handshake_handleAllFilesResult (id : Int) (path : String)
    (result : Except String (Option (String × List FileEntry))) :
    (s.handleAllFilesResult id path result).handshake = s.handshake := by
  unfold handleAllFilesResult
  split <;> rfl

theorem handshake_ite {c : Prop} [Decidable c] (h : s'.handshake = s.handshake) :
    (if c then s' else s).handshake = s.handshake := by
  split
  · exact h
  · rfl

theorem handshake_onCmData {d : FromCm} (hd : ∀ bytes, d ≠ .rawMessage bytes) :
    (s.onCmData b env d).handshake = s.handshake := by
  unfold onCmData
  split
  case h_1 => rfl
  case h_2 => exact handshake_switchPermission _ _
  case h_3 bytes => exact absurd rfl (hd bytes)
  case h_4 => exact handshake_ite rfl
  case h_5 => rfl
  case h_6 => exact handshake_ite rfl
  case h_7 => exact handshake_ite rfl
  case h_8 => exact handshake_handleVoiceCall _
  case h_9 => exact (handshake_send rfl).trans handshake_closeVoiceCall
  case h_10 => exact handshake_ite (handshake_handleReadJobInitResult _ _)
  case h_11 => exact handshake_ite (handshake_forwardFromCm _ _)
  case h_12 => exact handshake_ite (handshake_finishCmReadJob _ _)
  case h_13 => exact handshake_ite (handshake_finishCmReadJob _ _)
  case h_14 => exact handshake_ite (handshake_forwardFromCm _ _)
  case h_15 => exact handshake_ite (handshake_handleAllFilesResult _ _ _)
  case h_16 => rfl

/-! ### Closing -/

theorem handshake_onClose (h : s.closed = false) (lock : Bool) :
    (s.onClose b lock).handshake = s.handshake.close := by
  unfold onClose
  rw [if_neg (by simp [h])]
  extract_lets s₁ s₂ s₃
  have h₂ : s₂.handshake = { s.handshake with closed := true } := by
    unfold s₂
    split <;> rfl
  have h₃ : s₃.handshake = { s.handshake with closed := true } := (handshake_emit rfl).trans h₂
  change { s₃.handshake with socket := none } = s.handshake.close
  rw [h₃]
  rfl

theorem handshake_checkRemoveSession : (s.checkRemoveSession env).handshake = s.handshake := by
  unfold checkRemoveSession
  split <;> rfl

theorem handshake_sendCloseReasonNoRetry (env : Env) (reason : String) :
    (s.sendCloseReasonNoRetry env reason).handshake = s.handshake :=
  handshake_checkRemoveSession.trans (handshake_send rfl)

theorem closed_of_handshake (hh : s'.handshake = s.handshake) (h : s.closed = false) :
    s'.closed = false := (congrArg Handshake.closed hh).trans h

theorem handshake_closeWith (h : s.closed = false) (reason : String) (lock : Bool) :
    ((s.sendCloseReasonNoRetry env reason).onClose b lock).handshake = s.handshake.close := by
  have hs := handshake_sendCloseReasonNoRetry (s := s) env reason
  rw [handshake_onClose (closed_of_handshake hs h), hs]

/-- The message an event hands on to the peer unread. -/
def relayed : Event → Option Outgoing
  | .cm (.rawMessage bytes) => some (.raw bytes)
  | .service m true => if m = .stopService then none else some m
  | _ => none

/-- What an event other than a message and a click does. -/
inductive Reaction (s : Connection) (env : Env) (ev : Event) : Connection × Bool → Prop
  | quiet {s' : Connection} : s'.handshake = s.handshake → Reaction s env ev (s', true)
  | closes {s' : Connection} : s'.handshake = s.handshake.close → Reaction s env ev (s', false)
  | relays {m : Outgoing} : relayed ev = some m → Reaction s env ev (s.send m, true)
  | asks : ev = .testDelayTimer false → s.lastTestDelay = none →
      (s.portForwardSocket.isSome && s.authorized) = false →
      Reaction s env ev ({ s with lastTestDelay := some env.now }.send
        (.testDelay { lastDelay := s.networkDelay }), true)

theorem handshake_foldl_send (responses : List FileResponse) :
    (responses.foldl (fun s fr => s.send (.fileResponse fr)) s).handshake = s.handshake := by
  induction responses generalizing s with
  | nil => rfl
  | cons fr responses ih => exact ih.trans (handshake_send rfl)

theorem handshake_onFileClip (stop : Bool) : (s.onFileClip b stop).handshake = s.handshake := by
  unfold onFileClip
  exact handshake_ite (handshake_send rfl)

theorem handshake_onPrinterData : (s.onPrinterData b env).handshake = s.handshake := by
  unfold onPrinterData
  split
  · split <;> exact handshake_send rfl
  · rfl

theorem onEvent_reaction (env : Env) (h : s.closed = false) {ev : Event} (hm : ∀ m, ev ≠ .message m)
    (ha : ev ≠ .cm .authorize) : Reaction s env ev (s.onEvent b env ev) := by
  unfold onEvent
  split
  case h_1 m => exact absurd rfl (hm m)
  case h_2 => exact .quiet rfl
  case h_3 => exact .closes (handshake_onClose h true)
  case h_4 => exact .closes (handshake_onClose h true)
  case h_5 d =>
    unfold onCm
    split
    · exact absurd rfl ha
    · exact .closes (handshake_closeWith (s := { s with chatUnanswered := false
                                                        fileTransferred := false }) h "" true)
    · split
      · exact .quiet rfl
      · exact .closes (handshake_onClose h false)
    · by_cases hraw : ∃ bytes, d = .rawMessage bytes
      · obtain ⟨bytes, rfl⟩ := hraw
        exact .relays rfl
      · exact .quiet (handshake_onCmData fun bytes hd => hraw ⟨bytes, hd⟩)
  case h_6 responses ok =>
    have hf := handshake_foldl_send (s := s) responses
    unfold onReadJobs
    dsimp only
    split
    · exact .quiet hf
    · refine .closes ?_
      rw [handshake_onClose (closed_of_handshake hf h), hf]
  case h_7 => exact .closes (handshake_closeWith h _ true)
  case h_8 m ok =>
    unfold onService
    split
    · exact .closes (handshake_closeWith h "" false)
    · rename_i hstop
      split
      · rename_i hok
        subst hok
        exact .relays (if_neg hstop)
      · exact .closes (handshake_onClose h false)
  case h_9 => exact .quiet handshake_onPrinterData
  case h_10 => exact .closes (handshake_closeWith h _ true)
  case h_11 timeout =>
    split
    · exact .closes (handshake_onClose h true)
    · rename_i hto
      unfold onTestDelayTimer
      split
      · rename_i hc
        simp only [Bool.and_eq_true, Bool.not_eq_true', Option.isNone_iff_eq_none] at hc
        exact .asks (by simp [hto]) hc.1 hc.2
      · exact .quiet rfl
  case h_12 stop => exact .quiet (handshake_onFileClip stop)
  case h_13 => exact .quiet rfl

/-! ### Messages -/

/-- The login request a message carries. -/
def loginOf : Message → Option LoginRequest
  | .loginRequest lr => some lr
  | .switchSidesResponse _ lr => lr
  | _ => none

/-- The answer to a `TestDelay` of this side. -/
def isReply : Message → Bool
  | .testDelay t => !t.fromClient
  | _ => false

/-- What a message of the peer does before the session is open, or in a session that is
a port forward. -/
inductive Handled (s : Connection) (m : Message) : Connection × Bool → Prop
  | quiet {s' : Connection} {keep : Bool} (lr : LoginRequest) :
      (isReply m = true → s.lastTestDelay = none) →
      (lr = s.lr ∨ loginOf m = some lr) →
      (s.authorized = false → ∀ lr', m = .loginRequest lr' → lr = lr') →
      s'.handshake = { s.handshake with lr := lr } → (s.authorized = true → keep = true) →
      Handled s m (s', keep)
  | closes {s' : Connection} : s'.handshake = s.handshake.close → Handled s m (s', false)
  | answers {s' : Connection} : isReply m = true → s.lastTestDelay.isSome = true →
      s'.handshake = { s.handshake with lastTestDelay := none } →
      outgoing s'.log = outgoing s.log → Handled s m (s', true)
  | opens {s' s₁ : Connection} {lr : LoginRequest} : isReply m = false →
      s₁.handshake = { s.handshake with lr := lr } → Opens s₁ s' → Handled s m (s', true)

theorem handled_of_attempt {m : Message} {s₁ : Connection} (lr : LoginRequest)
    (hm : isReply m = false) (hlr : lr = s.lr ∨ loginOf m = some lr)
    (hnew : s.authorized = false → ∀ lr', m = .loginRequest lr' → lr = lr')
    (h₁ : s₁.handshake = { s.handshake with lr := lr }) (ha : Attempt s₁ r)
    (hkeep : s.authorized = true → r.2 = true) : Handled s m r := by
  obtain ⟨s', keep⟩ := r
  rcases ha with ha | ⟨hk, ho⟩
  · exact .quiet lr (by simp [hm]) hlr hnew (ha.trans h₁) hkeep
  · cases hk
    exact .opens hm h₁ ho

theorem handled_onTestDelay (t : TestDelay) :
    Handled s (.testDelay t) (s.onTestDelay env t, true) := by
  unfold onTestDelay
  split
  · rename_i hc
    refine .quiet s.lr ?_ (.inl rfl) (fun _ lr' h => by cases h) rfl fun _ => rfl
    simp [isReply, hc]
  · rename_i hc
    cases hd : s.lastTestDelay with
    | none =>
      exact .quiet s.lr (fun _ => hd) (.inl rfl) (fun _ lr' h => by cases h) rfl
        fun _ => rfl
    | some tm => exact .answers (by simp [isReply, hc]) (by simp [hd]) rfl rfl

theorem onAuth2fa_keep (h : s.authorized = true) (code : String) (hwid : Bytes) :
    (s.onAuth2fa b env code hwid).2 = true := by
  unfold onAuth2fa
  have hc := handshake_checkFailure (s := s) env 1 .default
  generalize s.checkFailure env 1 .default = c at hc
  obtain ⟨s₁, ok⟩ := c
  cases ok with
  | false => rfl
  | true =>
    dsimp only
    split
    · rfl
    · rfl
    · have ha : (s₁.codeAccepted env).authorized = true :=
        (congrArg Handshake.authorized hc).trans h
      unfold auth2faPassed
      rw [sendLogonResponseAndKeepAlive_authorized ha]

theorem onSwitchSidesResponse_keep (h : s.authorized = true) (uuid : Bytes)
    (lr : Option LoginRequest) : (s.onSwitchSidesResponse b env uuid lr).2 = true := by
  unfold onSwitchSidesResponse
  split
  · rfl
  · rename_i lr' _
    extract_lets s₁ uuids uuidOld s₂ s₃
    have hauth : s₃.authorized = true := by
      have h₁ := handshake_handleLoginRequestWithoutValidation (s := s) env lr'
      exact (congrArg Handshake.authorized h₁).trans h
    clear_value uuidOld
    split
    · split
      · rw [sendLogonResponseAndKeepAlive_authorized hauth]
      · rfl
    · rfl

theorem handled_dispatch (hs : s.authorized = false → s.portForwardSocket = none)
    (hauth : s.authorized = true → s.portForwardSocket.isSome = true) {m : Message}
    (hm : ∀ lr, loginOf m = some lr → ∃ pf, lr.union = some (.portForward pf))
    (hpf : s.authorized = false → (∃ pf, s.lr.union = some (.portForward pf)) ∨
      ∃ lr, m = .loginRequest lr)
    (hlogin : s.authorized = true → isLoginRequest m = false) :
    Handled s m (s.dispatch b env m) := by
  have hready : ∀ lr, (∃ pf, lr.union = some (.portForward pf)) →
      Ready { s.handshake with lr := lr } := by
    intro lr hlr
    cases ha : s.authorized with
    | true => exact .inl ha
    | false => exact .inr ⟨ha, hs ha, hlr⟩
  unfold dispatch
  split
  case h_1 lr =>
    have ha : s.authorized = false := by
      by_contra ha
      simpa [isLoginRequest] using hlogin (by simpa using ha)
    refine handled_of_attempt lr rfl (.inr rfl) (fun _ lr' h => by cases h; rfl)
      (handshake_handleLoginRequestWithoutValidation env lr)
      (attempt_onLoginRequest ⟨ha, hs ha, hm lr rfl⟩) (by simp [ha])
  case h_2 code hwid =>
    have hr : Ready s.handshake := by
      cases ha : s.authorized with
      | true => exact .inl ha
      | false =>
        rcases hpf ha with h | ⟨lr, h⟩
        · exact hready s.lr h
        · cases h
    exact handled_of_attempt s.lr rfl (.inl rfl) (fun _ lr' h => by cases h) rfl
      (attempt_onAuth2fa hr code hwid) fun ha => onAuth2fa_keep ha code hwid
  case h_3 t => exact handled_onTestDelay t
  case h_4 uuid lr =>
    have hsome : ∀ lr', lr = some lr' → Ready { s.handshake with lr := lr' } :=
      fun lr' h => hready lr' (hm lr' h)
    rcases attempt_onSwitchSidesResponse (b := b) (s := s) env uuid hsome with
      h | ⟨lr', s₁, hlr, h₁, ha⟩
    · rw [h]
      exact .quiet s.lr (by simp [isReply]) (.inl rfl) (fun _ lr' h => by cases h) rfl
        fun _ => rfl
    · exact handled_of_attempt lr' rfl (.inr hlr) (fun _ lr' h => by cases h) h₁ ha
        fun ha => onSwitchSidesResponse_keep ha uuid lr
  case h_5 h₁ h₂ h₃ h₄ =>
    have hns : (s.authorized && s.portForwardSocket.isNone) = false := by
      cases ha : s.authorized with
      | false => rfl
      | true =>
        have := hauth ha
        cases hsock : s.portForwardSocket <;> simp_all
    have hreply : isReply m = false := by
      cases m <;> first | rfl | exact (h₃ _ rfl).elim
    simp only [hns, Bool.false_eq_true, if_false]
    exact .quiet s.lr (by simp [hreply]) (.inl rfl) (fun _ lr' h => (h₁ lr' h).elim) rfl
      fun _ => rfl

theorem authorizedScopeViolation_reply {m : Message} (h : isReply m = true) :
    s.authorizedScopeViolation b m = none := by
  cases m with
  | testDelay t =>
    unfold authorizedScopeViolation
    split
    · rfl
    · rfl
  | _ => cases h

theorem handled_scopeViolation (h : s.closed = false) {m : Message} (hm : isReply m = false)
    (ha : s.authorized = true) (message : String) :
    Handled s m (s.handleAuthorizedScopeViolation b env message) := by
  unfold handleAuthorizedScopeViolation
  extract_lets isFirst s₁ s₂
  have h₁ : s₁.handshake = s.handshake := by
    unfold s₁
    split <;> rfl
  have h₂ : s₂.handshake = s.handshake := by
    unfold s₂
    split
    · exact (handshake_emit rfl).trans h₁
    · exact h₁
  split
  · refine .closes ?_
    rw [handshake_closeWith (closed_of_handshake h₂ h), h₂]
  · exact .quiet s.lr (by simp [hm]) (.inl rfl) (by simp [ha]) h₂ fun _ => rfl

theorem onMessage_handled (env : Env) (h : s.closed = false)
    (hs : s.authorized = false → s.portForwardSocket = none)
    (hauth : s.authorized = true → s.portForwardSocket.isSome = true) {m : Message}
    (hm : ∀ lr, loginOf m = some lr → ∃ pf, lr.union = some (.portForward pf))
    (hpf : s.authorized = false → (∃ pf, s.lr.union = some (.portForward pf)) ∨
      ∃ lr, m = .loginRequest lr) : Handled s m (s.onMessage b env m) := by
  unfold onMessage
  split
  · refine .closes ?_
    exact handshake_checkRemoveSession.trans (handshake_onClose h true)
  split
  · rename_i hl
    simp only [Bool.and_eq_true] at hl
    refine .quiet s.lr ?_ (.inl rfl) (by simp [hl.1]) rfl fun _ => rfl
    cases m <;> simp_all [isLoginRequest, isReply]
  · rename_i hl
    have hdisp : Handled s m (s.dispatch b env m) :=
      handled_dispatch hs hauth hm hpf fun ha => by
        by_contra hno
        exact hl (by simp [ha, hno])
    split
    · rename_i message hv
      split at hv
      · rename_i ha
        refine handled_scopeViolation h ?_ ha message
        by_contra hno
        rw [authorizedScopeViolation_reply (by simpa using hno)] at hv
        cases hv
      · cases hv
    · exact hdisp

/-! ### The messages of one turn -/

theorem scoped_all (m : Message) : Scoped b (fun _ => True) m s :=
  ⟨fun _ => .inr trivial, fun _ _ _ => trivial, fun _ _ _ => trivial, fun _ _ _ _ => trivial,
    fun _ => trivial⟩

theorem Installs.suffix {lr : LoginRequest} (h : Installs lr s s') : s.log <:+ s'.log := by
  obtain ⟨req, -, ⟨-, hl⟩ | ⟨-, hl⟩⟩ := h
  · rw [hl]
    exact List.suffix_cons _ _
  · rw [hl]
    exact List.suffix_append [_, _] _

theorem suffix_requested (lr : LoginRequest) : s.log <:+ (s.requested b env lr).1.log := by
  obtain ⟨s₁, hi, hscope⟩ := requested_cases (b := b) (s := s) env lr
  refine hi.suffix.trans ?_
  rcases hscope with ⟨-, new, addr, hl, -⟩ | ⟨-, addr, -, hl⟩
  · rw [hl]
    exact List.suffix_append _ _
  · rw [hl]
    exact List.suffix_append _ _

theorem suffix_onEvent (env : Env) (ev : Event) : s.log <:+ (s.onEvent b env ev).1.log := by
  have hturn : Turn b env (fun _ => True) s ev (s.onEvent b env ev) :=
    onEvent_turn rfl fun m _ _ _ => scoped_all m
  generalize s.onEvent b env ev = r at hturn
  cases hturn with
  | quiet p _ ho => exact ho.grows.suffix
  | request hauth hr _ =>
    rcases onLoginRequest_cases (a := True) hauth hr with h | ⟨-, hrun⟩
    · obtain ⟨rfl, -⟩ := Prod.mk.inj h
      exact suffix_requested _
    · exact (suffix_requested _).trans hrun.suffix
  | code hr _ =>
    rcases onAuth2fa_cases (a := True) hr with ⟨-, hq⟩ | ⟨-, s₁, -, hl, hrun⟩
    · exact hq.2.suffix
    · have hs : s.log <:+ s₁.log := by
        rw [hl]
        exact List.suffix_append [_, _] _
      exact hs.trans (hrun fun _ => .inl trivial).suffix
  | switch _ hr _ =>
    rcases onSwitchSidesResponse_cases (a := True) hr with ⟨h, -⟩ | ⟨lr', -, -, s₁, hi, h⟩
    · obtain ⟨rfl, -⟩ := Prod.mk.inj h
      exact List.suffix_refl _
    · rcases h with h | ⟨s₂, -, hl, hrun⟩
      · obtain ⟨rfl, -⟩ := Prod.mk.inj h
        exact hi.suffix
      · refine (hi.suffix.trans ?_).trans hrun.suffix
        rw [hl]
        exact List.suffix_cons _ _
  | click hr =>
    obtain ⟨s₁, keep, -, hl, hrun, -⟩ := onAuthorize_cases (a := True) hr
    have hs : s.log <:+ s₁.log := by
      rw [hl]
      exact List.suffix_cons _ _
    exact hs.trans hrun.suffix

/-- The messages sent in the turn from `s` to `s'`, oldest first. -/
def sentSince (s s' : Connection) : List Outgoing :=
  (outgoing (s'.log.take (s'.log.length - s.log.length))).reverse

theorem outgoing_append (new old : List Effect) :
    outgoing (new ++ old) = outgoing new ++ outgoing old := List.filterMap_append

theorem sentSince_spec (h : s.log <:+ s'.log) :
    outgoing s'.log = (sentSince s s').reverse ++ outgoing s.log := by
  obtain ⟨new, hl⟩ := h
  have hnew : s'.log.take (s'.log.length - s.log.length) = new := by
    rw [← hl]
    simp
  rw [sentSince, hnew, List.reverse_reverse, ← outgoing_append, hl]

/-- A turn that leaves the handshake alone sends nothing the client acts on. -/
theorem plain_of_acted (h : s.log <:+ s'.log) (hh : s'.handshake.acted = s.handshake.acted) :
    ∀ m ∈ sentSince s s', m.acts = false := by
  intro m hm
  have hf : (outgoing s'.log).filter Outgoing.acts = (outgoing s.log).filter Outgoing.acts := hh
  rw [sentSince_spec h, List.filter_append] at hf
  have hnil : (sentSince s s').reverse.filter Outgoing.acts = [] :=
    List.append_left_eq_self.mp hf
  have := List.filter_eq_nil_iff.mp hnil m (List.mem_reverse.mpr hm)
  simpa using this

/-- The peer information is sent last, after messages the client does not act on. -/
theorem sentSince_opens {s₁ : Connection} (h : s.log <:+ s'.log)
    (hacted : s₁.handshake.acted = s.handshake.acted) (ho : Opens s₁ s') :
    ∃ ms, sentSince s s' = ms ++ [Outgoing.loginPeerInfo] ∧ ∀ m ∈ ms, m.acts = false := by
  obtain ⟨⟨addr, hh⟩, hlast⟩ := ho
  have hf : (outgoing s'.log).filter Outgoing.acts =
      .loginPeerInfo :: (outgoing s.log).filter Outgoing.acts := by
    have := congrArg Handshake.acted hh
    rwa [hacted] at this
  have hspec := sentSince_spec h
  rw [hspec] at hlast hf
  rw [List.filter_append] at hf
  cases hrev : (sentSince s s').reverse with
  | nil =>
    rw [hrev] at hf
    have := congrArg List.length hf
    simp at this
  | cons m ms =>
    rw [hrev] at hlast hf
    have hm : m = .loginPeerInfo := by simpa using hlast
    subst hm
    have hms : ms.filter Outgoing.acts = [] := by
      have hacts : Outgoing.loginPeerInfo.acts = true := rfl
      rw [List.filter_cons_of_pos hacts, List.cons_append, List.cons.injEq] at hf
      exact List.append_left_eq_self.mp hf.2
    refine ⟨ms.reverse, ?_, fun m hm => ?_⟩
    · rw [← List.reverse_reverse (sentSince s s'), hrev, List.reverse_cons]
    · have := List.filter_eq_nil_iff.mp hms m (List.mem_reverse.mp hm)
      simpa using this

theorem sentSince_send (m : Outgoing) (h : s'.log = .send m :: s.log) :
    sentSince s s' = [m] := by
  have hsuf : s.log <:+ s'.log := ⟨[.send m], h.symm⟩
  have hspec := sentSince_spec hsuf
  have ho : outgoing s'.log = m :: outgoing s.log := by
    rw [h]
    rfl
  rw [ho] at hspec
  have hrev : (sentSince s s').reverse = [m] :=
    (List.append_cancel_right (show [m] ++ outgoing s.log = _ from hspec)).symm
  rw [← List.reverse_reverse (sentSince s s'), hrev]
  rfl

theorem sentSince_none (h : s.log <:+ s'.log) (ho : outgoing s'.log = outgoing s.log) :
    sentSince s s' = [] := by
  have hspec := sentSince_spec h
  rw [ho] at hspec
  have := List.append_left_eq_self.mp hspec.symm
  simpa using this

def AsksPortForward (lr : LoginRequest) : Prop := ∃ pf, lr.union = some (.portForward pf)

/-- The event is the click of the connection manager. -/
def isClick : Event → Bool
  | .cm .authorize => true
  | _ => false

/-- The event is the answer to a `TestDelay`. -/
def replies : Event → Bool
  | .message m => isReply m
  | _ => false

/-- Everything a turn of the loop can do while no session is open, or in a port forward.
`reply` says that the event is the answer to a `TestDelay`. -/
inductive Turned (s : Connection) (env : Env) (ev : Event) (reply : Bool) (s' : Connection) : Prop
  | stays (lr : LoginRequest) : (reply = true → s.lastTestDelay = none) →
      (lr = s.lr ∨ AsksPortForward lr) →
      (s.authorized = false → (∃ m, ev = .message m) → AsksPortForward lr) →
      s'.handshake = { s.handshake with lr := lr } →
      (∀ m ∈ sentSince s s', m.acts = false) → Turned s env ev reply s'
  | refuses (lr : LoginRequest) : s.authorized = false →
      s'.handshake = { s.handshake with lr := lr, ended := true } →
      (∀ m ∈ sentSince s s', m.acts = false) → Turned s env ev reply s'
  | closes : s'.handshake = { s.handshake.close with ended := true } →
      (∀ m ∈ sentSince s s', m.acts = false) → Turned s env ev reply s'
  | relays {m : Outgoing} {acted : List Outgoing} : reply = false → relayed ev = some m →
      s'.handshake = { s.handshake with acted := acted } → sentSince s s' = [m] →
      Turned s env ev reply s'
  | asks {acted : List Outgoing} : reply = false → ev = .testDelayTimer false →
      s.lastTestDelay = none →
      (s.portForwardSocket.isSome && s.authorized) = false →
      s'.handshake = { s.handshake with lastTestDelay := some env.now, acted := acted } →
      sentSince s s' = [.testDelay { lastDelay := s.networkDelay }] → Turned s env ev reply s'
  | answers : reply = true → s.lastTestDelay.isSome = true →
      s'.handshake = { s.handshake with
        lastTestDelay := none
        ended := s.portForwardSocket.isSome && s.authorized } →
      sentSince s s' = [] → Turned s env ev reply s'
  | opens (lr : LoginRequest) (addr : String) {ms acted : List Outgoing} : reply = false →
      ((∃ m, ev = .message m) ∨ ev = .cm .authorize) →
      s'.handshake = { s.handshake with
        lr := lr
        authorized := true
        socket := some addr
        ended := s.lastTestDelay.isNone || isClick ev
        acted := acted } →
      sentSince s s' = ms ++ [.loginPeerInfo] → (∀ m ∈ ms, m.acts = false) →
      Turned s env ev reply s'

theorem step_of_running (h : s.ended = false) (ev : Event) :
    s.step b (env, ev) = if (s.onEvent b env ev).2 then (s.onEvent b env ev).1
      else { (s.onEvent b env ev).1 with ended := true } := by
  unfold step
  rw [if_neg (by simp [h])]
  generalize s.onEvent b env ev = r
  obtain ⟨s', keep⟩ := r
  cases keep <;> rfl

theorem step_keep (h : s.ended = false) {ev : Event} (hr : s.onEvent b env ev = (s', true)) :
    s.step b (env, ev) = s' := by
  rw [step_of_running h, hr]
  rfl

theorem step_leave (h : s.ended = false) {ev : Event} (hr : s.onEvent b env ev = (s', false)) :
    s.step b (env, ev) = { s' with ended := true } := by
  rw [step_of_running h, hr]
  rfl

theorem handshake_ended (s : Connection) :
    ({ s with ended := true } : Connection).handshake = { s.handshake with ended := true } := rfl

/-- The hypotheses on the state before a turn. -/
structure Waiting (s : Connection) : Prop where
  ended : s.ended = false
  closed : s.closed = false
  unauthorized : s.authorized = false → s.portForwardSocket = none
  window : s.authorized = true →
    s.portForwardSocket.isSome = true ∧ s.lastTestDelay.isSome = true

theorem turned_click (h : Waiting s) (ha : s.authorized = false) (hpf : AsksPortForward s.lr) :
    Turned s env (.cm .authorize) false (s.step b (env, .cm .authorize)) := by
  have hsock := h.unauthorized ha
  obtain ⟨keep, hatt, hkeep⟩ := attempt_onAuthorize (b := b) (s := s) env
    (.inr ⟨ha, hsock, hpf⟩)
  have hsuf := suffix_onEvent (b := b) (s := s) env (.cm .authorize)
  have hev : s.onEvent b env (.cm .authorize) = s.onAuthorize b env := rfl
  rw [hev] at hsuf
  generalize hr : s.onAuthorize b env = r at hatt hkeep hsuf
  obtain ⟨s', keep'⟩ := r
  rw [hr] at hev
  dsimp only at hatt hkeep hsuf
  rcases hatt with hq | ⟨hk, ho⟩
  · have hplain := plain_of_acted hsuf (congrArg Handshake.acted hq)
    have hsock' : s'.portForwardSocket = none := (congrArg Handshake.socket hq).trans hsock
    cases keep' with
    | true =>
      rw [step_keep h.ended hev]
      exact .stays s.lr (by simp) (.inl rfl) (fun _ ⟨m, hm⟩ => by cases hm) hq hplain
    | false =>
      rw [step_leave h.ended hev]
      refine .refuses s.lr ha ?_ hplain
      rw [handshake_ended, show s'.handshake = s.handshake from hq]
      rfl
  · obtain ⟨ms, hms, hplain⟩ := sentSince_opens hsuf rfl ho
    obtain ⟨⟨addr, hh⟩, -⟩ := ho
    have hsock' : s'.portForwardSocket = some addr := congrArg Handshake.socket hh
    have hfalse : keep' = false := by simp [hkeep, hsock']
    subst hfalse
    have hend : ({ s' with ended := true } : Connection).handshake = { s.handshake with
        lr := s.lr
        authorized := true
        socket := some addr
        ended := s.lastTestDelay.isNone || isClick (.cm .authorize)
        acted := .loginPeerInfo :: s.handshake.acted } := by
      rw [handshake_ended, show s'.handshake = _ from hh]
      simp [isClick]
      rfl
    rw [step_leave h.ended hev]
    exact .opens s.lr addr rfl (.inr rfl) hend hms hplain

theorem turned_message (h : Waiting s) {m : Message}
    (hm : ∀ lr, loginOf m = some lr → AsksPortForward lr)
    (hpf : s.authorized = false → AsksPortForward s.lr ∨ ∃ lr, m = .loginRequest lr) :
    Turned s env (.message m) (isReply m) (s.step b (env, .message m)) := by
  have hhandled := onMessage_handled (b := b) env h.closed h.unauthorized
    (fun ha => (h.window ha).1) hm hpf
  have hsuf := suffix_onEvent (b := b) (s := s) env (.message m)
  have hev : s.onEvent b env (.message m) = s.onPeerMessage b env m := rfl
  have hlog : (s.onPeerMessage b env m).1 = (s.onMessage b env m).1 := by
    unfold onPeerMessage
    generalize s.onMessage b env m = r
    obtain ⟨s', keep⟩ := r
    cases keep <;> rfl
  rw [hev, hlog] at hsuf
  unfold onPeerMessage at hev
  generalize s.onMessage b env m = r at hhandled hsuf hev
  cases hhandled with
  | @quiet s' keep lr hreply hlr hnew hh hkeep =>
    have hacted : s'.handshake.acted = s.handshake.acted := by rw [hh]
    have hplain := plain_of_acted hsuf hacted
    have hlr' : lr = s.lr ∨ AsksPortForward lr := hlr.imp_right (hm lr)
    cases keep with
    | false =>
      have ha : s.authorized = false := by
        by_contra hno
        simpa using hkeep (by simpa using hno)
      rw [step_leave h.ended hev]
      refine .refuses lr ha ?_ hplain
      rw [handshake_ended, hh]
    | true =>
      have hstay : (s'.portForwardSocket.isSome && s'.authorized && s'.lastTestDelay.isNone) =
          false := by
        have hsock : s'.portForwardSocket = s.portForwardSocket := congrArg Handshake.socket hh
        have hauth : s'.authorized = s.authorized := congrArg Handshake.authorized hh
        have htd : s'.lastTestDelay = s.lastTestDelay := congrArg Handshake.lastTestDelay hh
        rw [hsock, hauth, htd]
        cases ha : s.authorized with
        | false => simp
        | true =>
          have := (h.window ha).2
          cases hl : s.lastTestDelay <;> simp_all
      dsimp only at hev
      rw [hstay] at hev
      rw [step_keep h.ended hev]
      refine .stays lr hreply hlr' (fun ha _ => ?_) hh hplain
      rcases hpf ha with hs | ⟨lr', rfl⟩
      · rcases hlr with rfl | hlr
        · exact hs
        · exact hm lr hlr
      · rw [hnew ha lr' rfl]
        exact hm lr' rfl
  | @closes s' hh =>
    have hacted : s'.handshake.acted = s.handshake.acted := by rw [hh]; rfl
    have hplain := plain_of_acted hsuf hacted
    rw [step_leave h.ended hev]
    refine .closes ?_ hplain
    rw [handshake_ended, hh]
  | @answers s' hreply hsome hh ho =>
    have hnone := sentSince_none hsuf ho
    have hsock : s'.portForwardSocket = s.portForwardSocket := congrArg Handshake.socket hh
    have hauth : s'.authorized = s.authorized := congrArg Handshake.authorized hh
    have htd : s'.lastTestDelay = none := congrArg Handshake.lastTestDelay hh
    dsimp only at hev
    rw [hsock, hauth, htd] at hev
    cases hc : s.portForwardSocket.isSome && s.authorized with
    | false =>
      rw [hc] at hev
      rw [step_keep h.ended hev]
      refine .answers hreply hsome ?_ hnone
      rw [hh, hc, ← h.ended]
      rfl
    | true =>
      rw [hc] at hev
      rw [step_leave h.ended hev]
      refine .answers hreply hsome ?_ hnone
      rw [handshake_ended, hh, hc]
  | @opens s' s₁ lr hreply h₁ ho =>
    have hacted : s₁.handshake.acted = s.handshake.acted := by rw [h₁]
    obtain ⟨ms, hms, hplain⟩ := sentSince_opens hsuf hacted ho
    obtain ⟨⟨addr, hh⟩, -⟩ := ho
    rw [h₁] at hh
    have hsock : s'.portForwardSocket = some addr := congrArg Handshake.socket hh
    have hauth : s'.authorized = true := congrArg Handshake.authorized hh
    have htd : s'.lastTestDelay = s.lastTestDelay := congrArg Handshake.lastTestDelay hh
    dsimp only at hev
    rw [hsock, hauth, htd] at hev
    cases hl : s.lastTestDelay with
    | none =>
      rw [hl] at hev
      have hend : ({ s' with ended := true } : Connection).handshake = { s.handshake with
          lr := lr
          authorized := true
          socket := some addr
          ended := s.lastTestDelay.isNone || isClick (.message m)
          acted := .loginPeerInfo :: s.handshake.acted } := by
        rw [handshake_ended, hh, hl]
        rfl
      rw [step_leave h.ended hev]
      exact .opens lr addr hreply (.inl ⟨m, rfl⟩) hend hms hplain
    | some tm =>
      rw [hl] at hev
      have hend : s'.handshake = { s.handshake with
          lr := lr
          authorized := true
          socket := some addr
          ended := s.lastTestDelay.isNone || isClick (.message m)
          acted := .loginPeerInfo :: s.handshake.acted } := by
        have hrun := h.ended
        rw [hh, hl]
        simp [isClick, handshake, hrun]
      rw [step_keep h.ended hev]
      exact .opens lr addr hreply (.inl ⟨m, rfl⟩) hend hms hplain

theorem step_turned (h : Waiting s) {ev : Event}
    (hm : ∀ m, ev = .message m → ∀ lr, loginOf m = some lr → AsksPortForward lr)
    (hpf : s.authorized = false → (∃ m, ev = .message m) →
      AsksPortForward s.lr ∨ ∃ lr, ev = .message (.loginRequest lr))
    (hclick : ev = .cm .authorize → s.authorized = false ∧ AsksPortForward s.lr) :
    Turned s env ev (replies ev) (s.step b (env, ev)) := by
  by_cases hmsg : ∃ m, ev = .message m
  · obtain ⟨m, rfl⟩ := hmsg
    refine turned_message h (hm m rfl) fun ha => (hpf ha ⟨m, rfl⟩).imp_right ?_
    rintro ⟨lr, hlr⟩
    exact ⟨lr, Event.message.inj hlr⟩
  · by_cases hc : ev = .cm .authorize
    · obtain ⟨ha, hpf'⟩ := hclick hc
      subst hc
      exact turned_click h ha hpf'
    · have hr := onEvent_reaction (b := b) (s := s) env h.closed
        (fun m hm => hmsg ⟨m, hm⟩) hc
      have hsuf := suffix_onEvent (b := b) (s := s) env ev
      have hrep : replies ev = false := by
        cases ev <;> first | rfl | exact (hmsg ⟨_, rfl⟩).elim
      rw [hrep]
      generalize hev : s.onEvent b env ev = r at hr hsuf
      cases hr with
      | quiet hh =>
        rw [step_keep h.ended hev]
        exact .stays s.lr (by simp) (.inl rfl) (fun _ hex => (hmsg hex).elim) hh
          (plain_of_acted hsuf (congrArg Handshake.acted hh))
      | @closes s' hh =>
        have hacted : s'.handshake.acted = s.handshake.acted := by rw [hh]; rfl
        have hplain := plain_of_acted hsuf hacted
        rw [step_leave h.ended hev]
        refine .closes ?_ hplain
        rw [handshake_ended, hh]
      | @relays m hrel =>
        rw [step_keep h.ended hev]
        exact .relays rfl hrel rfl (sentSince_send m rfl)
      | asks htimer hnone hwin =>
        rw [step_keep h.ended hev]
        exact .asks rfl htimer hnone hwin rfl (sentSince_send _ rfl)

/-- A click on a port forward that is authorized already leaves the loop as well. -/
theorem step_click_authorized (h : s.ended = false) (ha : s.authorized = true)
    (hs : s.portForwardSocket.isSome = true) :
    (s.step b (env, .cm .authorize)).ended = true ∧
      (s.step b (env, .cm .authorize)).portForwardSocket.isSome = true := by
  have hev : s.onEvent b env (.cm .authorize) = s.onAuthorize b env := rfl
  unfold onAuthorize at hev
  extract_lets s₁ at hev
  have ha₁ : s₁.authorized = true := ha
  have hs₁ : s₁.portForwardSocket.isSome = true := hs
  rw [sendLogonResponseAndKeepAlive_authorized ha₁] at hev
  have hnone : s₁.portForwardSocket.isNone = false := by
    cases hsock : s₁.portForwardSocket <;> simp_all
  dsimp only at hev
  rw [hnone] at hev
  rw [step_leave h hev]
  exact ⟨rfl, hs₁⟩

end Connection

end RustDesk
