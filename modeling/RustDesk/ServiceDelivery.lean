import RustDesk.Subscriptions

/-!
# Services reach the sessions they are meant for

The login opens a session with the subscriptions of its kind, and the messages of the
session keep to them (`Subscriptions`). What is left is the permission switch of the
connection manager: a run delivers every service as it should exactly when each switch
subscribes only a session that may have the service.
-/

namespace RustDesk

open Connection

/-- The services a permission switch subscribes the connection to, by its own guards. -/
def switchSubscribes (b : Build) (env : Env) (name : String) (enabled : Bool) (s : Connection) :
    List Service :=
  if name = "keyboard" then
    (if (s.setKeyboard enabled).canSubClipboardService env then [.clipboard] else []) ++
    (if b.unixFileCopyPaste && (s.setKeyboard enabled).canSubFileClipboardService env then
      [.fileClipboard] else []) ++
    (if enabled || s.opts.showRemoteCursor then [.cursor] else [])
  else if name = "clipboard" then
    if (s.setClipboard enabled).canSubClipboardService env then [.clipboard] else []
  else if name = "audio" then
    if s.authorized && (s.setAudio enabled).audioEnabled &&
        (!s.isAuthedViewCameraConn || s.voiceCalling) then [.audio] else []
  else if name = "file" then
    if b.unixFileCopyPaste && (s.setFile enabled).canSubFileClipboardService env then
      [.fileClipboard] else []
  else []

/-- A permission switch subscribes the session only to services that it may have. -/
def SwitchInScope (b : Build) (s : Connection) (i : Env × Event) : Prop :=
  ∀ name enabled, i.2 = .cm (.switchPermission name enabled) → s.ended = false →
    i.1.serverAlive = true → ∀ svc ∈ switchSubscribes b i.1 name enabled s,
      i.1.hasService svc = true → svc.Allowed s.authedConnId s.voiceCalling

namespace ServiceDelivery

open Subscriptions

variable {b : Build} {env : Env} {s s' : Connection} {r : Connection × Bool}

/-! ### Login -/

theorem watch_sendLoginError (err : String) : (s.sendLoginError env err).watch = s.watch := rfl

theorem watch_tryStartCm (peerId name : String) (authorized : Bool) :
    (s.tryStartCm peerId name authorized).watch = s.watch := rfl

theorem watch_checkFailure (i : Nat) (scope : FailureScope) :
    (s.checkFailure env i scope).1.watch = s.watch := by
  unfold checkFailure
  extract_lets decision
  split
  · rfl
  · dsimp only
    split <;> rfl

theorem watch_isRecentSession (tfa : Bool) : (s.isRecentSession env tfa).1.watch = s.watch := by
  unfold isRecentSession
  extract_lets s₁ s₂
  split
  · split
    · unfold s₂
      split <;> rfl
    · rfl
  · rfl

theorem watch_validatePassword (allow : Bool) :
    (s.validatePassword env allow).1.watch = s.watch := by
  unfold validatePassword
  split
  · rfl
  · split <;> rfl

theorem watch_tryStartCmIpc : s.tryStartCmIpc.watch = s.watch := by
  unfold tryStartCmIpc
  split <;> rfl

theorem watch_handleLoginRequestWithoutValidation (lr : LoginRequest) :
    (s.handleLoginRequestWithoutValidation env lr).watch = s.watch := by
  unfold handleLoginRequestWithoutValidation
  extract_lets s₁
  split
  · split
    · split <;> rfl
    · rfl
  · rfl

theorem watch_fillTerminalUserToken (username password : String) :
    (s.fillTerminalUserToken b env username password).1.watch = s.watch := by
  rcases fillTerminalUserToken_cases (rfl : s.fillTerminalUserToken b env username password = _)
    with ⟨-, t, hs⟩ | ⟨msg, t, -, hs⟩
  · rw [hs]
    rfl
  · rw [hs]
    rfl

theorem watch_checkTerminalServiceUser (osLogin : Bool) :
    (s.checkTerminalServiceUser env osLogin).1.watch = s.watch := by
  unfold checkTerminalServiceUser
  split
  · exact (watch_onlyIf watch_tryStartCmIpc).trans rfl
  · rfl

theorem watch_updateTerminalFailure (osLogin remove : Bool) :
    (s.updateTerminalFailure osLogin remove).watch = s.watch :=
  watch_onlyIf rfl

theorem watch_prepareTerminalToken (username : String) (osLogin : Bool) :
    (s.prepareTerminalToken b env username osLogin).1.watch = s.watch := by
  unfold prepareTerminalToken
  generalize hf : s.fillTerminalUserToken b env username s.lr.osLogin.password = f
  have hw : f.1.watch = s.watch := hf ▸ watch_fillTerminalUserToken username _
  obtain ⟨s₁, err⟩ := f
  cases err with
  | some msg => exact (watch_updateTerminalFailure osLogin false).trans hw
  | none =>
    exact (watch_checkTerminalServiceUser osLogin).trans
      ((watch_updateTerminalFailure osLogin true).trans hw)

theorem watch_prepareTerminalLogin :
    (s.prepareTerminalLoginForAuthorization b env).1.watch = s.watch := by
  unfold prepareTerminalLoginForAuthorization
  split
  · rfl
  · extract_lets username osLogin
    generalize hc : (if osLogin = true then s.checkFailure env 0 .terminalOsLogin
      else (s, true)) = c
    have hw : c.1.watch = s.watch := by
      rw [← hc]
      split
      · exact watch_checkFailure 0 .terminalOsLogin
      · rfl
    obtain ⟨s₁, ok⟩ := c
    cases ok with
    | false => exact hw
    | true =>
      dsimp only
      split
      · exact hw
      · exact (watch_prepareTerminalToken username osLogin).trans hw

theorem watch_connectPortForwardIfNeeded :
    (s.connectPortForwardIfNeeded env).1.watch = s.watch := by
  unfold connectPortForwardIfNeeded
  split
  · rfl
  · split
    · extract_lets target s₁ addr
      have h₁ : s₁.watch = s.watch := watch_emit _
      clear_value s₁
      rw [← h₁]
      split
      · rfl
      · exact watch_sendLoginError _
    · rfl

theorem watch_initTerminalService : (s.initTerminalService env).watch = s.watch := by
  unfold initTerminalService
  split
  · rfl
  · extract_lets s₁
    have h₁ : s₁.watch = s.watch := by
      unfold s₁
      split <;> rfl
    exact h₁

theorem delivered_updateScopedLoginOptions (h : Delivered s) :
    Delivered (s.updateScopedLoginOptions b env) := by
  unfold updateScopedLoginOptions
  split
  · exact h
  · extract_lets s₁
    have h₁ : Delivered s₁ := delivered_of_watch (s := s) rfl h
    split
    · exact h₁
    · rename_i kind hkind
      split
      · rename_i kept hkept
        cases kind with
        | remote => exact delivered_updateOptions_remote kept hkind
        | viewCamera => exact delivered_updateOptions_camera h₁ hkind hkept
        | terminal => exact delivered_of_watch (watch_updateOptions_terminal hkept) h₁
        | fileTransfer => cases hkept
        | portForward => cases hkept
      · exact h₁

theorem kind_of_isRemote (h : s.isRemote = true) : s.kind = .remote := by
  simp only [isRemote, Bool.and_eq_true, Bool.not_eq_true', Option.isNone_iff_eq_none] at h
  obtain ⟨⟨⟨hf, hp⟩, hv⟩, ht⟩ := h
  simp [kind, hf, hp, hv, ht]

theorem delivered_openSession (subService wait : Bool) (h : Delivered s)
    (hk : s.authedConnId = some s.kind) : Delivered (s.openSession b env subService wait) := by
  have hsame : ∀ {s'}, s'.watch = s.watch → Delivered s' := fun hw => delivered_of_watch hw h
  unfold openSession
  split
  · extract_lets s₁ d
    split <;> exact hsame rfl
  · split
    · extract_lets s₁
      split
      · exact hsame rfl
      · exact hsame (watch_initTerminalService.trans rfl)
    · split
      · extract_lets s₁
        have h₁ : s₁.watch = s.watch := by
          unfold s₁
          split
          · exact watch_trySubCameraDisplays
          · rfl
        exact hsame h₁
      · split
        · exact delivered_trySubMonitorServices h fun hr => by rw [hk, kind_of_isRemote hr]
        · exact h

theorem kind_updateScopedLoginOptions (hk : s.authedConnId = some s.kind) :
    (s.updateScopedLoginOptions b env).authedConnId =
      some (s.updateScopedLoginOptions b env).kind := by
  have hsettles : Settles (fun _ => True) s (s.updateScopedLoginOptions b env) :=
    settles_updateScopedLoginOptions (loginScoped_true s)
  obtain ⟨⟨p, t, o, hc⟩, -⟩ := hsettles
  have hkind : (s.updateScopedLoginOptions b env).kind = s.kind := congrArg Core.kind hc
  rw [hkind]
  exact (congrArg Core.authedConnId hc).trans hk

theorem delivered_respond (subService wait : Bool) (h : Delivered s)
    (hk : s.authedConnId = some s.kind) :
    Delivered ((s.updateScopedLoginOptions b env).openSession b env subService wait) :=
  delivered_openSession subService wait (delivered_updateScopedLoginOptions h)
    (kind_updateScopedLoginOptions hk)

theorem delivered_sendLogonResponse (h : Delivered s) (hk : s.authedConnId = some s.kind) :
    Delivered (s.sendLogonResponse b env) := by
  have hsame : ∀ {s'}, s'.watch = s.watch → Delivered s' := fun hw => delivered_of_watch hw h
  unfold sendLogonResponse
  split
  · exact hsame rfl
  · extract_lets wait
    split
    · exact delivered_respond false wait (hsame rfl) hk
    split
    · exact delivered_respond false wait (hsame rfl) hk
    split
    · exact delivered_respond false wait (hsame rfl) hk
    · exact delivered_respond true wait (hsame rfl) hk

theorem delivered_setAuthorized (h : Delivered s) (hn : s.authedConnId = none) :
    Delivered s.setAuthorized := by
  intro svc hm
  have hall := h svc hm
  rw [hn] at hall
  cases svc <;> simp_all [Service.Allowed]

theorem delivered_authorize (h : Delivered s) (hn : s.authedConnId = none) :
    Delivered (s.authorize b env) := by
  have h₁ := delivered_setAuthorized h hn
  have h₂ : Delivered s.setAuthorized.normalizeConnAuditAuthFields ∧
      s.setAuthorized.normalizeConnAuditAuthFields.authedConnId =
        some s.setAuthorized.normalizeConnAuditAuthFields.kind := by
    unfold normalizeConnAuditAuthFields
    split
    · exact ⟨delivered_of_watch (s := s.setAuthorized) rfl h₁, rfl⟩
    · exact ⟨h₁, rfl⟩
  unfold Connection.authorize
  extract_lets s₁
  split
  · exact delivered_of_watch (s := s₁) rfl h₂.1
  · exact delivered_sendLogonResponse h₂.1 h₂.2

/-- What a login starts from: a connection that is not authorized has no kind. -/
def Ready (s : Connection) : Prop :=
  Delivered s ∧ (s.authorized = false → s.authedConnId = none)

theorem Ready.of_watch (h : Ready s) (hw : s'.watch = s.watch) : Ready s' := by
  refine ⟨delivered_of_watch hw h.1, ?_⟩
  rw [show s'.authorized = s.authorized from congrArg Watch.authorized hw,
    show s'.authedConnId = s.authedConnId from congrArg Watch.kind hw]
  exact h.2

theorem delivered_sendLogonResponseAndKeepAlive (hs : Ready s) :
    Delivered (s.sendLogonResponseAndKeepAlive b env).1 := by
  obtain ⟨h, hu⟩ := hs
  unfold sendLogonResponseAndKeepAlive
  split
  · exact h
  · rename_i hauth
    rw [Bool.not_eq_true] at hauth
    have hn := hu hauth
    generalize hc : (if s.require2fa.isSome = true then s.isRecentSession env true
      else (s, true)) = c
    have hw : c.1.watch = s.watch := by
      rw [← hc]
      split
      · exact watch_isRecentSession true
      · rfl
    obtain ⟨s₁, passed⟩ := c
    dsimp only
    split
    · exact delivered_of_watch ((watch_sendLoginError _).trans hw) h
    · generalize hp : s₁.prepareTerminalLoginForAuthorization b env = p
      have hw₂ : p.1.watch = s.watch := by
        rw [← hp]
        exact watch_prepareTerminalLogin.trans hw
      obtain ⟨s₂, keep⟩ := p
      cases keep with
      | some keepAlive => exact delivered_of_watch hw₂ h
      | none =>
        dsimp only
        unfold connectAndAuthorize
        generalize hf : s₂.connectPortForwardIfNeeded env = f
        have hw₃ : f.1.watch = s.watch := by
          rw [← hf]
          exact watch_connectPortForwardIfNeeded.trans hw₂
        obtain ⟨s₃, ok⟩ := f
        cases ok with
        | false => exact delivered_of_watch hw₃ h
        | true =>
          exact delivered_authorize (delivered_of_watch hw₃ h)
            ((congrArg Watch.kind hw₃).trans hn)

theorem delivered_waitForClick (lr : LoginRequest) (noPassword : Bool) (h : Ready s) :
    Delivered (s.waitForClick b env lr noPassword).1 := by
  unfold waitForClick
  extract_lets c
  have hw : c.1.watch = s.watch := by
    unfold c
    split
    · exact watch_prepareTerminalLogin
    · rfl
  obtain ⟨s₁, keep⟩ := c
  cases keep with
  | some keepAlive => exact delivered_of_watch hw h.1
  | none =>
    have h₂ : Delivered (s₁.tryStartCm lr.myId lr.myName false) := delivered_of_watch hw h.1
    dsimp only
    split
    · exact delivered_of_watch (watch_sendLoginError _) h₂
    · exact h₂

theorem delivered_loginPassed (lr : LoginRequest) (errMsg : String) (h : Ready s) :
    Delivered (s.loginPassed b env lr errMsg).1 := by
  unfold loginPassed
  split
  · generalize hl : s.sendLogonResponseAndKeepAlive b env = c
    have hd : Delivered c.1 := hl ▸ delivered_sendLogonResponseAndKeepAlive h
    obtain ⟨s₁, keep⟩ := c
    cases keep with
    | false => exact hd
    | true => exact delivered_of_watch (s := s₁) rfl hd
  · exact delivered_of_watch (watch_sendLoginError _) h.1

theorem delivered_loginWithPassword (lr : LoginRequest) (errMsg : String) (h : Ready s) :
    Delivered (s.loginWithPassword b env lr errMsg).1 := by
  unfold loginWithPassword
  generalize hc : s.checkFailure env 0 .default = c
  have hw : c.1.watch = s.watch := hc ▸ watch_checkFailure 0 .default
  obtain ⟨s₁, ok⟩ := c
  cases ok with
  | false => exact delivered_of_watch hw h.1
  | true =>
    dsimp only
    generalize hv : s₁.validatePassword env _ = v
    have hw₂ : v.1.watch = s.watch := by
      rw [← hv]
      exact (watch_validatePassword _).trans hw
    obtain ⟨s₂, ok⟩ := v
    cases ok with
    | false =>
      have h₂ : Delivered ((s₂.emit (.updateFailure false 0 .default)).emit
          (.temporaryPassword false)) := delivered_of_watch hw₂ h.1
      dsimp only
      split
      · exact delivered_of_watch ((watch_tryStartCm _ _ _).trans (watch_sendLoginError _)) h₂
      · exact delivered_of_watch (watch_sendLoginError _) h₂
    | true =>
      have h₂ : Ready (s₂.emit (.updateFailure true 0 .default)) := h.of_watch hw₂
      exact delivered_loginPassed lr errMsg h₂

theorem delivered_loginValidate (lr : LoginRequest) (errMsg : String) (h : Ready s) :
    Delivered (s.loginValidate b env lr errMsg).1 := by
  unfold loginValidate
  split
  · exact delivered_waitForClick lr true h
  · generalize hc : s.isRecentSession env false = c
    have hw : c.1.watch = s.watch := hc ▸ watch_isRecentSession false
    obtain ⟨s₁, ok⟩ := c
    cases ok with
    | true => exact delivered_loginPassed lr errMsg (h.of_watch hw)
    | false =>
      dsimp only
      split
      · split
        · exact delivered_waitForClick lr false (h.of_watch hw)
        · exact delivered_of_watch hw h.1
      · exact delivered_loginWithPassword lr errMsg (h.of_watch hw)

theorem watch_checkFailure_if (c : Bool) :
    (if c then s.checkFailure env 0 .default else (s, true)).1.watch = s.watch := by
  split
  · exact watch_checkFailure 0 .default
  · rfl

theorem delivered_loginDesktop (lr : LoginRequest) (h : Ready s) :
    Delivered (s.loginDesktop b env lr).1 := by
  unfold loginDesktop
  split
  · exact delivered_loginValidate lr "" h
  · extract_lets headless errMsg
    generalize hc : (if (headless && env.linuxDesktopUsernameEmpty) = true then
      s.checkFailure env 0 .default else (s, true)) = c
    have hw : c.1.watch = s.watch := hc ▸ watch_checkFailure_if _
    obtain ⟨s₁, ok⟩ := c
    cases ok with
    | false => exact delivered_of_watch hw h.1
    | true =>
      dsimp only
      split
      · exact delivered_loginValidate lr errMsg (h.of_watch hw)
      · generalize hc₂ : (if (headless && errMsg == "Wrong Password") = true then
          s₁.checkFailure env 0 .default else (s₁, true)) = c₂
        have hw₂ : c₂.1.watch = s.watch := by
          rw [← hc₂]
          exact (watch_checkFailure_if _).trans hw
        obtain ⟨s₂, ok⟩ := c₂
        cases ok with
        | false => exact delivered_of_watch hw₂ h.1
        | true =>
          dsimp only
          split <;> exact delivered_of_watch hw₂ h.1

theorem delivered_loginPermitted (lr : LoginRequest) (h : Ready s) :
    Delivered (s.loginPermitted b env lr).1 := by
  unfold loginPermitted
  split
  · exact delivered_of_watch (watch_sendLoginError _) h.1
  · split
    · exact delivered_of_watch (watch_sendLoginError _) h.1
    · exact delivered_loginDesktop lr (h.of_watch (watch_onlyIf watch_tryStartCmIpc))

theorem watch_loginScope (lr : LoginRequest) : (s.loginScope b env lr).1.watch = s.watch := by
  unfold loginScope checkPermission
  split
  · cases permission b env .fileTransfer s.controlPermissions <;> rfl
  · cases permission b env .camera s.controlPermissions <;> rfl
  · cases permission b env .terminal s.controlPermissions with
    | false => rfl
    | true =>
      dsimp only
      split <;> rfl
  · cases permission b env .tunnel s.controlPermissions <;> rfl
  · split <;> rfl

theorem delivered_onLoginRequest (lr : LoginRequest) (h : Ready s) :
    Delivered (s.onLoginRequest b env lr).1 := by
  unfold onLoginRequest
  extract_lets s₁
  have hw₁ : s₁.watch = s.watch := watch_handleLoginRequestWithoutValidation lr
  split
  · exact delivered_of_watch hw₁ h.1
  · generalize hc : s₁.resetSessionScopeForLogin.loginScope b env lr = c
    have hw : c.1.watch = s.watch := by
      rw [← hc]
      exact (watch_loginScope lr).trans hw₁
    obtain ⟨s₂, ok⟩ := c
    cases ok with
    | false => exact delivered_of_watch hw h.1
    | true => exact delivered_loginPermitted lr (h.of_watch hw)

theorem delivered_onAuth2fa (code : String) (hwid : Bytes) (h : Ready s) :
    Delivered (s.onAuth2fa b env code hwid).1 := by
  unfold onAuth2fa
  generalize hc : s.checkFailure env 1 .default = c
  have hw : c.1.watch = s.watch := hc ▸ watch_checkFailure 1 .default
  obtain ⟨s₁, ok⟩ := c
  cases ok with
  | false => exact delivered_of_watch hw h.1
  | true =>
    dsimp only
    split
    · exact delivered_of_watch hw h.1
    · have hw' := (watch_emit (.updateFailure false 1 .default)).trans
        ((watch_emit (.totp false)).trans hw)
      exact delivered_of_watch ((watch_sendLoginError _).trans hw') h.1
    · have hready : Ready (s₁.codeAccepted env) := h.of_watch hw
      unfold auth2faPassed
      generalize hl : (s₁.codeAccepted env).sendLogonResponseAndKeepAlive b env = l
      have hd : Delivered l.1 := hl ▸ delivered_sendLogonResponseAndKeepAlive hready
      obtain ⟨s₂, keep⟩ := l
      cases keep with
      | false => exact hd
      | true =>
        refine delivered_of_watch (watch_onlyIf ?_) (delivered_of_watch (s := s₂) rfl hd)
        rfl

theorem delivered_onSwitchSidesResponse (uuid : Bytes) (lr : Option LoginRequest) (h : Ready s) :
    Delivered (s.onSwitchSidesResponse b env uuid lr).1 := by
  unfold onSwitchSidesResponse
  split
  · exact h.1
  · rename_i lr' _
    extract_lets s₁ uuids uuidOld s₂ s₃
    have hw : s₂.watch = s.watch := watch_handleLoginRequestWithoutValidation lr'
    have h₃ : Ready s₃ := h.of_watch hw
    clear_value uuidOld
    rcases uuidOld with _ | ⟨_, old⟩
    · exact delivered_of_watch hw h.1
    · dsimp only
      split
      · generalize hl : s₃.sendLogonResponseAndKeepAlive b env = l
        have hd : Delivered l.1 := hl ▸ delivered_sendLogonResponseAndKeepAlive h₃
        obtain ⟨s₄, keep⟩ := l
        cases keep with
        | false => exact hd
        | true => exact delivered_of_watch watch_tryStartCmIpc (delivered_of_watch (s := s₄) rfl hd)
      · exact delivered_of_watch hw h.1

theorem delivered_onAuthorize (h : Ready s) : Delivered (s.onAuthorize b env).1 := by
  unfold onAuthorize
  extract_lets s₁
  generalize hl : s₁.sendLogonResponseAndKeepAlive b env = l
  have hd : Delivered l.1 :=
    hl ▸ delivered_sendLogonResponseAndKeepAlive (h.of_watch (s := s) rfl)
  obtain ⟨s₂, keep⟩ := l
  cases keep with
  | false => exact hd
  | true => exact hd

/-! ### The permission switch -/

theorem authedConnId_subscribe {svc : Service} {sub : Bool} :
    (s.subscribe env svc sub).authedConnId = s.authedConnId :=
  congrArg Core.authedConnId (frame_subscribe (k := fun _ => True) svc sub).1

theorem delivered_onlyIf {c : Bool} {f : Connection → Connection} (h : Delivered s)
    (hf : c = true → Delivered (f s)) : Delivered (s.onlyIf c f) := by
  unfold onlyIf
  split
  · rename_i hc
    exact hf hc
  · exact h

theorem delivered_subscribeKeyboard {cursor : Bool} (h : Delivered s)
    (hclip : s.canSubClipboardService env = true → env.serverAlive = true →
      env.hasService .clipboard = true → s.authedConnId = some .remote)
    (hfile : b.unixFileCopyPaste = true → s.canSubFileClipboardService env = true →
      env.serverAlive = true → env.hasService .fileClipboard = true →
      s.authedConnId = some .remote)
    (hcursor : cursor = true → env.serverAlive = true → env.hasService .cursor = true →
      s.authedConnId = some .remote) : Delivered (s.subscribeKeyboard b env cursor) := by
  have h₁ : Delivered (s.subscribe env .clipboard (s.canSubClipboardService env)) :=
    delivered_subscribe h hclip
  unfold subscribeKeyboard
  refine delivered_subscribe (delivered_onlyIf h₁ fun hb => delivered_subscribe h₁ ?_) ?_
  · intro hsub halive hhas
    rw [authedConnId_subscribe]
    exact hfile hb hsub halive hhas
  · intro hsub halive hhas
    have hkind : ∀ s₁ : Connection, (s₁.onlyIf b.unixFileCopyPaste (subscribe env .fileClipboard
        (s.canSubFileClipboardService env))).authedConnId = s₁.authedConnId := by
      intro s₁
      unfold onlyIf
      split
      · exact authedConnId_subscribe
      · rfl
    rw [hkind, authedConnId_subscribe]
    exact hcursor hsub halive hhas

theorem delivered_switchPrivacyMode (enabled : Bool) (h : Delivered s) :
    Delivered (s.switchPrivacyMode env enabled) := by
  refine delivered_of_watch (s := s) ?_ h
  unfold switchPrivacyMode
  split
  · split <;> rfl
  · rfl

theorem delivered_switchPermission {name : String} {enabled : Bool} (h : Delivered s)
    (hok : env.serverAlive = true → ∀ svc ∈ switchSubscribes b env name enabled s,
      env.hasService svc = true → svc.Allowed s.authedConnId s.voiceCalling) :
    Delivered (s.switchPermission b env name enabled) := by
  apply switchPermission_elim
  · rintro rfl s₁
    have h₁ : Delivered s₁ := delivered_of_watch (s := s) rfl h
    refine delivered_subscribeKeyboard h₁ ?_ ?_ ?_
    · intro hsub halive hhas
      refine hok halive .clipboard ?_ hhas
      simp [switchSubscribes, show (s.setKeyboard enabled).canSubClipboardService env = true from hsub]
    · intro hb hsub halive hhas
      refine hok halive .fileClipboard ?_ hhas
      simp [switchSubscribes, hb,
        show (s.setKeyboard enabled).canSubFileClipboardService env = true from hsub]
    · intro hsub halive hhas
      refine hok halive .cursor ?_ hhas
      simp [switchSubscribes, show (enabled || s.opts.showRemoteCursor) = true from hsub]
  · rintro rfl s₁
    have h₁ : Delivered s₁ := delivered_of_watch (s := s) rfl h
    refine delivered_subscribe h₁ fun hsub halive hhas => hok halive .clipboard ?_ hhas
    simp [switchSubscribes, show (s.setClipboard enabled).canSubClipboardService env = true from hsub]
  · rintro rfl s₁
    have h₁ : Delivered s₁ := delivered_of_watch (s := s) rfl h
    refine delivered_onlyIf h₁ fun hauth => ?_
    have hauth' : s.authorized = true := hauth
    have hcam' : s₁.isAuthedViewCameraConn = s.isAuthedViewCameraConn := rfl
    have hvoice' : s₁.voiceCalling = s.voiceCalling := rfl
    unfold subscribeAudio
    rw [hcam', hvoice']
    split
    · split
      · rename_i hvoice
        refine delivered_subscribe h₁ fun hsub halive hhas => hok halive .audio ?_ hhas
        have hon : s.voiceCalling = true := by simpa [hsub] using hvoice
        simp [switchSubscribes, hauth', hon,
          show (s.setAudio enabled).audioEnabled = true from hsub]
      · exact h₁
    · rename_i hcam
      rw [Bool.not_eq_true] at hcam
      refine delivered_subscribe h₁ fun hsub halive hhas => hok halive .audio ?_ hhas
      simp [switchSubscribes, hauth', hcam, show (s.setAudio enabled).audioEnabled = true from hsub]
  · rintro rfl s₁
    have h₁ : Delivered s₁ := delivered_of_watch (s := s) rfl h
    refine delivered_onlyIf h₁ fun hb => ?_
    refine delivered_subscribe h₁ fun hsub halive hhas => hok halive .fileClipboard ?_ hhas
    simp [switchSubscribes, hb,
      show (s.setFile enabled).canSubFileClipboardService env = true from hsub]
  · intro _ p kind
    exact delivered_of_watch (watch_send _) h
  · intro _
    exact delivered_switchPrivacyMode enabled h
  · intro _
    exact h

/-! ### The loop -/

theorem watch_handleReadJobInitResult (id : Int)
    (result : Except String (Option (String × List FileEntry))) :
    (s.handleReadJobInitResult id result).watch = s.watch := by
  unfold handleReadJobInitResult
  split
  · rfl
  · split <;> rfl

theorem watch_finishCmReadJob (id : Int) (fr : FileResponse) :
    (s.finishCmReadJob id fr).watch = s.watch := by
  unfold finishCmReadJob
  split <;> rfl

theorem watch_forwardFromCm (id : Int) (fr : FileResponse) :
    (s.forwardFromCm id fr).watch = s.watch := by
  unfold forwardFromCm
  split <;> rfl

theorem watch_handleAllFilesResult (id : Int) (path : String)
    (result : Except String (Option (String × List FileEntry))) :
    (s.handleAllFilesResult id path result).watch = s.watch := by
  unfold handleAllFilesResult
  split <;> rfl

theorem watch_if {c : Prop} [Decidable c] (h : s'.watch = s.watch) :
    (if c then s' else s).watch = s.watch := by
  split
  · exact h
  · rfl

theorem delivered_onCmData (d : FromCm) (h : Delivered s)
    (hok : ∀ name enabled, d = .switchPermission name enabled → env.serverAlive = true →
      ∀ svc ∈ switchSubscribes b env name enabled s, env.hasService svc = true →
        svc.Allowed s.authedConnId s.voiceCalling) :
    Delivered (s.onCmData b env d) := by
  have hsame : ∀ {s'}, s'.watch = s.watch → Delivered s' := fun hw => delivered_of_watch hw h
  cases d with
  | switchPermission name enabled => exact delivered_switchPermission h (hok name enabled rfl)
  | clipboardFile files => exact hsame (watch_if rfl)
  | requestStart => exact hsame (watch_if rfl)
  | switchSidesBack => exact hsame (watch_if rfl)
  | voiceCallResponse accepted => exact delivered_handleVoiceCall accepted h
  | closeVoiceCall => exact delivered_of_watch (s := s.closeVoiceCall env) rfl (delivered_closeVoiceCall h)
  | readJobInitResult connId id result =>
    exact hsame (watch_if (watch_handleReadJobInitResult id result))
  | fileBlockFromCm connId block => exact hsame (watch_if (watch_forwardFromCm _ _))
  | fileReadDone connId id fileNum => exact hsame (watch_if (watch_finishCmReadJob _ _))
  | fileReadError connId id fileNum err => exact hsame (watch_if (watch_finishCmReadJob _ _))
  | fileDigestFromCm connId d => exact hsame (watch_if (watch_forwardFromCm _ _))
  | allFilesResult connId id path result =>
    exact hsame (watch_if (watch_handleAllFilesResult id path result))
  | _ => exact hsame rfl

theorem delivered_onMessage (m : Message) (h : Ready s)
    (hk : s.authorized = true → s.isRemote = true → s.authedConnId = some .remote) :
    Delivered (s.onMessage b env m).1 := by
  unfold onMessage
  split
  · exact delivered_of_watch (watch_checkRemoveSession.trans (watch_onClose true)) h.1
  split
  · exact h.1
  split
  · exact delivered_of_watch (watch_handleAuthorizedScopeViolation _) h.1
  · unfold dispatch
    split
    · exact delivered_onLoginRequest _ h
    · exact delivered_onAuth2fa _ _ h
    · exact delivered_of_watch (watch_onTestDelay _) h.1
    · exact delivered_onSwitchSidesResponse _ _ h
    · split
      · rename_i hauth
        exact delivered_onSessionMessage m h.1 (hk (Bool.and_eq_true_iff.mp hauth).1)
      · exact h.1

theorem delivered_onEvent (ev : Event) (h : Ready s)
    (hk : s.authorized = true → s.isRemote = true → s.authedConnId = some .remote)
    (hok : ∀ name enabled, ev = .cm (.switchPermission name enabled) → env.serverAlive = true →
      ∀ svc ∈ switchSubscribes b env name enabled s, env.hasService svc = true →
        svc.Allowed s.authedConnId s.voiceCalling) :
    Delivered (s.onEvent b env ev).1 := by
  have hsame : ∀ {s'}, s'.watch = s.watch → Delivered s' := fun hw => delivered_of_watch hw h.1
  have hclose : ∀ reason, ((s.sendCloseReasonNoRetry env reason).onClose b true).watch = s.watch :=
    fun reason => (watch_onClose true).trans (watch_sendCloseReasonNoRetry reason)
  cases ev with
  | message m =>
    have hd : Delivered (s.onMessage b env m).1 := delivered_onMessage m h hk
    dsimp only [onEvent, onPeerMessage]
    generalize s.onMessage b env m = c at hd ⊢
    obtain ⟨s₁, keep⟩ := c
    cases keep <;> exact hd
  | cm d =>
    dsimp only [onEvent, onCm]
    split
    · exact delivered_onAuthorize h
    · exact hsame ((watch_onClose true).trans ((watch_sendCloseReasonNoRetry "").trans rfl))
    · split
      · exact h.1
      · exact hsame (watch_onClose false)
    · exact delivered_onCmData d h.1 fun name enabled hd => hok name enabled (by rw [hd])
  | readJobs responses ok =>
    have hfold : (responses.foldl (fun s fr => s.send (.fileResponse fr)) s).watch = s.watch :=
      watch_foldl_send (fun fr => .fileResponse fr) responses
    dsimp only [onEvent, onReadJobs]
    split
    · exact hsame hfold
    · exact hsame ((watch_onClose false).trans hfold)
  | service m ok =>
    dsimp only [onEvent, onService]
    split
    · exact hsame ((watch_onClose false).trans (watch_sendCloseReasonNoRetry ""))
    · split
      · exact hsame rfl
      · exact hsame (watch_onClose false)
  | printerData =>
    dsimp only [onEvent, onPrinterData]
    split
    · split <;> exact hsame rfl
    · exact h.1
  | testDelayTimer timeout =>
    dsimp only [onEvent]
    split
    · exact hsame (watch_onClose true)
    · dsimp only [onTestDelayTimer]
      split
      · exact hsame rfl
      · exact h.1
  | fileClip stop => exact hsame (watch_if rfl)
  | webConsoleClose => exact hsame (hclose _)
  | inactivity => exact hsame (hclose _)
  | streamError => exact hsame (watch_onClose true)
  | streamEnd => exact hsame (watch_onClose true)
  | unparsable => exact h.1
  | interference sessions uuids => exact hsame rfl

/-- While the loop goes on, a session was authorized as the kind its flags say. -/
def KindSound (c : Core) (_ : List Effect) : Prop :=
  c.ended = false ∧ (c.authorized = true → c.authedConnId = some c.kind)

theorem kindRule (b : Build) :
    Rule b True (fun _ _ => True) (fun _ _ => True) (fun _ _ => True) KindSound where
  perms _ h := h
  grow _ h := h
  quiet _ _ _ := trivial
  attempt _ := trivial
  entry _ h := h
  token _ _ _ _ h := h
  connect _ _ _ := trivial
  authorize h _ _ _ _ hc := by
    refine ⟨trivial, fun p t o => ⟨?_, fun _ => rfl⟩⟩
    rcases hc with ⟨rfl, -, -⟩ | ⟨pf, -, -, rfl, -⟩
    · exact h.1
    · exact h.1
  request {s env lr s₁} addr h ha _ hi := by
    obtain ⟨req, hc, -⟩ := hi
    rw [hc]
    refine ⟨h.1, fun hf => ?_⟩
    have hf' : s.authorized = true := hf
    rw [ha] at hf'
    cases hf'
  switch h _ _ _ hi := by
    obtain ⟨req, hc, -⟩ := hi
    rw [hc]
    exact h
  switched h := h
  clicked h := h
  code h := h
  primary _ _ _ _ := .inl trivial
  within _ _ _ _ _ :=
    { input := fun _ => .inr trivial
      file := fun _ _ _ => trivial
      action := fun _ _ _ => trivial
      option := fun _ _ _ _ => trivial
      terminal := fun _ => trivial }
  loginScoped _ _ _ := ⟨fun _ => trivial, fun _ _ _ _ => trivial⟩

/-- The services are delivered as they should, by a loop whose sessions have the kind of
their flags. -/
def Inv (s : Connection) : Prop :=
  Delivered s ∧ Rule.Inv (fun _ _ => True) KindSound s

theorem ready_of_inv (h : Inv s) : Ready s := by
  refine ⟨h.1, fun ha => ?_⟩
  have hsome : s.authorized = s.authedConnId.isSome := h.2.1.2.1
  rw [ha] at hsome
  simpa using hsome.symm

theorem inv_step (s : Connection) (i : Env × Event) (h : Inv s) (hok : SwitchInScope b s i) :
    Inv (step b s i) := by
  refine ⟨?_, (kindRule b).inv_step s i h.2 trivial⟩
  unfold step
  split
  · exact h.1
  · rename_i hended
    rw [Bool.not_eq_true] at hended
    have hk : s.authorized = true → s.isRemote = true → s.authedConnId = some .remote := by
      intro ha hr
      have hkind : s.authedConnId = some s.kind := (h.2.2 hended).2 ha
      rw [hkind, kind_of_isRemote hr]
    have hd : Delivered (s.onEvent b i.1 i.2).1 :=
      delivered_onEvent i.2 (ready_of_inv h) hk fun name enabled he =>
        hok name enabled he hended
    generalize s.onEvent b i.1 i.2 = r at hd ⊢
    obtain ⟨s₁, keep⟩ := r
    cases keep with
    | true => exact hd
    | false => exact delivered_of_watch (s := s₁) rfl hd

/-! ### A switch out of scope -/

theorem mem_subscribe {svc : Service} (halive : env.serverAlive = true)
    (hhas : env.hasService svc = true) : svc ∈ (s.subscribe env svc true).subs := by
  unfold subscribe
  by_cases hm : svc ∈ s.subs
  · simp [halive, hhas, hm]
  · simp [halive, hhas, hm]

theorem mem_subscribe_of_ne {svc other : Service} {sub : Bool} (hne : svc ≠ other)
    (hm : svc ∈ s.subs) : svc ∈ (s.subscribe env other sub).subs := by
  unfold subscribe
  split_ifs
  · exact List.mem_cons_of_mem other hm
  · exact hm
  · exact List.mem_filter.mpr ⟨hm, by simpa using hne⟩

theorem voiceCalling_subscribe {svc : Service} {sub : Bool} :
    (s.subscribe env svc sub).voiceCalling = s.voiceCalling := by
  unfold subscribe
  split_ifs <;> rfl

theorem voiceCalling_onlyIf {c : Bool} {f : Connection → Connection}
    (h : (f s).voiceCalling = s.voiceCalling) : (s.onlyIf c f).voiceCalling = s.voiceCalling := by
  unfold onlyIf
  split
  · exact h
  · rfl

theorem voiceCalling_subscribeAudio : (s.subscribeAudio env).voiceCalling = s.voiceCalling := by
  unfold subscribeAudio
  split
  · split
    · exact voiceCalling_subscribe
    · rfl
  · exact voiceCalling_subscribe

theorem voiceCalling_switchPermission (name : String) (enabled : Bool) :
    (s.switchPermission b env name enabled).voiceCalling = s.voiceCalling := by
  apply switchPermission_elim (P := fun s' => s'.voiceCalling = s.voiceCalling)
  · intro _ s₁
    unfold subscribeKeyboard
    rw [voiceCalling_subscribe, voiceCalling_onlyIf voiceCalling_subscribe, voiceCalling_subscribe]
    rfl
  · intro _ s₁
    rw [voiceCalling_subscribe]
    rfl
  · intro _ s₁
    rw [voiceCalling_onlyIf voiceCalling_subscribeAudio]
    rfl
  · intro _ s₁
    rw [voiceCalling_onlyIf voiceCalling_subscribe]
    rfl
  · intro _ p kind
    rfl
  · intro _
    unfold switchPrivacyMode
    split
    · split <;> rfl
    · rfl
  · intro _
    rfl

theorem mem_onlyIf_subscribe {svc other : Service} {sub c : Bool} (hne : svc ≠ other)
    (hm : svc ∈ s.subs) : svc ∈ (s.onlyIf c (subscribe env other sub)).subs := by
  unfold onlyIf
  split
  · exact mem_subscribe_of_ne hne hm
  · exact hm

theorem mem_ite_singleton {α : Type*} {c : Bool} {x y : α}
    (h : x ∈ if c = true then [y] else []) : c = true ∧ x = y := by
  split at h
  · rename_i hc
    exact ⟨hc, List.mem_singleton.mp h⟩
  · cases h

theorem switchSubscribes_of_other {name : String} {enabled : Bool} (h : name ∉ subscribing) :
    switchSubscribes b env name enabled s = [] := by
  simp only [subscribing, List.mem_cons, List.not_mem_nil, not_or] at h
  obtain ⟨hkey, hclip, haudio, hfile, -⟩ := h
  rw [switchSubscribes, if_neg hkey, if_neg hclip, if_neg haudio, if_neg hfile]

/-- A permission switch does subscribe to the services its guards let through. -/
theorem mem_switchPermission {name : String} {enabled : Bool} {svc : Service}
    (halive : env.serverAlive = true) (hhas : env.hasService svc = true)
    (hm : svc ∈ switchSubscribes b env name enabled s) :
    svc ∈ (s.switchPermission b env name enabled).subs := by
  apply switchPermission_elim (P := fun s' => svc ∈ s'.subs)
  · rintro rfl s₁
    unfold subscribeKeyboard
    rw [switchSubscribes, if_pos rfl] at hm
    rcases List.mem_append.mp hm with hm | hm
    · rcases List.mem_append.mp hm with hm | hm
      · obtain ⟨hsub, rfl⟩ := mem_ite_singleton hm
        rw [show s₁.canSubClipboardService env = true from hsub]
        exact mem_subscribe_of_ne (by simp) (mem_onlyIf_subscribe (by simp)
          (mem_subscribe halive hhas))
      · obtain ⟨hsub, rfl⟩ := mem_ite_singleton hm
        obtain ⟨hb, hsub⟩ := Bool.and_eq_true_iff.mp hsub
        rw [hb, show s₁.canSubFileClipboardService env = true from hsub]
        exact mem_subscribe_of_ne (by simp) (mem_subscribe halive hhas)
    · obtain ⟨hsub, rfl⟩ := mem_ite_singleton hm
      rw [show (enabled || s₁.opts.showRemoteCursor) = true from hsub]
      exact mem_subscribe halive hhas
  · rintro rfl s₁
    rw [switchSubscribes, if_neg (by decide), if_pos rfl] at hm
    obtain ⟨hsub, rfl⟩ := mem_ite_singleton hm
    rw [show s₁.canSubClipboardService env = true from hsub]
    exact mem_subscribe halive hhas
  · rintro rfl s₁
    rw [switchSubscribes, if_neg (by decide), if_neg (by decide), if_pos rfl] at hm
    obtain ⟨hsub, rfl⟩ := mem_ite_singleton hm
    simp only [Bool.and_eq_true] at hsub
    obtain ⟨⟨hauth, henabled⟩, hcam⟩ := hsub
    have hon : s₁.audioEnabled = true := henabled
    have hauth₁ : s₁.authorized = true := hauth
    have hcam₁ : (!s₁.isAuthedViewCameraConn || s₁.voiceCalling) = true := hcam
    unfold onlyIf subscribeAudio
    rw [hauth₁, hon]
    by_cases hview : s₁.isAuthedViewCameraConn = true
    · have hvoice : s₁.voiceCalling = true := by simpa [hview] using hcam₁
      simpa [hview, hvoice] using mem_subscribe halive hhas
    · simpa [hview] using mem_subscribe halive hhas
  · rintro rfl s₁
    rw [switchSubscribes, if_neg (by decide), if_neg (by decide), if_neg (by decide), if_pos rfl] at hm
    obtain ⟨hsub, rfl⟩ := mem_ite_singleton hm
    obtain ⟨hb, hsub⟩ := Bool.and_eq_true_iff.mp hsub
    rw [hb, show s₁.canSubFileClipboardService env = true from hsub]
    exact mem_subscribe halive hhas
  · intro hother
    rw [switchSubscribes_of_other hother] at hm
    cases hm
  · intro hother
    rw [switchSubscribes_of_other hother] at hm
    cases hm
  · intro hother
    rw [switchSubscribes_of_other hother] at hm
    cases hm

/-- A switch out of scope delivers a service to a session that may not have it. -/
theorem not_delivered_step (s : Connection) (i : Env × Event) (hok : ¬ SwitchInScope b s i) :
    ¬ Delivered (step b s i) := by
  obtain ⟨env, ev⟩ := i
  unfold SwitchInScope at hok
  push Not at hok
  obtain ⟨name, enabled, hev, hended, halive, svc, hm, hhas, hno⟩ := hok
  have hev' : ev = .cm (.switchPermission name enabled) := hev
  subst hev'
  have hstep : step b s (env, .cm (.switchPermission name enabled)) =
      s.switchPermission b env name enabled := by
    unfold step
    rw [hended]
    rfl
  rw [hstep]
  intro hd
  have hall := hd svc (mem_switchPermission halive hhas hm)
  have hswitch : Switches (fun _ => True) s (s.switchPermission b env name enabled) :=
    switches_switchPermission name enabled
  obtain ⟨p, hframe⟩ := hswitch
  have hkind : (s.switchPermission b env name enabled).authedConnId = s.authedConnId :=
    congrArg Core.authedConnId hframe.1
  rw [voiceCalling_switchPermission, hkind] at hall
  exact hno hall

end ServiceDelivery

/-- In a run every service is delivered to the sessions it is meant for exactly when the
permission switches of the connection manager stay in scope. -/
theorem delivered_throughout (b : Build) (env : Env) (id : Int) (hash : Hash)
    (get2fa : Option String) (controlPermissions : Option UInt64) (is : List (Env × Event)) :
    History.Throughout (step b) Delivered
        (Connection.start b env id hash get2fa controlPermissions) is ↔
      History.Guarded (step b) (SwitchInScope b)
        (Connection.start b env id hash get2fa controlPermissions) is := by
  refine History.throughout_iff_guarded ServiceDelivery.inv_step (fun _ h => h.1)
    (fun s i _ => ServiceDelivery.not_delivered_step s i) ⟨?_, ⟨trivial, rfl, ?_⟩, ?_⟩
  · intro svc hm
    cases hm
  · intro k
    exact ⟨fun h => (by cases h), fun ⟨_, _, hm⟩ => by cases hm⟩
  · intro _
    exact ⟨rfl, fun h => by cases h⟩

/-- A switch of the keyboard permission delivers the cursor to a peer that did not log in. -/
theorem switch_delivers_before_login :
    ¬ ∀ (b : Build) (env : Env) (id : Int) (hash : Hash) (get2fa : Option String)
      (controlPermissions : Option UInt64) (is : List (Env × Event)),
      History.Throughout (step b) Delivered
        (Connection.start b env id hash get2fa controlPermissions) is := by
  intro h
  have hlast := History.throughout_last (h { os := .linux } {} 1 ⟨"", ""⟩ none none
    [({}, .cm (.switchPermission "keyboard" true))])
  have hcursor : (History.run (step { os := .linux })
      (Connection.start { os := .linux } {} 1 ⟨"", ""⟩ none none)
      [({}, .cm (.switchPermission "keyboard" true))]).authedConnId = some .remote :=
    hlast .cursor (by decide)
  revert hcursor
  decide

end RustDesk
