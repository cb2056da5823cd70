import RustDesk.ConnectionOptions

/-!
# Login of a connection

The five ways into `send_logon_response_and_keep_alive`: a login request with a
password, a login request of a recent session, a second-factor code, a switch of
sides, and the click in the connection manager. Every function that may end the
connection returns whether it is to be kept alive.
-/

namespace RustDesk.Connection

def sendLoginError (env : Env) (err : String) (s : Connection) : Connection :=
  s.send (.loginError err
    (err == "2FA Required" && option2bool "enable-trusted-devices" (env.getOption "enable-trusted-devices")))

/-- `Self::permission` at a login, recorded with the login request in force. -/
def checkPermission (b : Build) (env : Env) (opt : PermissionOption) (s : Connection) :
    Connection × Bool :=
  let ok := permission b env opt s.controlPermissions
  (s.emit (.permission opt s.lr ok), ok)

def verifyH1 (env : Env) (s : Connection) (h1 : Bytes) : Bool :=
  env.sha256 (h1 ++ strBytes s.hash.challenge) == s.lr.password

def validatePasswordPlain (env : Env) (s : Connection) (password : String) : Bool :=
  if password.isEmpty then false
  else verifyH1 env s (env.sha256 (strBytes password ++ strBytes s.hash.salt))

def validatePasswordStorage (env : Env) (s : Connection) (storage : String) : Bool :=
  if storage.isEmpty then false
  else match env.decodePermanentPasswordH1 storage with
    | some h1 => verifyH1 env s h1
    | none => validatePasswordPlain env s storage

def validatePresetPasswordStorage (env : Env) (s : Connection) (storage salt : String) : Bool :=
  if salt.isEmpty then validatePasswordPlain env s storage
  else match env.decodePresetPasswordH1 storage with
    | some h1 => verifyH1 env s h1
    | none => false

/-- `update_or_insert_session` with a password and a second-factor flag. -/
def updateOrInsertSession (env : Env) (password : String) (tfa : Bool) (s : Connection) :
    Connection :=
  let session : Session := match s.sessions.lookup s.sessionKey with
    | some old => { old with randomPassword := password, tfa := tfa }
    | none => { lastRecvTime := env.now, randomPassword := password, tfa := tfa }
  { s with sessions := (s.sessionKey, session) :: s.sessions.filter (·.1 ≠ s.sessionKey) }

def setSession2fa (env : Env) (s : Connection) : Connection :=
  let session : Session := match s.sessions.lookup s.sessionKey with
    | some old => { old with tfa := true }
    | none => { lastRecvTime := env.now, randomPassword := "", tfa := true }
  { s with sessions := (s.sessionKey, session) :: s.sessions.filter (·.1 ≠ s.sessionKey) }

/-- The permanent-password part of `validate_password`. -/
def validatePermanentPassword (env : Env) (s : Connection) : Bool :=
  if !env.localStorage.isEmpty then
    env.localStorageUsable env.localStorage env.localSalt
      && validatePasswordStorage env s env.localStorage
  else
    env.presetStorageUsable env.presetStorage env.presetSalt
      && validatePresetPasswordStorage env s env.presetStorage env.presetSalt

def validatePassword (env : Env) (allowPermanentPassword : Bool) (s : Connection) :
    Connection × Bool :=
  if env.temporaryEnabled && validatePasswordPlain env s env.temporaryPassword then
    let s := { s with connAuditPrimaryAuth := .temporaryPassword }
    let s := s.updateOrInsertSession env env.temporaryPassword false
    ((s.emit (.temporaryPassword true)).emit (.validatePassword true), true)
  else if (env.permanentEnabled || allowPermanentPassword) && validatePermanentPassword env s then
    (({ s with connAuditPrimaryAuth := .permanentPassword }).emit (.validatePassword true), true)
  else (s.emit (.validatePassword false), false)

/-- `is_recent_session`: sessions silent for `SESSION_TIMEOUT` are dropped first. -/
def isRecentSession (env : Env) (tfa : Bool) (s : Connection) : Connection × Bool :=
  let s := { s with sessions := s.sessions.filter fun p => env.now - p.2.lastRecvTime < 30000 }
  match s.sessions.lookup s.sessionKey with
  | some session =>
    if !s.lr.password.isEmpty &&
        (tfa && session.tfa || !tfa && validatePasswordPlain env s session.randomPassword) then
      let s := if tfa then { s with connAuditTwoFactor := .totp }
        else { s with connAuditPrimaryAuth := .temporaryPassword }
      (s.emit (.recentSession tfa), true)
    else (s, false)
  | none => (s, false)

/-- `check_failure_with_scope`; the rate limiter itself answers through `Env`. -/
def checkFailure (env : Env) (i : Nat) (scope : FailureScope) (s : Connection) :
    Connection × Bool :=
  let decision := env.checkFailure i scope
  if decision.allowed then (s, true)
  else (match decision.loginError with | some e => s.sendLoginError env e | none => s, false)

def outdate (env : Env) (d : TrustedDevice) : Bool := d.time + 90 * 24 * 60 * 60 * 1000 < env.now

def handleLoginRequestWithoutValidation (env : Env) (lr : LoginRequest) (s : Connection) :
    Connection :=
  let s := { s with
    lr := lr
    optionsInLogin := if lr.option.isSome then lr.option else s.optionsInLogin
    videoAckRequired := lr.videoAckRequired }.emit (.installLogin lr)
  if s.require2fa.isSome && !lr.hwid.isEmpty &&
      option2bool "enable-trusted-devices" (env.getOption "enable-trusted-devices") then
    match env.trustedDevices.find? (·.hwid == lr.hwid) with
    | some d =>
      if !outdate env d && d.id == lr.myId && d.name == lr.myName && d.platform == lr.myPlatform then
        { s with connAuditTwoFactor := .trustedDevice, require2fa := none }.emit .trustedDevice
      else s
    | none => s
  else s

def resetSessionScopeForLogin (s : Connection) : Connection :=
  { s with
    fileTransfer := none
    viewCamera := false
    terminal := false
    portForwardAddress := ""
    terminalPersistent := false }

def normalizePortForwardTarget (pf : PortForward) : String × Bool :=
  let isRdp := pf.host == "RDP" && pf.port == 0
  let pf : PortForward := if isRdp then ⟨"localhost", 3389⟩ else pf
  let host := if pf.host.isEmpty then "localhost" else pf.host
  (host ++ ":" ++ toString pf.port, isRdp)

def connectPortForwardIfNeeded (env : Env) (s : Connection) : Connection × Bool :=
  if s.portForwardSocket.isSome then (s, true)
  else match s.lr.union with
    | some (.portForward pf) =>
      let target := normalizePortForwardTarget pf
      let s := { s with portForwardAddress := target.1 }.emit (.tcpConnect target.1 s.lr)
      if env.tcpConnect target.1 then ({ s with portForwardSocket := some target.1 }, true)
      else
        let addr := if target.2 then "RDP" else target.1
        (s.sendLoginError env
          ("Failed to access remote " ++ addr ++ ". Please make sure it is reachable/open."), false)
    | _ => (s, true)

/-- `try_start_cm_ipc`: the connection manager is contacted once. -/
def tryStartCmIpc (s : Connection) : Connection :=
  if s.startCmIpcPara then { s with startCmIpcPara := false }.emit .startCmIpc else s

def tryStartCm (peerId name : String) (authorized : Bool) (s : Connection) : Connection :=
  s.sendToCm (.login peerId name authorized s.portForwardAddress)

def handleAdministratorCheck (env : Env) (username password : String) (s : Connection) :
    Connection × Option String :=
  if env.logonUserTokenIsAdmin username password then
    ({ s with terminalUserToken := some .selfUser }, none)
  else (s, some "Incorrect username or password.")

def handleInstalledUser (env : Env) (s : Connection) : Connection × Option String :=
  if !env.currentSessionIdValid then (s, some "Failed to get current session id.")
  else match env.userToken with
    | some token => ({ s with terminalUserToken := some (.currentLogonUser token) }, none)
    | none => (s, some "Failed to get user token.")

/-- `fill_terminal_user_token`; outside Windows the shell runs as the own user. -/
def fillTerminalUserToken (b : Build) (env : Env) (username password : String) (s : Connection) :
    Connection × Option String :=
  let r : Connection × Option String :=
    if !b.windows then ({ s with terminalUserToken := some .selfUser }, none)
    else if !username.isEmpty then s.handleAdministratorCheck env username password
    else if env.isPrelogin then
      ({ s with terminalUserToken := none },
        some "No active console user logged on, please connect and logon first.")
    else if env.isInstalled then s.handleInstalledUser env
    else ({ s with terminalUserToken := some .selfUser }, none)
  (r.1.emit (.fillTerminalUserToken username password r.2), r.2)

/-- The service/user match test, which passes when no such service runs. -/
def serviceUserMatch (env : Env) (s : Connection) : Bool :=
  match env.serviceSpecifiedUser s.terminalServiceId, s.terminalUserToken with
  | some isUser, some token => isUser == token.toTerminalServiceToken.isSome
  | _, _ => true

def updateTerminalFailure (osLogin remove : Bool) (s : Connection) : Connection :=
  s.onlyIf osLogin (emit (.updateFailure remove 0 .terminalOsLogin))

/-- The second half of `prepare_terminal_login_for_authorization`: the service of the
requested id must run for the kind of user the token is for. -/
def checkTerminalServiceUser (env : Env) (osLogin : Bool) (s : Connection) :
    Connection × Option Bool :=
  if s.serviceUserMatch env then
    ((s.emit (.serviceUserCheck s.terminalServiceId true)).onlyIf osLogin tryStartCmIpc, none)
  else
    ((s.emit (.serviceUserCheck s.terminalServiceId false)).sendLoginError env
      "Terminal service user mismatch detected.", some false)

/-- The body of `prepare_terminal_login_for_authorization` once the rate limiter and
the gate for OS logins have let the request through. -/
def prepareTerminalToken (b : Build) (env : Env) (username : String) (osLogin : Bool)
    (s : Connection) : Connection × Option Bool :=
  match s.fillTerminalUserToken b env username s.lr.osLogin.password with
  | (s, some msg) => ((s.updateTerminalFailure osLogin false).sendLoginError env msg, some false)
  | (s, none) => (s.updateTerminalFailure osLogin true).checkTerminalServiceUser env osLogin

/-- `prepare_terminal_login_for_authorization`; `none` lets the login go on. -/
def prepareTerminalLoginForAuthorization (b : Build) (env : Env) (s : Connection) :
    Connection × Option Bool :=
  if b.mobile || !s.terminal || s.terminalUserToken.isSome then (s, none)
  else
    let username := trim s.lr.osLogin.username
    let osLogin := shouldUseTerminalOsLoginScope b s.terminal username
    match if osLogin then s.checkFailure env 0 .terminalOsLogin else (s, true) with
    | (s, false) => (s, some false)
    | (s, true) =>
      if b.windows && osLogin && !env.osCredentialLoginGate then
        (s.sendLoginError env "Please try 1 minute later", some false)
      else s.prepareTerminalToken b env username osLogin

def initTerminalService (env : Env) (s : Connection) : Connection :=
  match s.terminalUserToken with
  | none => s
  | some token =>
    let s := if s.terminalServiceId.isEmpty then
        { s with terminalServiceId := env.generateServiceId } else s
    { s with terminalGenericService := true }.emit
      (.terminalService s.terminalServiceId s.terminalPersistent token.toTerminalServiceToken)

def updateScopedLoginOptions (b : Build) (env : Env) (s : Connection) : Connection :=
  match s.optionsInLogin with
  | none => s
  | some o =>
    let s := { s with optionsInLogin := none }
    match s.authedConnId with
    | none => s
    | some kind =>
      match (scopedLoginOption kind o).1 with
      | some kept => s.updateOptions b env kept
      | none => s

def updateCodecOnLogin (s : Connection) : Connection :=
  s.emit (.updateDecoding (s.lr.option.bind OptionMessage.supportedDecoding))

def setKeyboard (enabled : Bool) (s : Connection) : Connection :=
  { s with perms := { s.perms with keyboard := enabled } }

def readDir (dir : String) (includeHidden : Bool) (s : Connection) : Connection :=
  s.sendFs (.readDir dir includeHidden)

def normalizeConnAuditAuthFields (s : Connection) : Connection :=
  if s.connAuditPrimaryAuth = .click ∨ s.connAuditPrimaryAuth = .switchSides then
    { s with connAuditTwoFactor := .none }
  else s

/-- What follows the login response: the session of its kind is opened. -/
def openSession (b : Build) (env : Env) (subService wait : Bool) (s : Connection) : Connection :=
  match s.fileTransfer with
  | some (dir, showHidden) =>
    let s := s.setKeyboard false
    let dir := if !dir.isEmpty && env.isDir dir then dir else ""
    if !wait then s.readDir dir showHidden else { s with delayedReadDir := some (dir, showHidden) }
  | none =>
    if s.terminal then
      let s := s.setKeyboard false
      if b.mobile then s else s.initTerminalService env
    else if s.viewCamera then
      let s := if !wait then s.trySubCameraDisplays env else s
      (s.setKeyboard false).send (.permissionInfo .keyboard false)
    else if subService && !wait then s.trySubMonitorServices b env
    else s

/-- The login response of a kind other than port forwarding. For a remote session the
answer may be an error although the connection is authorized already. -/
def sendLogonResponse (b : Build) (env : Env) (s : Connection) : Connection :=
  if b.linux && s.isRemote && !env.linuxDisplayServerError.isEmpty then
    s.send (.loginError env.linuxDisplayServerError false)
  else
    let wait := b.windows && !s.terminal && env.waitSessionIdConfirm
    if s.fileTransfer.isSome || s.terminal then
      (s.send .loginPeerInfo).updateScopedLoginOptions b env |>.openSession b env false wait
    else if s.viewCamera then
      (s.updateCodecOnLogin.send .loginPeerInfo).updateScopedLoginOptions b env
        |>.openSession b env false wait
    else match env.displaysOnLogin with
      | .error e =>
        (s.updateCodecOnLogin.send (.loginError e false)).updateScopedLoginOptions b env
          |>.openSession b env false wait
      | .ok () =>
        (s.updateCodecOnLogin.send .loginPeerInfo).updateScopedLoginOptions b env
          |>.openSession b env true wait

/-- The connection is authorized as the kind its flags say, for the login request in force. -/
def setAuthorized (s : Connection) : Connection :=
  { s with authorized := true, authedConnId := some s.kind }.emit
    (.authorize s.kind s.lr s.terminalServiceId)

/-- The part of `send_logon_response_and_keep_alive` from `self.authorized = true` on. -/
def authorize (b : Build) (env : Env) (s : Connection) : Connection :=
  let s := s.setAuthorized.normalizeConnAuditAuthFields
  if s.portForwardSocket.isSome then s.send .loginPeerInfo
  else s.sendLogonResponse b env

/-- The end of `send_logon_response_and_keep_alive`, once the second factor and the
terminal login are settled. -/
def connectAndAuthorize (b : Build) (env : Env) (s : Connection) : Connection × Bool :=
  match s.connectPortForwardIfNeeded env with
  | (s, false) => (s, false)
  | (s, true) => (s.authorize b env, true)

/-- `send_logon_response_and_keep_alive`. The second factor is asked for only while
`require_2fa` is set, and `is_recent_session(true)` is called only then. -/
def sendLogonResponseAndKeepAlive (b : Build) (env : Env) (s : Connection) : Connection × Bool :=
  if s.authorized then (s, true)
  else
    match if s.require2fa.isSome then s.isRecentSession env true else (s, true) with
    | (s, passed) =>
      if !passed && !s.fromSwitch then (s.sendLoginError env "2FA Required", true)
      else match s.prepareTerminalLoginForAuthorization b env with
        | (s, some keepAlive) => (s, keepAlive)
        | (s, none) => s.connectAndAuthorize b env

/-- The kind of a login request and its permission check. -/
def loginScope (b : Build) (env : Env) (lr : LoginRequest) (s : Connection) : Connection × Bool :=
  match lr.union with
  | some (.fileTransfer dir showHidden) =>
    match s.checkPermission b env .fileTransfer with
    | (s, false) => (s.sendLoginError env "No permission of file transfer", false)
    | (s, true) => ({ s with fileTransfer := some (dir, showHidden) }, true)
  | some .viewCamera =>
    match s.checkPermission b env .camera with
    | (s, false) => (s.sendLoginError env "No permission of viewing camera", false)
    | (s, true) => ({ s with viewCamera := true }, true)
  | some (.terminal serviceId) =>
    match s.checkPermission b env .terminal with
    | (s, false) => (s.sendLoginError env "No permission of terminal", false)
    | (s, true) =>
      if b.windows && !lr.osLogin.username.isEmpty && !env.isInstalled then
        (s.sendLoginError env "Supported only in the installed version.", false)
      else ({ s with
        terminal := true
        terminalPersistent := match s.optionsInLogin with
          | some o => BoolOption.enumValue o.terminalPersistent == some .yes
          | none => s.terminalPersistent
        terminalServiceId := serviceId }, true)
  | some (.portForward pf) =>
    match s.checkPermission b env .tunnel with
    | (s, false) => (s.sendLoginError env "No permission of IP tunneling", false)
    | (s, true) => ({ s with portForwardAddress := (normalizePortForwardTarget pf).1 }, true)
  | none =>
    if env.isInPrivacyMode then
      (s.sendLoginError env "Someone turns on privacy mode, exit", false)
    else (s, true)

def approveMode (env : Env) : ApproveMode :=
  if env.getOption "approve-mode" = "password" then .password
  else if env.getOption "approve-mode" = "click" then .click
  else .both

def hasValidPassword (env : Env) : Bool :=
  env.temporaryEnabled && !env.temporaryPassword.isEmpty
    || env.permanentEnabled && env.hasPermanentPassword

def isLogon (b : Build) (env : Env) : Bool :=
  if b.windows then env.isPrelogin || env.isLocked || env.isLogonUi
  else if b.mobile then env.isPrelogin
  else env.isPrelogin || env.isLocked

def allowLogonScreenPassword (b : Build) (env : Env) : Bool :=
  env.getBuiltinOption "allow-logon-screen-password" == "Y" && isLogon b env

/-- A login that is left to the click in the connection manager: with OS credentials
for a terminal, these are checked before the manager is told. -/
def waitForClick (b : Build) (env : Env) (lr : LoginRequest) (noPasswordAccess : Bool)
    (s : Connection) : Connection × Bool :=
  let r : Connection × Option Bool :=
    if shouldUseTerminalOsLoginScope b s.terminal lr.osLogin.username then
      s.prepareTerminalLoginForAuthorization b env
    else (s, none)
  match r with
  | (s, some keepAlive) => (s, keepAlive)
  | (s, none) =>
    let s := s.tryStartCm lr.myId lr.myName false
    if noPasswordAccess && getVersionNumber "1.2.0" ≤ getVersionNumber lr.version then
      (s.sendLoginError env "No Password Access", true)
    else (s, true)

/-- The login goes on to authorization, unless the desktop is not ready. -/
def loginPassed (b : Build) (env : Env) (lr : LoginRequest) (errMsg : String) (s : Connection) :
    Connection × Bool :=
  if errMsg.isEmpty then
    match s.sendLogonResponseAndKeepAlive b env with
    | (s, false) => (s, false)
    | (s, true) => (s.tryStartCm lr.myId lr.myName s.authorized, true)
  else (s.sendLoginError env errMsg, true)

/-- The password check of a login request. -/
def loginWithPassword (b : Build) (env : Env) (lr : LoginRequest) (errMsg : String)
    (s : Connection) : Connection × Bool :=
  match s.checkFailure env 0 .default with
  | (s, false) => (s, true)
  | (s, true) =>
    match s.validatePassword env (allowLogonScreenPassword b env) with
    | (s, false) =>
      let s := (s.emit (.updateFailure false 0 .default)).emit (.temporaryPassword false)
      if errMsg.isEmpty then
        ((s.sendLoginError env "Wrong Password").tryStartCm lr.myId lr.myName false, true)
      else (s.sendLoginError env "Desktop session not ready, password wrong", true)
    | (s, true) => (s.emit (.updateFailure true 0 .default)).loginPassed b env lr errMsg

/-- The authentication part of a login request. -/
def loginValidate (b : Build) (env : Env) (lr : LoginRequest) (errMsg : String) (s : Connection) :
    Connection × Bool :=
  if (approveMode env = .click ∧ !allowLogonScreenPassword b env) ∨
      (approveMode env = .both ∧ !hasValidPassword env) then s.waitForClick b env lr true
  else match s.isRecentSession env false with
    | (s, true) => s.loginPassed b env lr errMsg
    | (s, false) =>
      if lr.password.isEmpty then
        if errMsg.isEmpty then s.waitForClick b env lr false
        else (s.sendLoginError env "Desktop session not ready, password empty", true)
      else s.loginWithPassword b env lr errMsg

/-- Starting the desktop of a headless Linux host, before the password is looked at. -/
def loginDesktop (b : Build) (env : Env) (lr : LoginRequest) (s : Connection) :
    Connection × Bool :=
  if !b.linux then s.loginValidate b env lr ""
  else
    let headless := env.isHeadlessAllowed && !(trim lr.osLogin.username).isEmpty
    match if headless && env.linuxDesktopUsernameEmpty then s.checkFailure env 0 .default
      else (s, true) with
    | (s, false) => (s, true)
    | (s, true) =>
      let errMsg := if env.isHeadlessAllowed then env.tryStartDesktop lr.osLogin else ""
      if errMsg.isEmpty || errMsg == "Desktop session not ready" then s.loginValidate b env lr errMsg
      else
        match if headless && errMsg == "Wrong Password" then s.checkFailure env 0 .default
          else (s, true) with
        | (s, false) => (s, true)
        | (s, true) =>
          let s := if headless && errMsg == "Wrong Password" then
              s.emit (.updateFailure false 0 .default) else s
          (s.sendLoginError env errMsg, true)

/-- The rest of a login request whose kind is permitted. -/
def loginPermitted (b : Build) (env : Env) (lr : LoginRequest) (s : Connection) :
    Connection × Bool :=
  if !env.isDirectIpAccess lr.username && lr.username != env.id then
    (s.sendLoginError env "Offline", false)
  else if b.windows && s.terminal && (trim lr.osLogin.username).isEmpty && env.isPrelogin then
    (s.sendLoginError env "No active console user logged on, please connect and logon first.",
      false)
  else
    (s.onlyIf (!b.mobile && !shouldUseTerminalOsLoginScope b s.terminal lr.osLogin.username)
      tryStartCmIpc).loginDesktop b env lr

/-- The `LoginRequest` branch of `on_message`. -/
def onLoginRequest (b : Build) (env : Env) (lr : LoginRequest) (s : Connection) :
    Connection × Bool :=
  let s := s.handleLoginRequestWithoutValidation env lr
  if s.authorized then (s, true)
  else match s.resetSessionScopeForLogin.loginScope b env lr with
    | (s, false) => (s, false)
    | (s, true) => s.loginPermitted b env lr

def codeAccepted (env : Env) (s : Connection) : Connection :=
  let s := (s.emit (.totp true)).emit (.updateFailure true 1 .default)
  { s with require2fa := none, connAuditTwoFactor := .totp }.setSession2fa env

/-- What follows an accepted second-factor code: the login goes on, and the device may
be trusted from now on. -/
def auth2faPassed (b : Build) (env : Env) (hwid : Bytes) (s : Connection) : Connection × Bool :=
  match s.sendLogonResponseAndKeepAlive b env with
  | (s, false) => (s, false)
  | (s, true) =>
    ((s.tryStartCm s.lr.myId s.lr.myName s.authorized).onlyIf
      (!hwid.isEmpty && option2bool "enable-trusted-devices" (env.getOption "enable-trusted-devices"))
      (emit (.addTrustedDevice hwid)), true)

/-- The `Auth2fa` branch of `on_message`. -/
def onAuth2fa (b : Build) (env : Env) (code : String) (hwid : Bytes) (s : Connection) :
    Connection × Bool :=
  match s.checkFailure env 1 .default with
  | (s, false) => (s, true)
  | (s, true) =>
    match s.require2fa.bind fun totp => env.totpCheckCurrent totp code with
    | none => (s, true)
    | some false =>
      (((s.emit (.totp false)).emit (.updateFailure false 1 .default)).sendLoginError env
        "Wrong 2FA Code", true)
    | some true => (s.codeAccepted env).auth2faPassed b env hwid

/-- The `SwitchSidesResponse` branch of `on_message`: the login request it carries is
installed before the uuid is looked at. -/
def onSwitchSidesResponse (b : Build) (env : Env) (uuid : Bytes) (lr : Option LoginRequest)
    (s : Connection) : Connection × Bool :=
  match if b.flutterDesktop then lr else none with
  | none => (s, true)
  | some lr =>
    let s := s.handleLoginRequestWithoutValidation env lr
    let uuids := s.switchSidesUuid.filter fun v => env.now - v.2.1 < 10000
    let uuidOld := uuids.lookup lr.myId
    let s := { s with switchSidesUuid := uuids.filter (·.1 ≠ lr.myId) }
    match uuidOld with
    | some (_, old) =>
      if uuid.length = 16 ∧ uuid = old then
        let s := { s with fromSwitch := true, connAuditPrimaryAuth := .switchSides }.emit .switchSides
        match s.sendLogonResponseAndKeepAlive b env with
        | (s, false) => (s, false)
        | (s, true) => ((s.tryStartCm lr.myId lr.myName s.authorized).tryStartCmIpc, true)
      else (s, true)
    | none => (s, true)

/-- `Data::Authorize` from the connection manager. Besides a closed connection it also
leaves the loop when a port forward was opened. -/
def onAuthorize (b : Build) (env : Env) (s : Connection) : Connection × Bool :=
  let s := { s with connAuditPrimaryAuth := .click, require2fa := none }.emit .cmAuthorize
  match s.sendLogonResponseAndKeepAlive b env with
  | (s, false) => (s, false)
  | (s, true) => (s, s.portForwardSocket.isNone)

end RustDesk.Connection
