import RustDesk.Message

/-!
# State of one incoming connection

`Connection` is the state that `Connection::start` keeps for one peer, together
with the two process-wide tables the login reads and writes (`SESSIONS` and
`SWITCH_SIDES_UUID`). `Build` is the compile-time configuration, `Env` what the
handler of one event reads from outside: options, clock, platform calls, password
store, rate limiter, and the services of the server. Both are arbitrary.

Everything the connection does to the outside is an `Effect`. The effects are kept
newest first in `log`; the outcomes of the authentication and permission checks are
effects as well, so that a statement about their order is a statement about `log`.
-/

namespace RustDesk

inductive Os
  | windows
  | linux
  | macos
  | android
  | ios
  deriving DecidableEq, Repr

structure Build where
  os : Os
  flutter : Bool := true
  pluginFramework : Bool := false
  unixFileCopyPaste : Bool := false
  deriving DecidableEq, Repr

/-- `any(target_os = "android", target_os = "ios")` -/
def Build.mobile (b : Build) : Bool := b.os == .android || b.os == .ios

def Build.windows (b : Build) : Bool := b.os == .windows

def Build.linux (b : Build) : Bool := b.os == .linux

/-- `feature = "flutter"` on a desktop target -/
def Build.flutterDesktop (b : Build) : Bool := b.flutter && !b.mobile

inductive AuthConnType
  | remote
  | fileTransfer
  | portForward
  | viewCamera
  | terminal
  deriving DecidableEq, Repr

inductive ConnAuditPrimaryAuth
  | none
  | click
  | temporaryPassword
  | permanentPassword
  | switchSides
  deriving DecidableEq, Repr

inductive ConnAuditTwoFactor
  | none
  | totp
  | trustedDevice
  deriving DecidableEq, Repr

inductive TerminalUserToken
  | selfUser
  | currentLogonUser (token : Nat)
  deriving DecidableEq, Repr

def TerminalUserToken.toTerminalServiceToken : TerminalUserToken → Option Nat
  | .selfUser => none
  | .currentLogonUser token => some token

inductive FailureScope
  | default
  | terminalOsLogin
  deriving DecidableEq, Repr

inductive ApproveMode
  | both
  | password
  | click
  deriving DecidableEq, Repr

inductive VideoSource
  | monitor
  | camera
  deriving DecidableEq, Repr

/-- The services a connection can subscribe to. -/
inductive Service
  | cursor
  | pos
  | windowFocus
  | clipboard
  | fileClipboard
  | audio
  | display
  | printer
  | video (source : VideoSource) (display : Nat)
  deriving DecidableEq, Repr

/-- The options behind `Connection::permission`. -/
inductive PermissionOption
  | keyboard
  | remotePrinter
  | clipboard
  | fileTransfer
  | audio
  | camera
  | terminal
  | tunnel
  | remoteRestart
  | recordSession
  | blockInput
  | privacyMode
  deriving DecidableEq, Repr

def PermissionOption.key : PermissionOption → String
  | .keyboard => "enable-keyboard"
  | .remotePrinter => "enable-remote-printer"
  | .clipboard => "enable-clipboard"
  | .fileTransfer => "enable-file-transfer"
  | .audio => "enable-audio"
  | .camera => "enable-camera"
  | .terminal => "enable-terminal"
  | .tunnel => "enable-tunnel"
  | .remoteRestart => "enable-remote-restart"
  | .recordSession => "enable-record-session"
  | .blockInput => "enable-block-input"
  | .privacyMode => "enable-privacy-mode"

/-- The number of the permission in `ControlPermissions`. -/
def PermissionOption.index : PermissionOption → Nat
  | .keyboard => 0
  | .remotePrinter => 1
  | .clipboard => 2
  | .fileTransfer => 3
  | .audio => 4
  | .camera => 5
  | .terminal => 6
  | .tunnel => 7
  | .remoteRestart => 8
  | .recordSession => 9
  | .blockInput => 10
  | .privacyMode => 12

structure SessionKey where
  peerId : String
  name : String
  sessionId : Nat
  deriving DecidableEq, Repr

structure Session where
  lastRecvTime : Nat
  randomPassword : String
  tfa : Bool
  deriving DecidableEq, Repr

structure TrustedDevice where
  hwid : Bytes
  time : Int
  id : String
  name : String
  platform : String
  deriving DecidableEq, Repr

structure FailureDecision where
  allowed : Bool := true
  loginError : Option String := none
  deriving DecidableEq, Repr

/-- What the handler of one event reads from outside the connection. -/
structure Env where
  now : Nat := 0
  id : String := ""
  getOption : String → String := fun _ => ""
  getBuiltinOption : String → String := fun _ => ""
  trustedDevices : List TrustedDevice := []
  temporaryEnabled : Bool := true
  permanentEnabled : Bool := true
  temporaryPassword : String := ""
  hasPermanentPassword : Bool := false
  localStorage : String := ""
  localSalt : String := ""
  presetStorage : String := ""
  presetSalt : String := ""
  localStorageUsable : String → String → Bool := fun _ _ => true
  presetStorageUsable : String → String → Bool := fun _ _ => true
  decodePermanentPasswordH1 : String → Option Bytes := fun _ => none
  decodePresetPasswordH1 : String → Option Bytes := fun _ => none
  sha256 : Bytes → Bytes := fun x => x
  totpCheckCurrent : String → String → Option Bool := fun _ _ => some false
  isDirectIpAccess : String → Bool := fun _ => false
  checkFailure : Nat → FailureScope → FailureDecision := fun _ _ => {}
  isPrelogin : Bool := false
  isLocked : Bool := false
  isLogonUi : Bool := false
  isInstalled : Bool := false
  isInPrivacyMode : Bool := false
  privacyModeConnId : Option Int := none
  privacyModeSupported : Bool := true
  turnOnPrivacyState : String := "PrvOnSucceeded"
  turnOffPrivacyOk : Bool := true
  curImplKey : String := ""
  osCredentialLoginGate : Bool := true
  logonUserTokenIsAdmin : String → String → Bool := fun _ _ => false
  currentSessionIdValid : Bool := true
  userToken : Option Nat := none
  serviceSpecifiedUser : String → Option Bool := fun _ => none
  generateServiceId : String := "ts_"
  tcpConnect : String → Bool := fun _ => true
  isHeadlessAllowed : Bool := false
  linuxDesktopUsernameEmpty : Bool := true
  tryStartDesktop : OsLogin → String := fun _ => ""
  linuxDisplayServerError : String := ""
  displaysOnLogin : Except String Unit := .ok ()
  waitSessionIdConfirm : Bool := false
  selectOtherSession : Nat → Bool := fun _ => false
  hasProcessSession : Bool := true
  isDir : String → Bool := fun _ => true
  serverAlive : Bool := true
  hasService : Service → Bool := fun _ => true
  primaryDisplay : Nat := 0
  primaryCameraExists : Bool := true
  showMyCursorNotSupported : String := ""
  printerDataFound : String → Bool := fun _ => false
  needFsCmSendFiles : Bool := false
  getRecursiveFiles : String → Bool → Except String (List FileEntry) := fun _ _ => .ok []
  fileCountLimitError : Nat → Option String := fun _ => none
  displayInfo : VideoSource → Nat → Bool := fun _ _ => true
  displayCount : Nat := 1
  isPortableRunning : Bool := false
  startPortableService : String := ""
  virtualDisplayError : Int → Bool → String := fun _ _ => ""
  anotherRemote : Bool := false
  msg2clip : Bool := true
  clipOutMsgs : Nat := 0
  keycodeToModifier : Nat → Option Nat := fun _ => none
  isModifierKey : KeyEvent → Bool := fun _ => false

/-- The permissions of the session, as granted locally. -/
structure Permissions where
  keyboard : Bool
  clipboard : Bool
  audio : Bool
  file : Bool
  restart : Bool
  recording : Bool
  blockInput : Bool
  privacyMode : Bool
  deriving DecidableEq, Repr

/-- The switches set by the peer's option messages. -/
structure PeerOptions where
  lockAfterSessionEnd : Bool := false
  showRemoteCursor : Bool := false
  followRemoteCursor : Bool := false
  followRemoteWindow : Bool := false
  disableKeyboard : Bool := false
  showMyCursor : Bool := false
  disableClipboard : Bool := false
  disableAudio : Bool := false
  enableFileTransfer : Bool := false
  deriving DecidableEq, Repr

/-- The messages the connection writes to its stream. -/
inductive Outgoing
  | hash
  | loginError (error : String) (enableTrustedDevices : Bool)
  | loginPeerInfo
  | testDelay (t : TestDelay)
  | permissionInfo (permission : PermissionOption) (enabled : Bool)
  | closeReason (reason : String)
  | chatMessage (text : String)
  | privacyMode (state : String) (implKey : String)
  | blockInputFailed (on : Bool) (details : String)
  | elevationResponse (err : String)
  | messageBox (title : String) (text : String)
  | displayChanged (display : Nat)
  | followCurrentDisplay (display : Nat)
  | switchBack
  | voiceCallRequest (connect : Bool)
  | voiceCallResponse (reqTimestamp : Int) (accepted : Bool)
  | fileResponse (fr : FileResponse)
  | terminalResponse (a : TerminalAction)
  | pluginResponse (id : String)
  | cliprdr
  | raw (bytes : Bytes)
  | service (s : Service)
  | stopService
  deriving DecidableEq, Repr

/-- Requests to the file system part of the connection manager, `ipc::FS`. -/
inductive Fs
  | readDir (dir : String) (includeHidden : Bool)
  | readEmptyDirs (dir : String) (includeHidden : Bool)
  | readAllFiles (id : Int) (path : String) (includeHidden : Bool)
  | readFile (id : Int) (path : String) (fileNum : Int) (includeHidden overwriteDetection : Bool)
  | newWrite (id : Int) (path : String) (fileNum : Int) (files : List (String × Nat))
      (overwriteDetection : Bool) (totalSize : Nat)
  | removeDir (id : Int) (path : String) (recursive : Bool)
  | removeFile (id : Int) (path : String) (fileNum : Int)
  | createDir (id : Int) (path : String)
  | rename (id : Int) (path : String) (newName : String)
  | cancelWrite (id : Int)
  | cancelRead (id : Int)
  | sendConfirm (r : SendConfirm)
  | sendConfirmForRead (id : Int) (fileNum : Int) (skip : Bool) (offsetBlk : UInt32)
  | writeBlock (b : FileTransferBlock)
  | writeDone (id : Int) (fileNum : Int)
  | checkDigest (d : FileTransferDigest)
  | writeError (id : Int) (fileNum : Int) (err : String)
  deriving DecidableEq, Repr

/-- Messages to the connection manager, `ipc::Data`. -/
inductive ToCm
  | login (peerId name : String) (authorized : Bool) (portForward : String)
  | fs (f : Fs)
  | chatMessage (text : String)
  | fileTransferLog (action : String)
  | clipboardFile
  | clipboardFileEnabled (on : Bool)
  | switchPermission (name : String) (enabled : Bool)
  | voiceCallIncoming
  | startVoiceCall
  | closeVoiceCall
  | disconnected
  | close
  deriving DecidableEq, Repr

inductive Effect
  | send (m : Outgoing)
  | innerSend (m : Outgoing)
  | toCm (d : ToCm)
  | startCmIpc
  | installLogin (lr : LoginRequest)
  | permission (opt : PermissionOption) (lr : LoginRequest) (ok : Bool)
  | validatePassword (ok : Bool)
  | recentSession (tfa : Bool)
  | cmAuthorize
  | switchSides
  | totp (ok : Bool)
  | trustedDevice
  | addTrustedDevice (hwid : Bytes)
  | updateFailure (remove : Bool) (i : Nat) (scope : FailureScope)
  | temporaryPassword (success : Bool)
  | fillTerminalUserToken (username password : String) (error : Option String)
  | serviceUserCheck (serviceId : String) (ok : Bool)
  | tcpConnect (addr : String) (lr : LoginRequest)
  | authorize (kind : AuthConnType) (lr : LoginRequest) (serviceId : String)
  | terminalService (serviceId : String) (persistent : Bool) (token : Option Nat)
  | terminalAction (serviceId : String) (persistent : Bool) (token : Option Nat) (a : TerminalAction)
  | setPersistent (serviceId : String) (persistent : Bool)
  | fileAction (fa : FileAction)
  | inputMouse (me : MouseEvent) (simulate showCursor : Bool)
  | inputPointer (scale : Int)
  | inputKey (ke : KeyEvent) (press : Bool)
  | blockInput (on : Bool)
  | turnOnPrivacy (implKey : String)
  | turnOffPrivacy (implKey : String)
  | updateClipboard
  | serveClipMessages
  | updateDecoding (d : Option SupportedDecoding)
  | imageQuality (q : Int)
  | customFps (fps : Int)
  | autoAdjustFps (fps : Nat)
  | userRecord (status : Bool)
  | networkDelay (ms : Nat)
  | videoFetched
  | refreshVideo (display : Option Int)
  | screenshot (display : Int) (sid : String)
  | changeResolution (display : Option Int) (width height : Int)
  | virtualDisplay (display : Int) (on : Bool)
  | whiteboard (register : Bool)
  | audioPlayback
  | restartDevice
  | portableService
  | plugin (id : String)
  | pendingSwitchSides (uuid : Bytes)
  | otherSession (sid : Nat)
  | scopeViolation (message : String)
  | lockScreen
  deriving DecidableEq, Repr

structure Hash where
  salt : String
  challenge : String
  deriving DecidableEq, Repr

/-- The connection with its process-wide tables. The permissions and the second
factor are fixed by `start`, so they have no default. `ended` says that the event
loop of `start` was left. -/
structure Connection where
  id : Int
  hash : Hash
  require2fa : Option String
  perms : Permissions
  controlPermissions : Option UInt64
  authorized : Bool := false
  authedConnId : Option AuthConnType := none
  fromSwitch : Bool := false
  lr : LoginRequest := {}
  optionsInLogin : Option OptionMessage := none
  connAuditPrimaryAuth : ConnAuditPrimaryAuth := .none
  connAuditTwoFactor : ConnAuditTwoFactor := .none
  fileTransfer : Option (String × Bool) := none
  viewCamera : Bool := false
  terminal : Bool := false
  portForwardSocket : Option String := none
  portForwardAddress : String := ""
  terminalServiceId : String := ""
  terminalPersistent : Bool := false
  terminalUserToken : Option TerminalUserToken := none
  terminalGenericService : Bool := false
  opts : PeerOptions := {}
  subs : List Service := []
  servicesSubed : Bool := false
  voiceCallRequestTimestamp : Option Int := none
  voiceCalling : Bool := false
  audioSender : Bool := false
  displayIdx : Nat := 0
  multiUiSession : Bool := false
  videoAckRequired : Bool := false
  delayedReadDir : Option (String × Bool) := none
  readJobs : List Int := []
  cmReadJobIds : List Int := []
  lastTestDelay : Option Nat := none
  networkDelay : Nat := 0
  scopeViolationMessages : List String := []
  chatUnanswered : Bool := false
  fileTransferred : Bool := false
  pressedModifiers : List Nat := []
  startCmIpcPara : Bool := true
  closed : Bool := false
  ended : Bool := false
  sessions : List (SessionKey × Session) := []
  switchSidesUuid : List (String × Nat × Bytes) := []
  log : List Effect := []

namespace Connection

def emit (e : Effect) (s : Connection) : Connection := { s with log := e :: s.log }

def send (m : Outgoing) (s : Connection) : Connection := s.emit (.send m)

def sendToCm (d : ToCm) (s : Connection) : Connection := s.emit (.toCm d)

def sendFs (f : Fs) (s : Connection) : Connection := s.sendToCm (.fs f)

def sessionKey (s : Connection) : SessionKey := ⟨s.lr.myId, s.lr.myName, s.lr.sessionId⟩

def isRemote (s : Connection) : Bool :=
  s.fileTransfer.isNone && s.portForwardSocket.isNone && !s.viewCamera && !s.terminal

/-- The kind `send_logon_response_and_keep_alive` authorizes as. -/
def kind (s : Connection) : AuthConnType :=
  if s.fileTransfer.isSome then .fileTransfer
  else if s.portForwardSocket.isSome then .portForward
  else if s.viewCamera then .viewCamera
  else if s.terminal then .terminal
  else .remote

def isAuthedRemoteConn (s : Connection) : Bool := s.authedConnId == some .remote

def isAuthedViewCameraConn (s : Connection) : Bool := s.authedConnId == some .viewCamera

def peerKeyboardEnabled (s : Connection) : Bool := s.perms.keyboard && !s.opts.disableKeyboard

def clipboardEnabled (s : Connection) : Bool := s.perms.clipboard && !s.opts.disableClipboard

def audioEnabled (s : Connection) : Bool := s.perms.audio && !s.opts.disableAudio

def fileTransferEnabled (s : Connection) : Bool := s.perms.file && s.opts.enableFileTransfer

def canSubClipboardService (env : Env) (s : Connection) : Bool :=
  s.clipboardEnabled && s.peerKeyboardEnabled &&
    env.getBuiltinOption "one-way-clipboard-redirection" != "Y"

def canSubFileClipboardService (env : Env) (s : Connection) : Bool :=
  s.clipboardEnabled && s.fileTransferEnabled && env.getBuiltinOption "one-way-file-transfer" != "Y"

def videoSource (s : Connection) : VideoSource := if s.viewCamera then .camera else .monitor

/-- `Server::subscribe`: it looks at the service table only. A service that is gone has
no subscribers, so leaving one needs no look at the table. -/
def subscribe (env : Env) (svc : Service) (sub : Bool) (s : Connection) : Connection :=
  if sub then
    if env.serverAlive && env.hasService svc && !s.subs.contains svc then
      { s with subs := svc :: s.subs }
    else s
  else { s with subs := s.subs.filter (· ≠ svc) }

end Connection

def option2bool (option value : String) : Bool :=
  if "enable-".toList.isPrefixOf option.toList then value != "N"
  else if "allow-".toList.isPrefixOf option.toList || option == "stop-service" ||
      option == "direct-server" || option == "force-always-relay" then value == "Y"
  else value != "N"

def getControlPermission (permissions : UInt64) (index : Nat) : Option Bool :=
  match (permissions.toNat >>> (index * 2)) % 4 with
  | 1 => some false
  | 2 => some true
  | _ => none

def isPermissionEnabledLocally (b : Build) (env : Env) (key : String) : Bool :=
  if b.flutterDesktop && env.getOption "access-mode" == "full" then true
  else if b.flutterDesktop && env.getOption "access-mode" == "view" then false
  else option2bool key (env.getOption key)

def permission (b : Build) (env : Env) (opt : PermissionOption)
    (controlPermissions : Option UInt64) : Bool :=
  match controlPermissions.bind (getControlPermission · opt.index) with
  | some enabled => enabled
  | none => isPermissionEnabledLocally b env opt.key

/-- The state `Connection::start` builds. On Android the control permissions are dropped. -/
def Connection.start (b : Build) (env : Env) (id : Int) (hash : Hash) (get2fa : Option String)
    (controlPermissions : Option UInt64) : Connection :=
  let cp := if b.os = .android then none else controlPermissions
  { id, hash
    require2fa := get2fa
    controlPermissions := cp
    perms :=
      { keyboard := permission b env .keyboard cp
        clipboard := permission b env .clipboard cp
        audio := permission b env .audio cp
        file := permission b env .fileTransfer cp
        restart := permission b env .remoteRestart cp
        recording := permission b env .recordSession cp
        blockInput := permission b env .blockInput cp
        privacyMode := permission b env .privacyMode cp }
    displayIdx := env.primaryDisplay }

/-- `str::trim`, which removes the Unicode white space on both sides. -/
def isWhitespace (c : Char) : Bool :=
  let n := c.toNat
  (9 ≤ n && n ≤ 13) || n == 32 || n == 0x85 || n == 0xA0 || n == 0x1680 ||
    (0x2000 ≤ n && n ≤ 0x200A) || n == 0x2028 || n == 0x2029 || n == 0x202F || n == 0x205F ||
    n == 0x3000

def trim (s : String) : String :=
  String.ofList (((s.toList.dropWhile isWhitespace).reverse.dropWhile isWhitespace).reverse)

def shouldUseTerminalOsLoginScope (b : Build) (isTerminal : Bool) (osLoginUsername : String) : Bool :=
  b.windows && isTerminal && !(trim osLoginUsername).isEmpty

def strBytes (s : String) : Bytes := s.toUTF8.data.toList

end RustDesk
