import RustDesk.ConnectionDispatch
import RustDesk.History

/-!
# The event loop of a connection

`step` is one turn of the `select!` loop of `Connection::start`. Its sources are the
connection manager, the peer, the timers, the services and the web console. A branch
that leaves the loop sets `ended`, after which nothing happens any more. The loop is
also left, without closing, when a port forward takes the stream over.

`Event.interference` is what the other connections of the process do to the two shared
tables between two turns.
-/

namespace RustDesk

inductive PrivacyModeState
  | offSucceeded
  | offByPeer
  | offUnknown
  deriving DecidableEq, Repr

def PrivacyModeState.notification : PrivacyModeState → String
  | .offSucceeded => "PrvOffSucceeded"
  | .offByPeer => "PrvOffByPeer"
  | .offUnknown => "PrvOffUnknown"

/-- `Data` received from the connection manager. A serialized directory that does not
parse is `none`. -/
inductive FromCm
  | authorize
  | close
  | cmErr (e : String)
  | chatMessage (text : String)
  | switchPermission (name : String) (enabled : Bool)
  | rawMessage (bytes : Bytes)
  | clipboardFile (files : Bool)
  | privacyModeState (state : PrivacyModeState) (implKey : String)
  | requestStart
  | switchSidesBack
  | voiceCallResponse (accepted : Bool)
  | closeVoiceCall
  | readJobInitResult (connId id : Int) (result : Except String (Option (String × List FileEntry)))
  | fileBlockFromCm (connId : Int) (block : FileTransferBlock)
  | fileReadDone (connId id fileNum : Int)
  | fileReadError (connId id fileNum : Int) (err : String)
  | fileDigestFromCm (connId : Int) (d : FileTransferDigest)
  | allFilesResult (connId id : Int) (path : String)
      (result : Except String (Option (String × List FileEntry)))
  | other

inductive Event
  | message (m : Message)
  | unparsable
  | streamError
  | streamEnd
  | cm (d : FromCm)
  | readJobs (responses : List FileResponse) (ok : Bool)
  | webConsoleClose
  | service (m : Outgoing) (ok : Bool)
  | printerData
  | inactivity
  | testDelayTimer (timeout : Bool)
  | fileClip (stop : Bool)
  | interference (sessions : List (SessionKey × Session))
      (switchSidesUuid : List (String × Nat × Bytes))

namespace Connection

def setClipboard (enabled : Bool) (s : Connection) : Connection :=
  { s with perms := { s.perms with clipboard := enabled } }

def setAudio (enabled : Bool) (s : Connection) : Connection :=
  { s with perms := { s.perms with audio := enabled } }

def setFile (enabled : Bool) (s : Connection) : Connection :=
  { s with perms := { s.perms with file := enabled } }

def setRestart (enabled : Bool) (s : Connection) : Connection :=
  { s with perms := { s.perms with restart := enabled } }

def setRecording (enabled : Bool) (s : Connection) : Connection :=
  { s with perms := { s.perms with recording := enabled } }

def setBlockInput (enabled : Bool) (s : Connection) : Connection :=
  { s with perms := { s.perms with blockInput := enabled } }

def setPrivacyMode (enabled : Bool) (s : Connection) : Connection :=
  { s with perms := { s.perms with privacyMode := enabled } }

/-- Revoking privacy mode leaves it first; when that fails the permission stays. -/
def switchPrivacyMode (env : Env) (enabled : Bool) (s : Connection) : Connection :=
  if !enabled && env.isInPrivacyMode && env.privacyModeConnId == some s.id then
    if env.turnOffPrivacyOk then
      let s := (s.emit (.turnOffPrivacy env.curImplKey)).send (.privacyMode "PrvOffByPeer" env.curImplKey)
      (s.setPrivacyMode enabled).send (.permissionInfo .privacyMode enabled)
    else
      (s.send (.privacyMode "PrvOffFailed" env.curImplKey)).sendToCm
        (.switchPermission "privacy_mode" s.perms.privacyMode)
  else (s.setPrivacyMode enabled).send (.permissionInfo .privacyMode enabled)

def switchPermission (b : Build) (env : Env) (name : String) (enabled : Bool) (s : Connection) :
    Connection :=
  if name = "keyboard" then
    let s := (s.setKeyboard enabled).send (.permissionInfo .keyboard enabled)
    s.subscribeKeyboard b env (enabled || s.opts.showRemoteCursor)
  else if name = "clipboard" then
    let s := (s.setClipboard enabled).send (.permissionInfo .clipboard enabled)
    s.subscribe env .clipboard (s.canSubClipboardService env)
  else if name = "audio" then
    let s := (s.setAudio enabled).send (.permissionInfo .audio enabled)
    s.onlyIf s.authorized (subscribeAudio env)
  else if name = "file" then
    let s := (s.setFile enabled).send (.permissionInfo .fileTransfer enabled)
    s.onlyIf b.unixFileCopyPaste (subscribe env .fileClipboard (s.canSubFileClipboardService env))
  else if name = "restart" then
    (s.setRestart enabled).send (.permissionInfo .remoteRestart enabled)
  else if name = "recording" then
    (s.setRecording enabled).send (.permissionInfo .recordSession enabled)
  else if name = "block_input" then
    (s.setBlockInput enabled).send (.permissionInfo .blockInput enabled)
  else if name = "privacy_mode" then s.switchPrivacyMode env enabled
  else s

def handleReadJobInitResult (id : Int) (result : Except String (Option (String × List FileEntry)))
    (s : Connection) : Connection :=
  if !s.cmReadJobIds.contains id then s
  else match result with
    | .error err => { s with cmReadJobIds := s.cmReadJobIds.filter (· ≠ id) }.sendError id err 0
    | .ok none =>
      { s with cmReadJobIds := s.cmReadJobIds.filter (· ≠ id) }.sendError id "internal error" 0
    | .ok (some (path, files)) =>
      { s.send (.fileResponse (.dir id path files)) with fileTransferred := true }

/-- `handle_file_read_done` and `handle_file_read_error`: the job is over. -/
def finishCmReadJob (id : Int) (fr : FileResponse) (s : Connection) : Connection :=
  if s.cmReadJobIds.contains id then
    { s with cmReadJobIds := s.cmReadJobIds.filter (· ≠ id) }.send (.fileResponse fr)
  else s

/-- `handle_file_block_from_cm` and `handle_file_digest_from_cm` -/
def forwardFromCm (id : Int) (fr : FileResponse) (s : Connection) : Connection :=
  if s.cmReadJobIds.contains id then s.send (.fileResponse fr) else s

def handleAllFilesResult (id : Int) (path : String)
    (result : Except String (Option (String × List FileEntry))) (s : Connection) : Connection :=
  match result with
  | .error err => s.sendError id err (-1)
  | .ok (some (path, files)) => s.send (.fileResponse (.dir id path files))
  | .ok none => s.sendError id ("deserialize failed for " ++ path) (-1)

/-- The data of the connection manager that keep the loop going. -/
def onCmData (b : Build) (env : Env) (d : FromCm) (s : Connection) : Connection :=
  match d with
  | .chatMessage text => { s.send (.chatMessage text) with chatUnanswered := false }
  | .switchPermission name enabled => s.switchPermission b env name enabled
  | .rawMessage bytes => s.send (.raw bytes)
  | .clipboardFile files => if b.windows && s.isRemote && !files then s.send .cliprdr else s
  | .privacyModeState state implKey => s.send (.privacyMode state.notification implKey)
  | .requestStart => if b.windows then s.emit .portableService else s
  | .switchSidesBack => if b.flutterDesktop then s.send .switchBack else s
  | .voiceCallResponse accepted => s.handleVoiceCall env accepted
  | .closeVoiceCall => (s.closeVoiceCall env).send (.voiceCallRequest false)
  | .readJobInitResult connId id result =>
    if connId = s.id then s.handleReadJobInitResult id result else s
  | .fileBlockFromCm connId block =>
    if connId = s.id then s.forwardFromCm block.id (.block block) else s
  | .fileReadDone connId id fileNum =>
    if connId = s.id then s.finishCmReadJob id (.done id fileNum) else s
  | .fileReadError connId id fileNum err =>
    if connId = s.id then s.finishCmReadJob id (.error id err fileNum) else s
  | .fileDigestFromCm connId d =>
    if connId = s.id then s.forwardFromCm d.id (.digest { d with isUpload := false }) else s
  | .allFilesResult connId id path result =>
    if connId = s.id then s.handleAllFilesResult id path result else s
  | _ => s

def onCm (b : Build) (env : Env) (d : FromCm) (s : Connection) : Connection × Bool :=
  match d with
  | .authorize => s.onAuthorize b env
  | .close =>
    (({ s with chatUnanswered := false, fileTransferred := false }.sendCloseReasonNoRetry env "")
      |>.onClose b true, false)
  | .cmErr e => if e = "expected" then (s, true) else (s.onClose b false, false)
  | d => (s.onCmData b env d, true)

/-- A peer message, and the end of the loop when a port forward takes over. -/
def onPeerMessage (b : Build) (env : Env) (m : Message) (s : Connection) : Connection × Bool :=
  match s.onMessage b env m with
  | (s, false) => (s, false)
  | (s, true) => (s, !(s.portForwardSocket.isSome && s.authorized && s.lastTestDelay.isNone))

def onTestDelayTimer (env : Env) (s : Connection) : Connection :=
  if s.lastTestDelay.isNone && !(s.portForwardSocket.isSome && s.authorized) then
    { s with lastTestDelay := some env.now }.send (.testDelay { lastDelay := s.networkDelay })
  else s

/-- A message of a service of the server, on its way to the peer. -/
def onService (b : Build) (env : Env) (m : Outgoing) (ok : Bool) (s : Connection) :
    Connection × Bool :=
  if m = .stopService then ((s.sendCloseReasonNoRetry env "").onClose b false, false)
  else if ok then (s.send m, true)
  else (s.onClose b false, false)

def onReadJobs (b : Build) (responses : List FileResponse) (ok : Bool) (s : Connection) :
    Connection × Bool :=
  let s := responses.foldl (fun s fr => s.send (.fileResponse fr)) s
  if ok then (s, true) else (s.onClose b false, false)

def onFileClip (b : Build) (stop : Bool) (s : Connection) : Connection :=
  if b.unixFileCopyPaste && getVersionNumber "1.3.8" ≤ getVersionNumber s.lr.version && !stop then
    s.send .cliprdr
  else s

def onPrinterData (b : Build) (env : Env) (s : Connection) : Connection :=
  if b.windows && b.flutter then
    if permission b env .remotePrinter s.controlPermissions then s.send (.service .printer)
    else s.send (.messageBox "remote-printing-disallowed-tile-tip"
      "remote-printing-disallowed-text-tip")
  else s

/-- One event and whether the loop goes on. -/
def onEvent (b : Build) (env : Env) (ev : Event) (s : Connection) : Connection × Bool :=
  match ev with
  | .message m => s.onPeerMessage b env m
  | .unparsable => (s, true)
  | .streamError => (s.onClose b true, false)
  | .streamEnd => (s.onClose b true, false)
  | .cm d => s.onCm b env d
  | .readJobs responses ok => s.onReadJobs b responses ok
  | .webConsoleClose =>
    ((s.sendCloseReasonNoRetry env "Closed manually by web console").onClose b true, false)
  | .service m ok => s.onService b env m ok
  | .printerData => (s.onPrinterData b env, true)
  | .inactivity =>
    ((s.sendCloseReasonNoRetry env "Connection failed due to inactivity").onClose b true, false)
  | .testDelayTimer timeout =>
    if timeout then (s.onClose b true, false) else (s.onTestDelayTimer env, true)
  | .fileClip stop => (s.onFileClip b stop, true)
  | .interference sessions switchSidesUuid => ({ s with sessions, switchSidesUuid }, true)

/-- One turn of the loop. -/
def step (b : Build) (s : Connection) (i : Env × Event) : Connection :=
  if s.ended then s
  else match s.onEvent b i.1 i.2 with
    | (s, true) => s
    | (s, false) => { s with ended := true }

/-- The state after a run of the loop. -/
def run (b : Build) (s : Connection) (is : List (Env × Event)) : Connection :=
  History.run (step b) s is

end Connection

end RustDesk
