import RustDesk.ConnectionLogin

/-!
# Messages of a connection

`onMessage` is the handler of one peer message: the close reason first, then the
scope filter of an authorized connection, then the login messages, and last the
messages of a session.
-/

namespace RustDesk.Connection

def checkRemoveSession (env : Env) (s : Connection) : Connection :=
  if s.isAuthedRemoteConn || !env.anotherRemote then
    { s with sessions := s.sessions.filter (·.1 ≠ s.sessionKey) }
  else s

def onClose (b : Build) (lock : Bool) (s : Connection) : Connection :=
  if s.closed then s
  else
    let s := { s with closed := true }
    let s := if lock && s.opts.lockAfterSessionEnd && s.perms.keyboard && !b.mobile then
        s.emit .lockScreen else s
    let s := s.sendToCm
      (if !b.mobile && (s.chatUnanswered || s.fileTransferred && b.flutter) then .disconnected
        else .close)
    { s with portForwardSocket := none }

def sendCloseReasonNoRetry (env : Env) (reason : String) (s : Connection) : Connection :=
  (s.send (.closeReason (if reason.isEmpty then "Closed manually by the peer" else reason)))
    |>.checkRemoveSession env

def handleAuthorizedScopeViolation (b : Build) (env : Env) (message : String) (s : Connection) :
    Connection × Bool :=
  let isFirst := !s.scopeViolationMessages.contains message
  let s := if isFirst then
      { s with scopeViolationMessages := message :: s.scopeViolationMessages } else s
  let s := if isFirst && option2bool "allow-scope-violation-alarm"
      (env.getOption "allow-scope-violation-alarm") then s.emit (.scopeViolation message) else s
  if option2bool "allow-scope-violation-close" (env.getOption "allow-scope-violation-close") then
    ((s.sendCloseReasonNoRetry env "Connection not allowed").onClose b true, false)
  else (s, true)

def onTestDelay (env : Env) (t : TestDelay) (s : Connection) : Connection :=
  if t.fromClient then s.emit (.innerSend (.testDelay t))
  else match s.lastTestDelay with
    | some tm =>
      let newDelay := (env.now - tm) % 2 ^ 32
      { s with lastTestDelay := none, networkDelay := newDelay }.emit (.networkDelay newDelay)
    | none => s

def onMouseEvent (b : Build) (me : MouseEvent) (s : Connection) : Connection :=
  if s.isAuthedViewCameraConn then s
  else if b.mobile then s.emit (.inputMouse me true false)
  else if s.peerKeyboardEnabled then s.emit (.inputMouse me true s.opts.showMyCursor)
  else if s.opts.showMyCursor then s.emit (.inputMouse me false true)
  else s

def onPointerDeviceEvent (b : Build) (scale : Int) (s : Connection) : Connection :=
  if s.isAuthedViewCameraConn then s
  else if b.mobile || s.peerKeyboardEnabled then s.emit (.inputPointer scale)
  else s

/-- The modifier a key event of the map or translate mode stands for. -/
def keyModifier (env : Env) (ke : KeyEvent) : Option Nat :=
  match ke.mode, ke.union with
  | some .map, some (.chr code) => env.keycodeToModifier code
  | some .map, _ => env.keycodeToModifier 0
  | some .translate, some (.chr code) => env.keycodeToModifier (code % 2 ^ 16)
  | _, _ => none

def trackModifier (key : Option Nat) (isPress : Bool) (s : Connection) : Connection :=
  match key with
  | some k =>
    { s with pressedModifiers :=
        if isPress then (if s.pressedModifiers.contains k then s.pressedModifiers
          else k :: s.pressedModifiers)
        else s.pressedModifiers.filter (· ≠ k) }
  | none => s

/-- On Android the modifiers held down replace those of the event. -/
def onKeyEvent (b : Build) (env : Env) (ke : KeyEvent) (s : Connection) : Connection :=
  if b.os = .ios || s.isAuthedViewCameraConn then s
  else
    let key := keyModifier env ke
    let pressed := (ke.press || ke.down) && !(env.isModifierKey ke || key.isSome)
    if b.os = .android then
      let s := s.trackModifier key pressed
      s.emit (.inputKey { ke with modifiers := s.pressedModifiers.map Int.ofNat } false)
    else if s.peerKeyboardEnabled then
      let isPress := if b.linux then pressed else ke.press
      let s := s.trackModifier key isPress
      let asPress := isPress && !(match ke.union with
        | some (.unicode _) | some (.seq _) => true
        | _ => false)
      s.emit (.inputKey ke asPress)
    else s

/-- The text clipboard of the peer, only for a remote session. -/
def onClipboard (s : Connection) : Connection :=
  if s.isAuthedRemoteConn && s.clipboardEnabled then s.emit .updateClipboard else s

def onCliprdr (b : Build) (env : Env) (files : Bool) (s : Connection) : Connection :=
  if files || !env.msg2clip then s
  else
    let s := if b.windows then s.sendToCm .clipboardFile else s
    if b.unixFileCopyPaste && getVersionNumber "1.3.8" ≤ getVersionNumber s.lr.version then
      (List.range env.clipOutMsgs).foldl (fun s _ => s.send .cliprdr) (s.emit .serveClipMessages)
    else s

/-- `JobType::from_proto(..) == JobType::Printer` for a send request. -/
def isPrinterJob : FileAction → Bool
  | .send _ _ _ _ fileType => fileType == 1
  | _ => false

/-- The job id of the actions that `one-way-file-transfer` refuses. -/
def oneWayJobId : FileAction → Option Int
  | .send id .. => some id
  | .removeFile id .. => some id
  | .rename id .. => some id
  | .create id _ => some id
  | .removeDir id .. => some id
  | _ => none

def canEnableOverwriteDetection (s : Connection) : Bool :=
  getVersionNumber "1.1.10" ≤ getVersionNumber s.lr.version

def sendError (id : Int) (err : String) (fileNum : Int) (s : Connection) : Connection :=
  s.send (.fileResponse (.error id err fileNum))

def createAndStartReadJob (env : Env) (id : Int) (path : String) (includeHidden : Bool)
    (checkFileLimit : Bool) (s : Connection) : Connection :=
  match if checkFileLimit then env.getRecursiveFiles path includeHidden else .ok [] with
  | .error err => s.sendError id err 0
  | .ok files =>
    match if checkFileLimit then env.fileCountLimitError files.length else none with
    | some msg => s.sendError id msg (-1)
    | none => { s.send (.fileResponse (.dir id path files)) with readJobs := s.readJobs ++ [id] }

/-- The `Send` action: a generic job is read here or by the connection manager, a
printer job from the data kept for its path. -/
def onFileSend (env : Env) (id : Int) (path : String) (includeHidden : Bool) (fileNum : Int)
    (printer : Bool) (s : Connection) : Connection :=
  if printer then
    if env.printerDataFound path then
      { s.createAndStartReadJob env id path includeHidden false with fileTransferred := true }
    else s
  else if env.needFsCmSendFiles then
    { s.sendFs (.readFile id path fileNum includeHidden s.canEnableOverwriteDetection) with
      cmReadJobIds := if s.cmReadJobIds.contains id then s.cmReadJobIds else id :: s.cmReadJobIds
      fileTransferred := true }
  else { s.createAndStartReadJob env id path includeHidden true with fileTransferred := true }

def onFileSendConfirm (r : SendConfirm) (s : Connection) : Connection :=
  if s.readJobs.contains r.id then s
  else if s.cmReadJobIds.contains r.id then
    s.sendFs (.sendConfirmForRead r.id r.fileNum
      (match r.union with | some (.skip b) => b | _ => false)
      (match r.union with | some (.offsetBlk o) => o | _ => 0))
  else s.sendFs (.sendConfirm r)

def onAllFiles (env : Env) (id : Int) (path : String) (includeHidden : Bool) (s : Connection) :
    Connection :=
  if env.needFsCmSendFiles then s.sendFs (.readAllFiles id path includeHidden)
  else match env.getRecursiveFiles path includeHidden with
    | .error err => s.sendError id err (-1)
    | .ok files =>
      match env.fileCountLimitError files.length with
      | some msg => s.sendError id msg (-1)
      | none => s.send (.fileResponse (.dir id path files))

/-- The `Cancel` action ends a job of the id wherever it runs. -/
def onFileCancel (id : Int) (s : Connection) : Connection :=
  let s := s.sendFs (.cancelWrite id)
  let s := { s with cmReadJobIds := s.cmReadJobIds.filter (· ≠ id) }.sendFs (.cancelRead id)
  if s.readJobs.contains id then
    { s with readJobs := s.readJobs.erase id }.sendToCm (.fileTransferLog "transfer")
  else s

/-- What a file action does once it is let through. -/
def executeFileAction (env : Env) (fa : FileAction) (s : Connection) : Connection :=
  let s := s.emit (.fileAction fa)
  match fa with
  | .readEmptyDirs path includeHidden => s.sendFs (.readEmptyDirs path includeHidden)
  | .readDir path includeHidden => s.readDir path includeHidden
  | .allFiles id path includeHidden => s.onAllFiles env id path includeHidden
  | .send id path includeHidden fileNum fileType =>
    s.onFileSend env id path includeHidden fileNum (fileType == 1)
  | .receive id path files fileNum totalSize =>
    { s.sendFs (.newWrite id path fileNum (files.map fun f => (f.name, f.modifiedTime))
        s.canEnableOverwriteDetection totalSize) with fileTransferred := true }
  | .removeDir id path recursive => s.sendFs (.removeDir id path recursive)
  | .removeFile id path fileNum => s.sendFs (.removeFile id path fileNum)
  | .create id path => (s.sendFs (.createDir id path)).sendToCm (.fileTransferLog "create_dir")
  | .cancel id => s.onFileCancel id
  | .sendConfirm r => s.onFileSendConfirm r
  | .rename id path newName =>
    (s.sendFs (.rename id path newName)).sendToCm (.fileTransferLog "rename")
  | .empty => s

/-- The `FileAction` message: for a file transfer session, or a printer job. -/
def onFileAction (env : Env) (fa : FileAction) (s : Connection) : Connection :=
  if s.fileTransfer.isSome || isPrinterJob fa then
    if s.delayedReadDir.isSome then
      match fa with
      | .readDir path includeHidden => { s with delayedReadDir := some (path, includeHidden) }
      | _ => s
    else
      match if env.getBuiltinOption "one-way-file-transfer" == "Y" then oneWayJobId fa else none with
      | some id => s.sendError id "one-way-file-transfer-tip" 0
      | none => s.executeFileAction env fa
  else s

def onFileResponse (fr : FileResponse) (s : Connection) : Connection :=
  match fr with
  | .block blk => s.sendFs (.writeBlock blk)
  | .done id fileNum => s.sendFs (.writeDone id fileNum)
  | .digest d => s.sendFs (.checkDigest { d with isUpload := true })
  | .error id err fileNum => s.sendFs (.writeError id fileNum err)
  | _ => s

def refreshVideoDisplay (display : Option Int) (s : Connection) : Connection :=
  s.emit (.refreshVideo display)

def changeResolution (env : Env) (display : Option Int) (width height : Int) (s : Connection) :
    Connection :=
  let d := match display with | some d => usizeOfI32 d | none => s.displayIdx
  if s.perms.keyboard && d < env.displayCount then s.emit (.changeResolution display width height)
  else s

def sendDisplayChanged (env : Env) (display : Nat) (s : Connection) : Connection :=
  if env.displayInfo s.videoSource display then s.send (.displayChanged display) else s

def switchDisplayTo (env : Env) (display : Nat) (s : Connection) : Connection :=
  let old := s.displayIdx
  let s := if getVersionNumber s.lr.version < getVersionNumber "1.2.4" then
      s.subscribe env (.video s.videoSource old) false else s
  let svc := Service.video s.videoSource display
  -- the video service of any but the primary display is created on demand
  let s := if display ≠ env.primaryDisplay then
      { s with subs := if s.subs.contains svc then s.subs else svc :: s.subs }
    else s.subscribe env svc true
  { s with displayIdx := display }

def handleSwitchDisplay (b : Build) (env : Env) (display width height : Int) (s : Connection) :
    Connection :=
  let d := usizeOfI32 display
  if s.displayIdx ≠ d then
    let s := if env.serverAlive then
        let s := s.switchDisplayTo env d
        if !b.mobile && !s.viewCamera && width != 0 && height != 0 then
          s.changeResolution env none width height
        else s
      else s
    s.sendDisplayChanged env s.displayIdx
  else s

def handleElevationRequest (env : Env) (s : Connection) : Connection :=
  if !s.perms.keyboard then s.send (.elevationResponse "No permission")
  else if !env.isInstalled && !env.isPortableRunning then
    (s.emit .portableService).send (.elevationResponse env.startPortableService)
  else s.send (.elevationResponse "No need to elevate")

def toggleVirtualDisplay (env : Env) (display : Int) (on : Bool) (s : Connection) : Connection :=
  let err := env.virtualDisplayError display on
  let s := s.emit (.virtualDisplay display on)
  if err.isEmpty then s else s.send (.messageBox "Virtual display" err)

/-- The `Option` message: a remote session takes it whole, the others what their scope allows. -/
def onOption (b : Build) (env : Env) (o : OptionMessage) (s : Connection) : Connection :=
  if s.authedConnId = some .remote then s.updateOptions b env o
  else match s.scopedUpdateOptionMessage o with
    | some kept => s.updateOptions b env kept
    | none => s

def shouldHandleRenderBroadcastMessage (s : Connection) : Bool :=
  s.authedConnId == some .remote || s.authedConnId == some .viewCamera

/-- The `SelectedSid` message of a Windows host with several sessions. -/
def onSelectedSid (b : Build) (env : Env) (sid : Nat) (s : Connection) : Connection × Bool :=
  if !env.hasProcessSession then (s, true)
  else if env.selectOtherSession sid then (s.emit (.otherSession sid), false)
  else if s.fileTransfer.isSome then
    match s.delayedReadDir with
    | some (dir, showHidden) => ({ s with delayedReadDir := none }.readDir dir showHidden, true)
    | none => (s, true)
  else if s.viewCamera then (s.trySubCameraDisplays env, true)
  else if !s.terminal then (s.trySubMonitorServices b env, true)
  else (s, true)

/-- The `Misc` messages that never end the session. -/
def onMiscMessage (b : Build) (env : Env) (m : Misc) (s : Connection) : Connection :=
  match m with
  | .switchDisplay display width height => s.handleSwitchDisplay b env display width height
  | .captureDisplays add sub set => s.captureDisplays env add sub set
  | .toggleVirtualDisplay display on =>
    if b.windows && !s.viewCamera then s.toggleVirtualDisplay env display on else s
  | .togglePrivacyMode implKey on =>
    if s.viewCamera then s
    else if on then s.turnOnPrivacy env implKey else s.turnOffPrivacy env implKey
  | .chatMessage text => { s.sendToCm (.chatMessage text) with chatUnanswered := true }
  | .option o => s.onOption b env o
  | .refreshVideo r =>
    if s.shouldHandleRenderBroadcastMessage && r then s.refreshVideoDisplay none else s
  | .refreshVideoDisplay display =>
    if s.shouldHandleRenderBroadcastMessage then s.refreshVideoDisplay (some display) else s
  | .videoReceived => s.emit .videoFetched
  | .restartRemoteDevice => if !b.mobile && s.perms.restart then s.emit .restartDevice else s
  | .elevationDirect => if b.windows then s.handleElevationRequest env else s
  | .elevationLogon .. => if b.windows then s.handleElevationRequest env else s
  | .audioFormat .. =>
    if s.opts.disableAudio then s else { s with audioSender := true }.emit .audioPlayback
  | .changeResolution width height =>
    if !b.mobile && !s.viewCamera then s.changeResolution env none width height else s
  | .changeDisplayResolution display width height =>
    if !b.mobile && !s.viewCamera then s.changeResolution env (some display) width height else s
  | .pluginRequest id _ =>
    if b.flutterDesktop && b.pluginFramework then (s.emit (.plugin id)).send (.pluginResponse id)
    else s
  | .autoAdjustFps fps => s.emit (.autoAdjustFps fps)
  | .clientRecordStatus status => s.emit (.userRecord status)
  | .messageQuery display => s.sendDisplayChanged env (usizeOfI32 display)
  | _ => s

def onMisc (b : Build) (env : Env) (m : Misc) (s : Connection) : Connection × Bool :=
  match m with
  | .switchSidesRequest uuid =>
    if b.flutterDesktop && uuid.length == 16 then
      ((s.emit (.pendingSwitchSides uuid)).onClose b false, false)
    else (s, true)
  | .selectedSid sid => if b.windows then s.onSelectedSid b env sid else (s, true)
  | m => (s.onMiscMessage b env m, true)

def onAudioFrame (s : Connection) : Connection :=
  if !s.opts.disableAudio && s.audioSender then s.emit .audioPlayback else s

def onVoiceCallRequest (env : Env) (reqTimestamp : Int) (isConnect : Bool) (s : Connection) :
    Connection :=
  if isConnect then
    let ts : Int := if reqTimestamp = 0 then env.now else reqTimestamp
    { s with voiceCallRequestTimestamp := some ts }.sendToCm .voiceCallIncoming
  else s.closeVoiceCall env

def onScreenshotRequest (display : Int) (sid : String) (s : Connection) : Connection :=
  (s.emit (.screenshot display sid)).refreshVideoDisplay (some display)

/-- `handle_terminal_action`: it asks for the token only. -/
def handleTerminalAction (b : Build) (a : TerminalAction) (s : Connection) : Connection :=
  if b.mobile then s
  else match s.terminalUserToken with
    | some token =>
      (s.emit (.terminalAction s.terminalServiceId s.terminalPersistent
        token.toTerminalServiceToken a)).send (.terminalResponse a)
    | none => s

/-- The messages of an authorized session that is not a port forward. -/
def onSessionMessage (b : Build) (env : Env) (m : Message) (s : Connection) : Connection × Bool :=
  match m with
  | .mouseEvent me => (s.onMouseEvent b me, true)
  | .pointerDeviceEvent scale => (s.onPointerDeviceEvent b scale, true)
  | .keyEvent ke => (s.onKeyEvent b env ke, true)
  | .clipboard _ => (s.onClipboard, true)
  | .multiClipboards _ => (s.onClipboard, true)
  | .cliprdr files =>
    (if b.windows || b.unixFileCopyPaste then s.onCliprdr b env files else s, true)
  | .fileAction fa => (s.onFileAction env fa, true)
  | .fileResponse fr => (s.onFileResponse fr, true)
  | .misc m => s.onMisc b env m
  | .audioFrame _ => (s.onAudioFrame, true)
  | .voiceCallRequest ts isConnect => (s.onVoiceCallRequest env ts isConnect, true)
  | .screenshotRequest display sid => (s.onScreenshotRequest display sid, true)
  | .terminalAction a => (s.handleTerminalAction b a, true)
  | _ => (s, true)

/-- `on_message` after the close reason and the scope filter. -/
def dispatch (b : Build) (env : Env) (m : Message) (s : Connection) : Connection × Bool :=
  match m with
  | .loginRequest lr => s.onLoginRequest b env lr
  | .auth2fa code hwid => s.onAuth2fa b env code hwid
  | .testDelay t => (s.onTestDelay env t, true)
  | .switchSidesResponse uuid lr => s.onSwitchSidesResponse b env uuid lr
  | m =>
    if s.authorized && s.portForwardSocket.isNone then s.onSessionMessage b env m else (s, true)

def isCloseReason : Message → Bool
  | .misc (.closeReason _) => true
  | _ => false

def isLoginRequest : Message → Bool
  | .loginRequest _ => true
  | _ => false

def onMessage (b : Build) (env : Env) (m : Message) (s : Connection) : Connection × Bool :=
  if isCloseReason m then ((s.onClose b true).checkRemoveSession env, false)
  else if s.authorized && isLoginRequest m then (s, true)
  else match if s.authorized then s.authorizedScopeViolation b m else none with
    | some message => s.handleAuthorizedScopeViolation b env message
    | none => s.dispatch b env m

end RustDesk.Connection
