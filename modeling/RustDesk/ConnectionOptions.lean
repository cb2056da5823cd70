import RustDesk.ConnectionScope

/-!
# Options and subscriptions of a connection

`update_options` applies an option message field by field; every field that is a
`BoolOption` goes through `applyBool`, which ignores `NotSet` and numbers outside
the enumeration. The subscriptions of the connection are changed here, by the
voice call, and by the permission switches of the connection manager.
-/

namespace RustDesk.Connection

/-- `if let Ok(q) = field.enum_value() { if q != NotSet { .. q == Yes .. } }` -/
def applyBool (raw : Int) (f : Bool → Connection → Connection) (s : Connection) : Connection :=
  match BoolOption.enumValue raw with
  | some .yes => f true s
  | some .no => f false s
  | _ => s

def mapOpts (f : PeerOptions → PeerOptions) (s : Connection) : Connection :=
  { s with opts := f s.opts }

/-- A part that is compiled in, or done, under a condition. -/
def onlyIf (c : Bool) (f : Connection → Connection) (s : Connection) : Connection :=
  if c then f s else s

def updateTerminalPersistence (persistent : Bool) (s : Connection) : Connection :=
  { s with terminalPersistent := persistent }.emit (.setPersistent s.terminalServiceId persistent)

def turnOnPrivacy (env : Env) (implKey : String) (s : Connection) : Connection :=
  if !s.isAuthedRemoteConn || !s.perms.privacyMode then
    s.send (.privacyMode "PrvOnFailedDenied" implKey)
  else if !env.privacyModeSupported then s.send (.privacyMode "PrvNotSupported" implKey)
  else (s.emit (.turnOnPrivacy implKey)).send (.privacyMode env.turnOnPrivacyState implKey)

def turnOffPrivacy (env : Env) (implKey : String) (s : Connection) : Connection :=
  if !env.privacyModeSupported then s.send (.privacyMode "PrvNotSupported" implKey)
  else (s.emit (.turnOffPrivacy implKey)).send
    (.privacyMode (if env.turnOffPrivacyOk then "PrvOffSucceeded" else "PrvOffFailed") implKey)

/-- The subscription to the audio service after `audio` or `disable_audio` changed. -/
def subscribeAudio (env : Env) (s : Connection) : Connection :=
  if s.isAuthedViewCameraConn then
    if s.voiceCalling || !s.audioEnabled then s.subscribe env .audio s.audioEnabled else s
  else s.subscribe env .audio s.audioEnabled

def setImageQuality (o : OptionMessage) (s : Connection) : Connection :=
  match ImageQuality.enumValue o.imageQuality with
  | some q =>
    let iq := if q = .notSet then (if 0 < o.customImageQuality then o.customImageQuality else -1)
      else q.value
    if 0 < iq then s.emit (.imageQuality iq) else s
  | none => s

def setCustomFps (o : OptionMessage) (s : Connection) : Connection :=
  if 0 < o.customFps then s.emit (.customFps o.customFps) else s

def setSupportedDecoding (o : OptionMessage) (s : Connection) : Connection :=
  match o.supportedDecoding with
  | some d => s.emit (.updateDecoding (some d))
  | none => s

def setLockAfterSessionEnd (q : Bool) (s : Connection) : Connection :=
  s.mapOpts ({ · with lockAfterSessionEnd := q })

def setShowRemoteCursor (env : Env) (q : Bool) (s : Connection) : Connection :=
  let s := s.mapOpts ({ · with showRemoteCursor := q })
  (s.subscribe env .cursor (s.peerKeyboardEnabled || q)).subscribe env .pos q

def setFollowRemoteCursor (q : Bool) (s : Connection) : Connection :=
  s.mapOpts ({ · with followRemoteCursor := q })

def setFollowRemoteWindow (env : Env) (q : Bool) (s : Connection) : Connection :=
  (s.mapOpts ({ · with followRemoteWindow := q })).subscribe env .windowFocus q

def setDisableAudio (env : Env) (q : Bool) (s : Connection) : Connection :=
  (s.mapOpts ({ · with disableAudio := q })).subscribeAudio env

def setEnableFileTransfer (b : Build) (env : Env) (q : Bool) (s : Connection) : Connection :=
  let s := s.mapOpts ({ · with enableFileTransfer := q })
  s |>.onlyIf b.windows (sendToCm (.clipboardFileEnabled s.fileTransferEnabled))
    |>.onlyIf b.unixFileCopyPaste
      (subscribe env .fileClipboard (s.canSubFileClipboardService env))

def setDisableClipboard (env : Env) (q : Bool) (s : Connection) : Connection :=
  let s := s.mapOpts ({ · with disableClipboard := q })
  s.subscribe env .clipboard (s.canSubClipboardService env)

/-- The three subscriptions that depend on the keyboard permission, with the cursor
service following `cursor`. -/
def subscribeKeyboard (b : Build) (env : Env) (cursor : Bool) (s : Connection) : Connection :=
  s |>.subscribe env .clipboard (s.canSubClipboardService env)
    |>.onlyIf b.unixFileCopyPaste
      (subscribe env .fileClipboard (s.canSubFileClipboardService env))
    |>.subscribe env .cursor cursor

def setDisableKeyboard (b : Build) (env : Env) (q : Bool) (s : Connection) : Connection :=
  let s := s.mapOpts ({ · with disableKeyboard := q })
  s.subscribeKeyboard b env (s.peerKeyboardEnabled || s.opts.showRemoteCursor)

def setShowMyCursor (env : Env) (q : Bool) (s : Connection) : Connection :=
  let s := s.mapOpts ({ · with showMyCursor := q })
  if env.showMyCursorNotSupported.isEmpty then s.emit (.whiteboard q)
  else if q then s.send (.messageBox "Show my cursor" env.showMyCursorNotSupported)
  else s

/-- For peers before 1.2.4 privacy mode is switched by an option. -/
def updatePrivacyOption (env : Env) (o : OptionMessage) (s : Connection) : Connection :=
  if getVersionNumber s.lr.version < getVersionNumber "1.2.4" then
    match BoolOption.enumValue o.privacyMode with
    | some .yes => if s.perms.keyboard then s.turnOnPrivacy env "" else s
    | some .no => if s.perms.keyboard then s.turnOffPrivacy env "" else s
    | _ => s
  else s

def updateBlockInput (o : OptionMessage) (s : Connection) : Connection :=
  s.applyBool o.blockInput fun q s =>
    if s.perms.keyboard && s.perms.blockInput then s.emit (.blockInput q)
    else s.send (.blockInputFailed q "No permission")

def updateOptions (b : Build) (env : Env) (o : OptionMessage) (s : Connection) : Connection :=
  s |>.setImageQuality o
    |>.setCustomFps o
    |>.setSupportedDecoding o
    |>.applyBool o.lockAfterSessionEnd setLockAfterSessionEnd
    |>.onlyIf (!b.mobile) (applyBool o.showRemoteCursor (setShowRemoteCursor env))
    |>.onlyIf (!b.mobile) (applyBool o.followRemoteCursor setFollowRemoteCursor)
    |>.applyBool o.followRemoteWindow (setFollowRemoteWindow env)
    |>.applyBool o.disableAudio (setDisableAudio env)
    |>.onlyIf (b.windows || b.unixFileCopyPaste)
      (applyBool o.enableFileTransfer (setEnableFileTransfer b env))
    |>.applyBool o.disableClipboard (setDisableClipboard env)
    |>.applyBool o.disableKeyboard (setDisableKeyboard b env)
    |>.updatePrivacyOption env o
    |>.updateBlockInput o
    |>.onlyIf (!b.mobile) (applyBool o.terminalPersistent updateTerminalPersistence)
    |>.onlyIf (!b.mobile) (applyBool o.showMyCursor (setShowMyCursor env))

/-- The services `Server::add_connection` walks over, without the video services of
other displays. -/
def monitorServices (b : Build) (env : Env) : List Service :=
  [.video .monitor env.primaryDisplay, .cursor, .pos, .windowFocus, .clipboard, .audio, .display,
    .printer] ++ if b.unixFileCopyPaste then [.fileClipboard] else []

def noperms (b : Build) (env : Env) (s : Connection) : List Service :=
  (if !s.peerKeyboardEnabled && !s.opts.showRemoteCursor then [.cursor] else []) ++
  (if !s.opts.showRemoteCursor then [.pos] else []) ++
  (if !s.opts.followRemoteWindow then [.windowFocus] else []) ++
  (if !s.canSubClipboardService env then [.clipboard] else []) ++
  (if b.unixFileCopyPaste && !s.canSubFileClipboardService env then [.fileClipboard] else []) ++
  (if !s.audioEnabled then [.audio] else [])

def trySubMonitorServices (b : Build) (env : Env) (s : Connection) : Connection :=
  if s.isRemote && !s.servicesSubed then
    let s := { s with servicesSubed := true }
    if env.serverAlive then
      { s with subs := (monitorServices b env).filter (fun svc =>
          (env.hasService svc || svc == .video .monitor env.primaryDisplay)
            && !(s.noperms b env).contains svc && !s.subs.contains svc) ++ s.subs }
    else s
  else s

def trySubCameraDisplays (env : Env) (s : Connection) : Connection :=
  if env.serverAlive && env.primaryCameraExists then
    { s with subs := if .video .camera 0 ∈ s.subs then s.subs else .video .camera 0 :: s.subs }
  else s

def isVideoService : Service → Bool
  | .video .. => true
  | _ => false

/-- `Server::capture_displays` for this connection, over the existing video services. -/
def captureServices (source : VideoSource) (displays : List Nat) (incl excl : Bool)
    (subs : List Service) : List Service :=
  let names := displays.map (Service.video source)
  let kept := if excl then subs.filter fun svc => !isVideoService svc || names.contains svc
    else subs
  if incl then (names.dedup.filter fun n => !kept.contains n) ++ kept else kept

/-- `capture_displays`: the services of `add` and `set` are created first. -/
def captureDisplays (env : Env) (add sub set : List Int) (s : Connection) : Connection :=
  if env.serverAlive then
    let subs :=
      if !add.isEmpty then captureServices s.videoSource (add.map usizeOfI32) true false s.subs
      else if !sub.isEmpty then captureServices s.videoSource (sub.map usizeOfI32) false true s.subs
      else captureServices s.videoSource (set.map usizeOfI32) true true s.subs
    let s := { s with subs, multiUiSession := 1 < (subs.filter isVideoService).length }
    if s.opts.followRemoteWindow then s.subscribe env .windowFocus (!s.multiUiSession) else s
  else s

def handleVoiceCall (env : Env) (accepted : Bool) (s : Connection) : Connection :=
  match s.voiceCallRequestTimestamp with
  | some ts =>
    let s := { s with voiceCallRequestTimestamp := none }
    let s := s.sendToCm (if accepted then .startVoiceCall else .closeVoiceCall)
    let s := { s.send (.voiceCallResponse ts accepted) with voiceCalling := accepted }
    if s.isAuthedViewCameraConn then s.subscribe env .audio (s.audioEnabled && accepted) else s
  | none => s

def closeVoiceCall (env : Env) (s : Connection) : Connection :=
  let s := { s.sendToCm .closeVoiceCall with voiceCalling := false }
  if s.isAuthedViewCameraConn then s.subscribe env .audio false else s

end RustDesk.Connection
