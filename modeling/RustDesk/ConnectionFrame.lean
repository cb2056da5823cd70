import RustDesk.ConnectionLoop

/-!
# What a handler leaves alone

`Core` holds the fields that say who the peer is and what it was authorized for. Most
handlers leave the core as it is and only add to the log; `Frame k s s'` says so, with
the new entries neither recording a login outcome nor using a capability of a session
kind outside `k`.
-/

namespace RustDesk

/-- An entry that records a successful outcome of a login check. -/
def Effect.isLogin : Effect → Bool
  | .installLogin _ => true
  | .permission _ _ ok => ok
  | .validatePassword ok => ok
  | .recentSession _ => true
  | .cmAuthorize => true
  | .switchSides => true
  | .totp ok => ok
  | .trustedDevice => true
  | .fillTerminalUserToken _ _ error => error.isNone
  | .serviceUserCheck _ ok => ok
  | .tcpConnect .. => true
  | .authorize .. => true
  | _ => false

/-- The session kind whose capability an entry uses. -/
def Effect.scope : Effect → Option AuthConnType
  | .terminalAction .. => some .terminal
  | .setPersistent .. => some .terminal
  | .fileAction fa => if Connection.isPrinterJob fa then none else some .fileTransfer
  | .inputMouse .. => some .remote
  | .inputPointer _ => some .remote
  | .inputKey .. => some .remote
  | _ => none

/-- No login outcome, and no capability but those of the kinds in `k`. -/
def Effect.Within (k : AuthConnType → Prop) (e : Effect) : Prop :=
  e.isLogin = false ∧ ∀ j, e.scope = some j → k j

/-- Who the peer is, and what it was authorized for. -/
structure Core where
  authorized : Bool
  authedConnId : Option AuthConnType
  fromSwitch : Bool
  require2fa : Option String
  lr : LoginRequest
  optionsInLogin : Option OptionMessage
  fileTransfer : Option (String × Bool)
  viewCamera : Bool
  terminal : Bool
  portForwardSocket : Option String
  portForwardAddress : String
  terminalServiceId : String
  terminalUserToken : Option TerminalUserToken
  perms : Permissions
  ended : Bool
  deriving DecidableEq

def Core.dropSocket (c : Core) : Core := { c with portForwardSocket := none }

namespace Connection

def core (s : Connection) : Core :=
  { authorized := s.authorized
    authedConnId := s.authedConnId
    fromSwitch := s.fromSwitch
    require2fa := s.require2fa
    lr := s.lr
    optionsInLogin := s.optionsInLogin
    fileTransfer := s.fileTransfer
    viewCamera := s.viewCamera
    terminal := s.terminal
    portForwardSocket := s.portForwardSocket
    portForwardAddress := s.portForwardAddress
    terminalServiceId := s.terminalServiceId
    terminalUserToken := s.terminalUserToken
    perms := s.perms
    ended := s.ended }

/-- The log of `s'` is that of `s` with entries within the kinds in `k`. -/
def Grows (k : AuthConnType → Prop) (s s' : Connection) : Prop :=
  ∃ new, s'.log = new ++ s.log ∧ ∀ e ∈ new, e.Within k

/-- `s'` is `s` with the same core and a log that grew within the kinds in `k`. -/
def Frame (k : AuthConnType → Prop) (s s' : Connection) : Prop :=
  s'.core = s.core ∧ Grows k s s'

/-- The same up to the socket of a port forward, which closing drops. -/
def Leave (k : AuthConnType → Prop) (s s' : Connection) : Prop :=
  s'.core.dropSocket = s.core.dropSocket ∧ Grows k s s'

/-- A handler that leaves the core alone, but for the socket when the loop is left. -/
def Outcome (k : AuthConnType → Prop) (s : Connection) (r : Connection × Bool) : Prop :=
  if r.2 then Frame k s r.1 else Leave k s r.1

variable {b : Build} {env : Env} {k : AuthConnType → Prop} {s s' s'' : Connection}

theorem Grows.refl (s : Connection) : Grows k s s := ⟨[], rfl, by simp⟩

theorem Grows.trans (h : Grows k s s') (h' : Grows k s' s'') : Grows k s s'' := by
  obtain ⟨new, hl, hn⟩ := h
  obtain ⟨new', hl', hn'⟩ := h'
  refine ⟨new' ++ new, by rw [hl', hl, List.append_assoc], ?_⟩
  intro e he
  rcases List.mem_append.mp he with he | he
  · exact hn' e he
  · exact hn e he

theorem Frame.of_eq (hc : s'.core = s.core) (hl : s'.log = s.log) : Frame k s s' :=
  ⟨hc, [], hl, by simp⟩

theorem Frame.refl (s : Connection) : Frame k s s := .of_eq rfl rfl

theorem Frame.trans (h : Frame k s s') (h' : Frame k s' s'') : Frame k s s'' :=
  ⟨h'.1.trans h.1, h.2.trans h'.2⟩

theorem Frame.leave (h : Frame k s s') : Leave k s s' :=
  ⟨congrArg Core.dropSocket h.1, h.2⟩

theorem Leave.trans (h : Leave k s s') (h' : Leave k s' s'') : Leave k s s'' :=
  ⟨h'.1.trans h.1, h.2.trans h'.2⟩

theorem outcome_of_frame {r : Connection × Bool} (h : Frame k s r.1) : Outcome k s r := by
  unfold Outcome
  split
  · exact h
  · exact h.leave

/-- A handler that touches no field of the core and adds quiet entries. -/
theorem Frame.of_log (new : List Effect) (hc : s'.core = s.core) (hl : s'.log = new ++ s.log)
    (hq : ∀ e ∈ new, e.isLogin = false ∧ e.scope = none) : Frame k s s' :=
  ⟨hc, new, hl, fun e he => ⟨(hq e he).1, by simp [(hq e he).2]⟩⟩

theorem frame_emit {e : Effect} (h : e.Within k) : Frame k s (s.emit e) :=
  ⟨rfl, [e], rfl, by simpa using h⟩

theorem frame_quiet {e : Effect} (hl : e.isLogin = false) (hs : e.scope = none) :
    Frame k s (s.emit e) :=
  frame_emit ⟨hl, by simp [hs]⟩

theorem frame_send (m : Outgoing) : Frame k s (s.send m) := frame_quiet rfl rfl

theorem frame_sendToCm (d : ToCm) : Frame k s (s.sendToCm d) := frame_quiet rfl rfl

theorem frame_sendFs (f : Fs) : Frame k s (s.sendFs f) := frame_quiet rfl rfl

theorem frame_subscribe (svc : Service) (sub : Bool) : Frame k s (s.subscribe env svc sub) := by
  unfold subscribe
  split_ifs
  · exact .of_eq rfl rfl
  · exact .refl s
  · exact .of_eq rfl rfl

/-! ### Options -/

theorem frame_applyBool {raw : Int} {f : Bool → Connection → Connection}
    (h : ∀ q, Frame k s (f q s)) : Frame k s (s.applyBool raw f) := by
  unfold applyBool
  split
  · exact h true
  · exact h false
  · exact .refl s

theorem frame_turnOnPrivacy (implKey : String) : Frame k s (s.turnOnPrivacy env implKey) := by
  unfold turnOnPrivacy
  split_ifs
  · exact frame_send _
  · exact frame_send _
  · exact (frame_quiet rfl rfl).trans (frame_send _)

theorem frame_turnOffPrivacy (implKey : String) : Frame k s (s.turnOffPrivacy env implKey) := by
  unfold turnOffPrivacy
  split_ifs
  · exact frame_send _
  · exact (frame_quiet rfl rfl).trans (frame_send _)
  · exact (frame_quiet rfl rfl).trans (frame_send _)

theorem frame_subscribeAudio : Frame k s (s.subscribeAudio env) := by
  unfold subscribeAudio
  split_ifs
  · exact frame_subscribe _ _
  · exact .refl s
  · exact frame_subscribe _ _

theorem frame_onlyIf {c : Bool} {f : Connection → Connection} (h : c = true → Frame k s (f s)) :
    Frame k s (s.onlyIf c f) := by
  unfold onlyIf
  split_ifs with hc
  · exact h hc
  · exact .refl s

theorem frame_setImageQuality (o : OptionMessage) : Frame k s (s.setImageQuality o) := by
  unfold setImageQuality
  split
  · extract_lets iq
    split_ifs
    · exact frame_quiet rfl rfl
    · exact .refl s
  · exact .refl s

theorem frame_setCustomFps (o : OptionMessage) : Frame k s (s.setCustomFps o) := by
  unfold setCustomFps
  split_ifs
  · exact frame_quiet rfl rfl
  · exact .refl s

theorem frame_setSupportedDecoding (o : OptionMessage) : Frame k s (s.setSupportedDecoding o) := by
  unfold setSupportedDecoding
  split
  · exact frame_quiet rfl rfl
  · exact .refl s

theorem frame_mapOpts (f : PeerOptions → PeerOptions) : Frame k s (s.mapOpts f) := .of_eq rfl rfl

theorem frame_setShowRemoteCursor (q : Bool) : Frame k s (s.setShowRemoteCursor env q) :=
  (frame_mapOpts _).trans ((frame_subscribe _ _).trans (frame_subscribe _ _))

theorem frame_setFollowRemoteWindow (q : Bool) : Frame k s (s.setFollowRemoteWindow env q) :=
  (frame_mapOpts _).trans (frame_subscribe _ _)

theorem frame_setDisableAudio (q : Bool) : Frame k s (s.setDisableAudio env q) :=
  (frame_mapOpts _).trans frame_subscribeAudio

theorem frame_setEnableFileTransfer (q : Bool) : Frame k s (s.setEnableFileTransfer b env q) :=
  (frame_mapOpts _).trans ((frame_onlyIf fun _ => frame_sendToCm _).trans
    (frame_onlyIf fun _ => frame_subscribe _ _))

theorem frame_setDisableClipboard (q : Bool) : Frame k s (s.setDisableClipboard env q) :=
  (frame_mapOpts _).trans (frame_subscribe _ _)

theorem frame_subscribeKeyboard (cursor : Bool) : Frame k s (s.subscribeKeyboard b env cursor) :=
  (frame_subscribe _ _).trans ((frame_onlyIf fun _ => frame_subscribe _ _).trans
    (frame_subscribe _ _))

theorem frame_setDisableKeyboard (q : Bool) : Frame k s (s.setDisableKeyboard b env q) :=
  (frame_mapOpts _).trans (frame_subscribeKeyboard _)

theorem frame_setShowMyCursor (q : Bool) : Frame k s (s.setShowMyCursor env q) := by
  refine (frame_mapOpts ({ · with showMyCursor := q })).trans ?_
  unfold setShowMyCursor
  split_ifs
  · exact frame_quiet rfl rfl
  · exact frame_send _
  · exact .refl _

theorem frame_updatePrivacyOption (o : OptionMessage) : Frame k s (s.updatePrivacyOption env o) := by
  unfold updatePrivacyOption
  split_ifs
  · split
    · exact frame_turnOnPrivacy _
    · exact frame_turnOffPrivacy _
    · exact .refl s
  · split <;> exact .refl s
  · exact .refl s

theorem frame_updateBlockInput (o : OptionMessage) : Frame k s (s.updateBlockInput o) := by
  refine frame_applyBool fun q => ?_
  split_ifs
  · exact frame_quiet rfl rfl
  · exact frame_send _

/-- Whether an option message switches the persistence of a terminal. -/
def setsTerminalPersistent (b : Build) (o : OptionMessage) : Bool :=
  !b.mobile && (BoolOption.enumValue o.terminalPersistent == some .yes ||
    BoolOption.enumValue o.terminalPersistent == some .no)

theorem frame_terminalPersistent (o : OptionMessage)
    (h : setsTerminalPersistent b o = true → k .terminal) :
    Frame k s (s.onlyIf (!b.mobile) (applyBool o.terminalPersistent updateTerminalPersistence)) := by
  refine frame_onlyIf fun hb => ?_
  unfold applyBool
  split
  case h_3 => exact .refl s
  all_goals
    rename_i hq
    have hk : k .terminal := h (by simp_all [setsTerminalPersistent])
    exact (Frame.of_eq rfl rfl).trans (frame_emit ⟨rfl, fun _ hj => Option.some.inj hj ▸ hk⟩)

theorem frame_updateOptions (o : OptionMessage)
    (h : setsTerminalPersistent b o = true → k .terminal) :
    Frame k s (s.updateOptions b env o) := by
  unfold updateOptions
  refine .trans ?_ (frame_onlyIf fun _ => frame_applyBool fun _ => frame_setShowMyCursor _)
  refine .trans ?_ (frame_terminalPersistent o h)
  refine .trans ?_ (frame_updateBlockInput o)
  refine .trans ?_ (frame_updatePrivacyOption o)
  refine .trans ?_ (frame_applyBool fun _ => frame_setDisableKeyboard _)
  refine .trans ?_ (frame_applyBool fun _ => frame_setDisableClipboard _)
  refine .trans ?_ (frame_onlyIf fun _ => frame_applyBool fun _ => frame_setEnableFileTransfer _)
  refine .trans ?_ (frame_applyBool fun _ => frame_setDisableAudio _)
  refine .trans ?_ (frame_applyBool fun _ => frame_setFollowRemoteWindow _)
  refine .trans ?_ (frame_onlyIf fun _ => frame_applyBool fun _ => frame_mapOpts _)
  refine .trans ?_ (frame_onlyIf fun _ => frame_applyBool fun _ => frame_setShowRemoteCursor _)
  refine .trans ?_ (frame_applyBool fun _ => frame_mapOpts _)
  refine .trans ?_ (frame_setSupportedDecoding o)
  exact (frame_setImageQuality o).trans (frame_setCustomFps o)

/-! ### Messages of a session -/

theorem frame_trySubMonitorServices : Frame k s (s.trySubMonitorServices b env) := by
  unfold trySubMonitorServices
  split_ifs
  · exact .of_eq rfl rfl
  · exact .of_eq rfl rfl
  · exact .refl s

theorem frame_trySubCameraDisplays : Frame k s (s.trySubCameraDisplays env) := by
  unfold trySubCameraDisplays
  split_ifs
  · exact .of_eq rfl rfl
  · exact .of_eq rfl rfl
  · exact .refl s

theorem frame_captureDisplays (add sub set : List Int) :
    Frame k s (s.captureDisplays env add sub set) := by
  unfold captureDisplays
  split
  · extract_lets subs s₁
    have h₁ : Frame k s s₁ := .of_eq rfl rfl
    split_ifs
    · exact h₁.trans (frame_subscribe _ _)
    · exact h₁
  · exact .refl s

theorem frame_handleVoiceCall (accepted : Bool) : Frame k s (s.handleVoiceCall env accepted) := by
  unfold handleVoiceCall
  split
  · extract_lets s₁ s₂ s₃
    have h₁ : Frame k s s₁ := .of_eq rfl rfl
    have h₂ : Frame k s₁ s₂ := frame_sendToCm _
    have h₃ : Frame k s₂ s₃ := (frame_send _).trans (.of_eq rfl rfl)
    split_ifs
    · exact h₁.trans (h₂.trans (h₃.trans (frame_subscribe _ _)))
    · exact h₁.trans (h₂.trans h₃)
  · exact .refl s

theorem frame_closeVoiceCall : Frame k s (s.closeVoiceCall env) := by
  unfold closeVoiceCall
  extract_lets s₁
  have h₁ : Frame k s s₁ := (frame_sendToCm _).trans (.of_eq rfl rfl)
  split_ifs
  · exact h₁.trans (frame_subscribe _ _)
  · exact h₁

theorem frame_onTestDelay (t : TestDelay) : Frame k s (s.onTestDelay env t) := by
  unfold onTestDelay
  split_ifs
  · exact frame_quiet rfl rfl
  · split
    · exact .of_log [_] rfl rfl (by simp [Effect.isLogin, Effect.scope])
    · exact .refl s

/-- The input handlers are reached by remote and camera sessions only, and do nothing
for the latter. -/
theorem frame_onMouseEvent (me : MouseEvent)
    (h : s.isAuthedViewCameraConn = true ∨ k .remote) : Frame k s (s.onMouseEvent b me) := by
  unfold onMouseEvent
  split_ifs with hv
  · exact .refl s
  all_goals
    have hk := h.resolve_left hv
    first
    | exact .refl s
    | exact frame_emit ⟨rfl, fun _ hj => Option.some.inj hj ▸ hk⟩

theorem frame_onPointerDeviceEvent (scale : Int)
    (h : s.isAuthedViewCameraConn = true ∨ k .remote) :
    Frame k s (s.onPointerDeviceEvent b scale) := by
  unfold onPointerDeviceEvent
  split_ifs with hv
  · exact .refl s
  · exact frame_emit ⟨rfl, fun _ hj => Option.some.inj hj ▸ h.resolve_left hv⟩
  · exact .refl s

theorem frame_trackModifier (key : Option Nat) (isPress : Bool) :
    Frame k s (s.trackModifier key isPress) := by
  unfold trackModifier
  split
  · exact .of_eq rfl rfl
  · exact .refl s

theorem frame_onKeyEvent (ke : KeyEvent)
    (h : s.isAuthedViewCameraConn = true ∨ k .remote) :
    Frame k s (s.onKeyEvent b env ke) := by
  unfold onKeyEvent
  split
  · exact .refl s
  · rename_i hv
    have hk : k .remote := h.resolve_left fun hc => hv (by simp [hc])
    extract_lets key pressed s₁ isPress s₂ asPress
    split
    · exact (frame_trackModifier _ _).trans (frame_emit ⟨rfl, fun _ hj => Option.some.inj hj ▸ hk⟩)
    · split
      · exact (frame_trackModifier _ _).trans (frame_emit ⟨rfl, fun _ hj => Option.some.inj hj ▸ hk⟩)
      · exact .refl s

theorem frame_onClipboard : Frame k s s.onClipboard := by
  unfold onClipboard
  split_ifs
  · exact frame_quiet rfl rfl
  · exact .refl s

theorem frame_foldl {α : Type*} {f : Connection → α → Connection} (h : ∀ s a, Frame k s (f s a))
    (l : List α) : Frame k s (l.foldl f s) := by
  induction l generalizing s with
  | nil => exact .refl s
  | cons a l ih => exact (h s a).trans ih

theorem frame_onCliprdr (files : Bool) : Frame k s (s.onCliprdr b env files) := by
  unfold onCliprdr
  split
  · exact .refl s
  · extract_lets s₁
    have h₁ : Frame k s s₁ := by
      unfold s₁
      split
      · exact frame_sendToCm _
      · exact .refl s
    split
    · exact h₁.trans ((frame_quiet rfl rfl).trans (frame_foldl (fun _ _ => frame_send _) _))
    · exact h₁

theorem frame_createAndStartReadJob (env : Env) (id : Int) (path : String) (hidden check : Bool) :
    Frame k s (s.createAndStartReadJob env id path hidden check) := by
  unfold createAndStartReadJob
  split
  · exact frame_send _
  · split
    · exact frame_send _
    · exact (frame_send _).trans (.of_eq rfl rfl)

theorem frame_onFileSend (id : Int) (path : String) (hidden : Bool) (fileNum : Int)
    (printer : Bool) : Frame k s (s.onFileSend env id path hidden fileNum printer) := by
  unfold onFileSend
  split
  · split
    · exact (frame_createAndStartReadJob env id path hidden false).trans (.of_eq rfl rfl)
    · exact .refl s
  · split
    · exact .of_log [_] rfl rfl (by simp [Effect.isLogin, Effect.scope])
    · exact (frame_createAndStartReadJob env id path hidden true).trans (.of_eq rfl rfl)

theorem frame_onFileSendConfirm (r : SendConfirm) : Frame k s (s.onFileSendConfirm r) := by
  unfold onFileSendConfirm
  split_ifs
  · exact .refl s
  · exact frame_sendFs _
  · exact frame_sendFs _

theorem frame_onAllFiles (id : Int) (path : String) (hidden : Bool) :
    Frame k s (s.onAllFiles env id path hidden) := by
  unfold onAllFiles
  split_ifs
  · exact frame_sendFs _
  · split
    · exact frame_send _
    · split
      · exact frame_send _
      · exact frame_send _

theorem frame_onFileCancel (id : Int) : Frame k s (s.onFileCancel id) := by
  unfold onFileCancel
  extract_lets s₁ s₂
  have h₂ : Frame k s s₂ :=
    .of_log [.toCm (.fs (.cancelRead id)), .toCm (.fs (.cancelWrite id))] rfl rfl
      (by simp [Effect.isLogin, Effect.scope])
  split
  · exact h₂.trans (.of_log [.toCm (.fileTransferLog "transfer")] rfl rfl
      (by simp [Effect.isLogin, Effect.scope]))
  · exact h₂

theorem frame_executeFileAction (fa : FileAction)
    (h : isPrinterJob fa = true ∨ k .fileTransfer) :
    Frame k s (s.executeFileAction env fa) := by
  have he : Frame k s (s.emit (.fileAction fa)) := by
    refine frame_emit ⟨rfl, fun j hj => ?_⟩
    simp only [Effect.scope] at hj
    split_ifs at hj with hp
    exact Option.some.inj hj ▸ h.resolve_left hp
  refine he.trans ?_
  unfold executeFileAction
  split
  · exact frame_sendFs _
  · exact frame_sendFs _
  · exact frame_onAllFiles _ _ _
  · exact frame_onFileSend _ _ _ _ _
  · exact (frame_sendFs _).trans (.of_eq rfl rfl)
  · exact frame_sendFs _
  · exact frame_sendFs _
  · exact (frame_sendFs _).trans (frame_sendToCm _)
  · exact frame_onFileCancel _
  · exact frame_onFileSendConfirm _
  · exact (frame_sendFs _).trans (frame_sendToCm _)
  · exact .refl _

theorem frame_onFileAction (fa : FileAction)
    (h : s.fileTransfer.isSome = true → k .fileTransfer) :
    Frame k s (s.onFileAction env fa) := by
  unfold onFileAction
  split
  · rename_i hfa
    split
    · split
      · exact .of_eq rfl rfl
      · exact .refl s
    · split
      · exact frame_send _
      · refine frame_executeFileAction fa ?_
        rcases Bool.or_eq_true_iff.mp hfa with hft | hp
        · exact .inr (h hft)
        · exact .inl hp
  · exact .refl s

theorem frame_onFileResponse (fr : FileResponse) : Frame k s (s.onFileResponse fr) := by
  unfold onFileResponse
  split
  · exact frame_sendFs _
  · exact frame_sendFs _
  · exact frame_sendFs _
  · exact frame_sendFs _
  · exact .refl s

theorem frame_changeResolution (display : Option Int) (width height : Int) :
    Frame k s (s.changeResolution env display width height) := by
  unfold changeResolution
  extract_lets d
  split
  · exact frame_quiet rfl rfl
  · exact .refl s

theorem frame_sendDisplayChanged (display : Nat) : Frame k s (s.sendDisplayChanged env display) := by
  unfold sendDisplayChanged
  split
  · exact frame_send _
  · exact .refl s

theorem frame_switchDisplayTo (display : Nat) : Frame k s (s.switchDisplayTo env display) := by
  unfold switchDisplayTo
  extract_lets old s₁ svc s₂
  have h₁ : Frame k s s₁ := by
    unfold s₁
    split
    · exact frame_subscribe _ _
    · exact .refl s
  clear_value s₁
  have h₂ : Frame k s₁ s₂ := by
    unfold s₂
    split
    · exact .of_eq rfl rfl
    · exact frame_subscribe _ _
  exact h₁.trans (h₂.trans (.of_eq rfl rfl))

theorem frame_handleSwitchDisplay (display width height : Int) :
    Frame k s (s.handleSwitchDisplay b env display width height) := by
  unfold handleSwitchDisplay
  extract_lets d s₁ s₂
  split
  · have h₂ : Frame k s s₂ := by
      unfold s₂
      split
      · split
        · exact (frame_switchDisplayTo _).trans (frame_changeResolution _ _ _)
        · exact frame_switchDisplayTo _
      · exact .refl s
    exact h₂.trans (frame_sendDisplayChanged _)
  · exact .refl s

theorem frame_handleElevationRequest : Frame k s (s.handleElevationRequest env) := by
  unfold handleElevationRequest
  split_ifs
  · exact frame_send _
  · exact (frame_quiet rfl rfl).trans (frame_send _)
  · exact frame_send _

theorem frame_toggleVirtualDisplay (display : Int) (on : Bool) :
    Frame k s (s.toggleVirtualDisplay env display on) := by
  unfold toggleVirtualDisplay
  extract_lets err s₁
  split_ifs
  · exact frame_quiet rfl rfl
  · exact (frame_quiet rfl rfl).trans (frame_send _)

theorem setsTerminalPersistent_scopedViewCamera {o kept : OptionMessage}
    (h : (scopedViewCameraOption o).1 = some kept) : setsTerminalPersistent b kept = false := by
  obtain ⟨_, _, _, _, _, rfl⟩ := scopedViewCameraOption_eq h
  simp [setsTerminalPersistent, BoolOption.enumValue]

theorem frame_onOption (o : OptionMessage)
    (hr : s.authedConnId = some .remote → setsTerminalPersistent b o = true → k .terminal)
    (ht : s.authedConnId = some .terminal → k .terminal) : Frame k s (s.onOption b env o) := by
  unfold onOption
  split
  · rename_i hk
    exact frame_updateOptions o (hr hk)
  · split
    · rename_i kept hkept
      refine frame_updateOptions kept fun hset => ?_
      unfold scopedUpdateOptionMessage at hkept
      split at hkept
      · rw [setsTerminalPersistent_scopedViewCamera hkept] at hset
        cases hset
      · rename_i hk
        exact ht hk
      · cases hkept
    · exact .refl s

theorem frame_onSelectedSid (sid : Nat) : Frame k s (s.onSelectedSid b env sid).1 := by
  unfold onSelectedSid
  split
  · exact .refl s
  split
  · exact frame_quiet rfl rfl
  split
  · split
    · exact .of_log [_] rfl rfl (by simp [Effect.isLogin, Effect.scope])
    · exact .refl s
  split
  · exact frame_trySubCameraDisplays
  split
  · exact frame_trySubMonitorServices
  · exact .refl s

/-- What a session message needs to stay within the kinds of `k`. -/
structure Scoped (b : Build) (k : AuthConnType → Prop) (m : Message) (s : Connection) : Prop where
  input : (∃ me, m = .mouseEvent me) ∨ (∃ c, m = .pointerDeviceEvent c) ∨ (∃ ke, m = .keyEvent ke) →
    s.isAuthedViewCameraConn = true ∨ k .remote
  file : ∀ fa, m = .fileAction fa → s.fileTransfer.isSome = true → k .fileTransfer
  action : ∀ a, m = .terminalAction a → s.terminalUserToken.isSome = true → k .terminal
  option : ∀ o, m = .misc (.option o) → s.authedConnId = some .remote →
    setsTerminalPersistent b o = true → k .terminal
  terminal : s.authedConnId = some .terminal → k .terminal

theorem frame_onMiscMessage (m : Misc) (h : Scoped b k (.misc m) s) :
    Frame k s (s.onMiscMessage b env m) := by
  unfold onMiscMessage
  split
  case h_1 => exact frame_handleSwitchDisplay _ _ _
  case h_2 => exact frame_captureDisplays _ _ _
  case h_3 =>
    split
    · exact frame_toggleVirtualDisplay _ _
    · exact .refl s
  case h_4 =>
    split_ifs
    · exact .refl s
    · exact frame_turnOnPrivacy _
    · exact frame_turnOffPrivacy _
  case h_5 => exact .of_log [_] rfl rfl (by simp [Effect.isLogin, Effect.scope])
  case h_6 o => exact frame_onOption o (h.option o rfl) h.terminal
  case h_11 => split <;> first | exact frame_handleElevationRequest | exact .refl s
  case h_12 => split <;> first | exact frame_handleElevationRequest | exact .refl s
  case h_13 =>
    split
    · exact .refl s
    · exact .of_log [.audioPlayback] rfl rfl (by simp [Effect.isLogin, Effect.scope])
  case h_14 => split <;> first | exact frame_changeResolution _ _ _ | exact .refl s
  case h_15 => split <;> first | exact frame_changeResolution _ _ _ | exact .refl s
  case h_16 =>
    split
    · exact (frame_quiet rfl rfl).trans (frame_send _)
    · exact .refl s
  case h_19 => exact frame_sendDisplayChanged _
  case h_20 => exact .refl s
  all_goals
    try split
    all_goals first | exact frame_quiet rfl rfl | exact .refl s

theorem frame_handleTerminalAction (a : TerminalAction)
    (h : s.terminalUserToken.isSome = true → k .terminal) :
    Frame k s (s.handleTerminalAction b a) := by
  unfold handleTerminalAction
  split
  · exact .refl s
  · split
    · rename_i htok
      have hk : k .terminal := h (by simp [htok])
      exact (frame_emit ⟨rfl, fun _ hj => Option.some.inj hj ▸ hk⟩).trans (frame_send _)
    · exact .refl s

theorem frame_onVoiceCallRequest (ts : Int) (isConnect : Bool) :
    Frame k s (s.onVoiceCallRequest env ts isConnect) := by
  unfold onVoiceCallRequest
  split
  · exact .of_log [.toCm .voiceCallIncoming] rfl rfl (by simp [Effect.isLogin, Effect.scope])
  · exact frame_closeVoiceCall

/-! ### Closing -/

theorem frame_checkRemoveSession : Frame k s (s.checkRemoveSession env) := by
  unfold checkRemoveSession
  split
  · exact .of_eq rfl rfl
  · exact .refl s

theorem frame_sendCloseReasonNoRetry (reason : String) :
    Frame k s (s.sendCloseReasonNoRetry env reason) :=
  (frame_send _).trans frame_checkRemoveSession

theorem leave_onClose (lock : Bool) : Leave k s (s.onClose b lock) := by
  unfold onClose
  split
  · exact (Frame.refl s).leave
  · extract_lets s₁ s₂ s₃
    have h₂ : Frame k s s₂ := by
      unfold s₂
      split
      · exact .of_log [.lockScreen] rfl rfl (by simp [Effect.isLogin, Effect.scope])
      · exact .of_eq rfl rfl
    have h₃ : Frame k s s₃ := h₂.trans (frame_sendToCm _)
    have hd : s₃.core.dropSocket = s.core.dropSocket := congrArg Core.dropSocket h₃.1
    exact ⟨hd, h₃.2⟩

theorem outcome_onMisc (m : Misc) (h : Scoped b k (.misc m) s) :
    Outcome k s (s.onMisc b env m) := by
  unfold onMisc
  split
  · split
    · exact (frame_quiet rfl rfl).leave.trans (leave_onClose false)
    · exact Frame.refl s
  · split
    · exact outcome_of_frame (frame_onSelectedSid _)
    · exact Frame.refl s
  · exact frame_onMiscMessage _ h

theorem outcome_onSessionMessage (m : Message) (h : Scoped b k m s) :
    Outcome k s (s.onSessionMessage b env m) := by
  unfold onSessionMessage
  split
  case h_1 => exact frame_onMouseEvent _ (h.input (.inl ⟨_, rfl⟩))
  case h_2 => exact frame_onPointerDeviceEvent _ (h.input (.inr (.inl ⟨_, rfl⟩)))
  case h_3 => exact frame_onKeyEvent _ (h.input (.inr (.inr ⟨_, rfl⟩)))
  case h_4 => exact frame_onClipboard
  case h_5 => exact frame_onClipboard
  case h_6 =>
    refine outcome_of_frame ?_
    dsimp only
    split
    · exact frame_onCliprdr _
    · exact .refl s
  case h_7 => exact frame_onFileAction _ (h.file _ rfl)
  case h_8 => exact frame_onFileResponse _
  case h_9 => exact outcome_onMisc _ h
  case h_10 =>
    refine outcome_of_frame ?_
    unfold onAudioFrame
    split
    · exact frame_quiet rfl rfl
    · exact .refl s
  case h_11 => exact frame_onVoiceCallRequest _ _
  case h_12 => exact (frame_quiet rfl rfl).trans (frame_quiet rfl rfl)
  case h_13 => exact frame_handleTerminalAction _ (h.action _ rfl)
  case h_14 => exact Frame.refl s

theorem outcome_handleAuthorizedScopeViolation (message : String) :
    Outcome k s (s.handleAuthorizedScopeViolation b env message) := by
  unfold handleAuthorizedScopeViolation
  extract_lets isFirst s₁ s₂
  have h₁ : Frame k s s₁ := by
    unfold s₁
    split
    · exact .of_eq rfl rfl
    · exact .refl s
  have h₂ : Frame k s₁ s₂ := by
    unfold s₂
    split
    · exact frame_quiet rfl rfl
    · exact .refl s₁
  split
  · exact ((h₁.trans h₂).trans (frame_sendCloseReasonNoRetry _)).leave.trans (leave_onClose true)
  · exact h₁.trans h₂

/-! ### Events other than a login -/

theorem outcome_onReadJobs (responses : List FileResponse) (ok : Bool) :
    Outcome k s (s.onReadJobs b responses ok) := by
  have h : Frame k s (responses.foldl (fun s fr => s.send (.fileResponse fr)) s) :=
    frame_foldl (fun _ _ => frame_send _) responses
  unfold onReadJobs
  extract_lets s₁
  split
  · exact h
  · exact h.leave.trans (leave_onClose false)

theorem outcome_onService (m : Outgoing) (ok : Bool) : Outcome k s (s.onService b env m ok) := by
  unfold onService
  split_ifs
  · exact (frame_sendCloseReasonNoRetry _).leave.trans (leave_onClose false)
  · exact frame_send _
  · exact leave_onClose false

theorem frame_onFileClip (stop : Bool) : Frame k s (s.onFileClip b stop) := by
  unfold onFileClip
  split
  · exact frame_send _
  · exact .refl s

theorem frame_onPrinterData : Frame k s (s.onPrinterData b env) := by
  unfold onPrinterData
  split_ifs
  · exact frame_send _
  · exact frame_send _
  · exact .refl s

theorem frame_onTestDelayTimer : Frame k s (s.onTestDelayTimer env) := by
  unfold onTestDelayTimer
  split
  · exact .of_log [.send (.testDelay { lastDelay := s.networkDelay })] rfl rfl
      (by simp [Effect.isLogin, Effect.scope])
  · exact .refl s

theorem frame_handleReadJobInitResult (id : Int)
    (result : Except String (Option (String × List FileEntry))) :
    Frame k s (s.handleReadJobInitResult id result) := by
  unfold handleReadJobInitResult
  split
  · exact .refl s
  · split
    · exact .of_log [.send (.fileResponse (.error id _ 0))] rfl rfl
        (by simp [Effect.isLogin, Effect.scope])
    · exact .of_log [.send (.fileResponse (.error id "internal error" 0))] rfl rfl
        (by simp [Effect.isLogin, Effect.scope])
    · exact .of_log [.send (.fileResponse (.dir id _ _))] rfl rfl
        (by simp [Effect.isLogin, Effect.scope])

theorem frame_finishCmReadJob (id : Int) (fr : FileResponse) :
    Frame k s (s.finishCmReadJob id fr) := by
  unfold finishCmReadJob
  split
  · exact .of_log [.send (.fileResponse fr)] rfl rfl (by simp [Effect.isLogin, Effect.scope])
  · exact .refl s

theorem frame_forwardFromCm (id : Int) (fr : FileResponse) : Frame k s (s.forwardFromCm id fr) := by
  unfold forwardFromCm
  split
  · exact frame_send _
  · exact .refl s

theorem frame_handleAllFilesResult (id : Int) (path : String)
    (result : Except String (Option (String × List FileEntry))) :
    Frame k s (s.handleAllFilesResult id path result) := by
  unfold handleAllFilesResult
  split
  · exact frame_send _
  · exact frame_send _
  · exact frame_send _

end Connection

end RustDesk
